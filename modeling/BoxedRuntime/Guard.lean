/-
  BoxedRuntime.Guard — entry guards.

  Operations check the handles they receive before they touch a payload. What the guards
  find are bugs of generated code, so every failure is an internal fault that cites the
  operation. `check` examines a handle, `checkArguments` the arguments of a routine, and
  `checkPointer` an address that compiled code passed in.

  The order of the tests is fixed. For a pointer: null, alignment, the first header word,
  the second, and only then the payload; for arguments: their number, then each in turn.
-/
import BoxedRuntime.Session

namespace BoxedRuntime

/-! ## Pointers -/

/-- An object and its header begin at a multiple of this. -/
def objectAlignment : Nat := 8

/-- These words are the header of some object. -/
def validHeader (magic rawTag : UInt32) : Bool := magic == liveMagic && (Tag.ofRaw? rawTag).isSome

/-- Two words that are the header of no object. -/
structure ForeignWords where
  magic : UInt32
  rawTag : UInt32
  invalid : validHeader magic rawTag = false

/-- Words can be read at this address. -/
def Readable (address : UInt64) : Prop := address ≠ 0 ∧ address.toNat % objectAlignment = 0

/-- What compiled code may hold in place of a handle; `α` is how it names live objects. -/
inductive Pointer (α : Type) where
  /-- No object is at this address: the words there, if any can be read, are no header. -/
  | stray (address : UInt64) (words : Readable address → ForeignWords)
  | object (name : α)

namespace Pointer

variable {α : Type}

def null : Pointer α := .stray 0 fun h => absurd rfl h.1

def misaligned (address : UInt64) (crooked : address.toNat % objectAlignment ≠ 0) : Pointer α :=
  .stray address fun h => absurd h.2 crooked

/-- Aligned memory that begins with these two words and holds no object. -/
def foreign (magic rawTag : UInt32) (invalid : validHeader magic rawTag = false) : Pointer α :=
  .stray 8 fun _ => ⟨magic, rawTag, invalid⟩

end Pointer

/-! ## Guards -/

namespace Guard

/-- Eight hexadecimal digits. -/
def wordText (n : UInt32) : String := "0x" ++ String.ofList (Numeral.padLeft 8 '0' (Numeral.hex n.toNat))

def badMagic (label : String) (magic : UInt32) : Fault := .internal label ("bad object magic " ++ wordText magic)

def tagMismatch (label : String) (header payload : Tag) : Fault :=
  .internal label ("header tag " ++ header.name ++ " does not match " ++ payload.name ++ " payload")

/-- What is wrong with the header of a handle's object, if anything is. -/
def fault? (x : Handle) (label : String) : Option Fault :=
  if x.magic ≠ liveMagic then some (badMagic label x.magic)
  else if x.tag ≠ x.payload.tag then some (tagMismatch label x.tag x.payload.tag)
  else none

def check (x : Handle) (label : String) : Op Unit := (fault? x label).forM Op.raise

theorem fault?_eq_none_iff {x : Handle} {label : String} : fault? x label = none ↔ x.Sound := by
  unfold fault? Handle.Sound
  split <;> simp_all

theorem check_apply (x : Handle) (label : String) (s : Session) :
    check x label s = match fault? x label with
      | some f => (.error f, s.raised f)
      | none => (.ok (), s) := by
  unfold check
  cases fault? x label <;> rfl

def nullHandle (label : String) : Fault := .internal label "null handle"

def misaligned (label : String) (address : UInt64) : Fault :=
  .internal label ("handle 0x" ++ String.ofList (Numeral.hex address.toNat) ++ " is misaligned")

def unknownTag (label : String) (rawTag : UInt32) : Fault :=
  .internal label ("unknown type tag " ++ String.ofList (Numeral.decimal rawTag.toNat))

/-- What is wrong with the two words at an address, if anything is. -/
def headerFault? (magic rawTag : UInt32) (label : String) : Option Fault :=
  if magic ≠ liveMagic then some (badMagic label magic)
  else if (Tag.ofRaw? rawTag).isNone then some (unknownTag label rawTag)
  else none

theorem headerFault?_eq_none_iff {magic rawTag : UInt32} {label : String} :
    headerFault? magic rawTag label = none ↔ validHeader magic rawTag = true := by
  unfold headerFault? validHeader
  cases Tag.ofRaw? rawTag <;> split <;> simp_all

theorem headerFault?_isSome {magic rawTag : UInt32} (invalid : validHeader magic rawTag = false) (label : String) :
    (headerFault? magic rawTag label).isSome = true := by
  rw [Option.isSome_iff_ne_none, ne_eq, headerFault?_eq_none_iff, invalid]
  exact Bool.false_ne_true

/-- The object at an address, found sound: first by the words there, then as an object. -/
def checkPointer (p : Pointer Handle) (label : String) : Op Handle :=
  match p with
  | .stray address words =>
    if hnull : address = 0 then Op.raise (nullHandle label)
    else if haligned : address.toNat % objectAlignment = 0 then
      let w := words ⟨hnull, haligned⟩
      Op.raise ((headerFault? w.magic w.rawTag label).get (headerFault?_isSome w.invalid label))
    else Op.raise (misaligned label address)
  | .object x => do
    (headerFault? x.magic x.tag.raw label).forM Op.raise
    check x label
    return x

/-- No pointer to anything but an object gets through. -/
theorem checkPointer_stray (address : UInt64) (words : Readable address → ForeignWords) (label : String) :
    ∃ f, checkPointer (.stray address words) label = Op.raise f := by
  unfold checkPointer
  dsimp only
  split
  · exact ⟨_, rfl⟩
  · split <;> exact ⟨_, rfl⟩

theorem headerFault?_raw (x : Handle) (label : String) :
    headerFault? x.magic x.tag.raw label = if x.magic ≠ liveMagic then some (badMagic label x.magic) else none := by
  simp [headerFault?, Tag.ofRaw?_raw]

/-- The words at an object's address show nothing that the object itself does not. -/
theorem checkPointer_object (x : Handle) (label : String) (s : Session) :
    checkPointer (.object x) label s = match fault? x label with
      | some f => (.error f, s.raised f)
      | none => (.ok x, s) := by
  simp only [checkPointer, headerFault?_raw, Op.bind_apply, check_apply]
  by_cases hmagic : x.magic ≠ liveMagic
  · simp only [fault?, if_pos hmagic]
    rfl
  · rw [if_neg hmagic]
    cases fault? x label <;> rfl

def wrongArity (label : String) (expected received : Nat) : Fault :=
  .internal label s!"expected {expected} argument(s), received {received}"

/-- As many arguments as expected, and every one of them sound; the first that is not is
    the one complained of. -/
def checkArguments (args : List Handle) (expected : Nat) (label : String) : Op Unit :=
  if args.length ≠ expected then Op.raise (wrongArity label expected args.length)
  else (args.findSome? (fault? · label)).forM Op.raise

/-- The argument of a routine that takes one. -/
def argument (args : List Handle) (label : String) : Op Handle :=
  match args with
  | [x] => do
    check x label
    return x
  | _ => Op.raise (wrongArity label 1 args.length)

end Guard
end BoxedRuntime
