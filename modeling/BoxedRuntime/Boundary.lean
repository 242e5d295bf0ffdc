/-
  BoxedRuntime.Boundary — the calls compiled code makes into the runtime.

  Compiled code holds pointers. A pointer to an object is given out with a reference to
  the object, owned by compiled code until it is released, and stands for the object as
  long as one such reference is left; `owned` has one entry for each. At most one runtime
  is installed at a time: `init` boots one only if there is none, `install` replaces it.

  Every call guards its pointers first. A fault ends the process, so a call that faults
  is the last one.
-/
import BoxedRuntime.Boot

namespace BoxedRuntime

structure Boundary where
  installed : Option Runtime := none
  /-- The references that compiled code owns. -/
  owned : List Handle := []

/-- Why the process is at an end. -/
inductive Stop where
  | fault (f : Fault)
  /-- A pointer was used after its last reference was released, so nothing is known. -/
  | dangling (id : Nat)
  deriving DecidableEq, Repr

abbrev Entry := ExceptT Stop (StateM (Boundary × Session))

/-- Text as compiled code passes it: the address of its bytes, or null. -/
abbrev ForeignText := Option (List UInt8)

namespace Boundary

/-- The object that a pointer stands for. -/
def find? (b : Boundary) (id : Nat) : Option Handle := b.owned.find? (·.id == id)

def own (b : Boundary) (x : Handle) : Boundary := { b with owned := x :: b.owned }

def disown (b : Boundary) (id : Nat) : Boundary := { b with owned := b.owned.eraseP (·.id == id) }

end Boundary

namespace Entry

instance : MonadLift Op Entry where
  monadLift x := ExceptT.mk fun (b, s) =>
    match x s with
    | (.ok a, s') => (.ok a, b, s')
    | (.error f, s') => (.error (.fault f), b, s')

def boundary : Entry Boundary := ExceptT.mk fun (b, s) => (.ok b, b, s)

def update (f : Boundary → Boundary) : Entry Unit := ExceptT.mk fun (b, s) => (.ok (), f b, s)

/-- The pointer as the guards see it. -/
def resolve : Pointer Nat → Entry (Pointer Handle)
  | .stray address words => return .stray address words
  | .object id => do
    match (← boundary).find? id with
    | some x => return .object x
    | none => throw (.dangling id)

/-- The object at a pointer, found sound. -/
def checked (p : Pointer Nat) (label : String) : Entry Handle := do
  let q ← resolve p
  Guard.checkPointer q label

/-- Hand a reference over to compiled code; the answer is the pointer. -/
def give (x : Handle) : Entry Nat := do
  update (·.own x)
  return x.id

/-! ## The installed runtime -/

def install (r : Runtime) : Entry Unit := update fun b => { b with installed := some r }

def shutdown : Entry Unit := update fun b => { b with installed := none }

def alreadyRecord : LogRecord :=
  ⟨.debug, "brisk_runtime::abi", "brisk_runtime_init: runtime already installed"⟩

/-- Boot a runtime with these extensions, unless there is one. -/
def init (extensions : List Module) : Entry Unit := do
  match (← boundary).installed with
  | some _ => Op.emit alreadyRecord
  | none =>
    let r ← Runtime.boot extensions []
    install r

/-! ## Values -/

def boxNull : Entry Nat := do give (← Boxing.null)

def boxBool (b : Bool) : Entry Nat := do give (← Boxing.bool b)

def boxInt (n : Int64) : Entry Nat := do give (← Boxing.int n)

def boxByte (raw : Int64) : Entry Nat := do give (← Boxing.byte raw)

def boxChar (raw : Int64) : Entry Nat := do give (← Boxing.char raw)

def tagOf (p : Pointer Nat) : Entry UInt32 := do
  let x ← checked p "brisk_tag_of"
  return x.tag.raw

def unboxScalar (p : Pointer Nat) : Entry Int64 := do
  let x ← checked p "brisk_unbox_scalar"
  match x.scalar? with
  | some raw => return raw
  | none => Op.raise (.unsupported "brisk_unbox_scalar" x.tag)

/-- Take another reference to the object. -/
def retain (id : Nat) : Entry Nat := do
  match (← boundary).find? id with
  | some x => give x
  | none => throw (.dangling id)

def release (p : Pointer Nat) : Entry Unit := do
  let x ← checked p "brisk_release"
  update (·.disown x.id)

/-! ## Calls -/

/-- The text up to the first zero byte. -/
def readText (t : ForeignText) (label : String) : Op String :=
  match t with
  | none => Op.raise (.internal label "null string")
  | some bytes =>
    match String.fromUTF8? (bytes.takeWhile (· ≠ 0)).toByteArray with
    | some s => pure s
    | none => Op.raise (.internal label "string is not valid UTF-8")

/-- Call a routine of one argument. The caller keeps its reference to the argument and
    receives one to the result. -/
def call (name signature : ForeignText) (arg : Pointer Nat) : Entry Nat := do
  let name ← readText name "brisk_call1"
  let signature ← readText signature "brisk_call1"
  let x ← checked arg name
  match (← boundary).installed with
  | none => Op.raise (.internal name "runtime used before brisk_runtime_init")
  | some runtime =>
    match ← runtime.call name ⟨signature⟩ [x] with
    | .ok result => give result
    | .error e => Op.raise (.internal name e.message)

end Entry
end BoxedRuntime
