/-
  BoxedRuntime.Proofs.Boundary.Pointers — what the guard asks of a pointer.

  Compiled code may hand over any address in place of an object's. The guard asks five
  things, one after the other: that there is an address, that it is aligned, that the
  first word there is that of a live object, that the second is the raw value of a tag,
  and that this tag is the payload's. The first that fails is the one complained of, so a
  payload is looked at only behind a header that is in order. The guard on handles asks
  fewer things, of an object that it has at hand, and the two answer alike.

  Of an address at which no object is, all five are asked in turn. An object lies at an
  aligned address, so of a pointer to one only the last three are in question. The two
  words of an object may have been overwritten by any others. Where the second
  one is no tag any more, what is left is memory that begins with these two words
  (`Handle.overwritten`).

  Main statements:
  - `checkPointer_of_met`: what is asked for is enough.
  - `checkPointer_of_unmet`: the first thing that is not met decides the fault.
  - `checkPointer_of_words`: a bad header hides what is behind it.
  - `checkPointer_overwritten`: the guard on pointers, against the guard on handles.
  - `pointers_guarded`: all of it for every pointer, and the call that reads the tag.
-/
import BoxedRuntime.Proofs.Boundary.Installation

namespace BoxedRuntime

/-! ## What is asked -/

instance (address : UInt64) : Decidable (Readable address) := inferInstanceAs (Decidable (_ ∧ _))

/-- The address, unless an object is there. -/
def Pointer.stray? : Pointer Handle → Option UInt64
  | stray address _ => some address
  | object _ => none

/-- The two words at the address, where words can be read. -/
def Pointer.words? : Pointer Handle → Option (UInt32 × UInt32)
  | stray address words => if h : Readable address then some ((words h).magic, (words h).rawTag) else none
  | object x => some (x.magic, x.tag.raw)

inductive Requirement where
  | address
  | alignment
  /-- The first word is that of a live object. -/
  | magic
  /-- The second word is the raw value of a tag. -/
  | knownTag
  /-- That tag is the payload's own. -/
  | ownTag
  deriving DecidableEq, Repr

namespace Requirement

/-- The place in the order in which it is asked for. -/
def rank : Requirement → Nat
  | address => 0
  | alignment => 1
  | magic => 2
  | knownTag => 3
  | ownTag => 4

def Met (p : Pointer Handle) : Requirement → Prop
  | address => p.stray? ≠ some 0
  | alignment => ∀ address, p.stray? = some address → address.toNat % objectAlignment = 0
  | magic => ∃ rawTag, p.words? = some (liveMagic, rawTag)
  | knownTag => ∃ magic tag, p.words? = some (magic, Tag.raw tag)
  | ownTag => ∃ x, p = .object x ∧ x.tag = x.payload.tag

/-- What is said of a pointer that does not meet it. -/
inductive Complaint (label : String) : Requirement → Pointer Handle → Fault → Prop
  | address {p : Pointer Handle} : p.stray? = some 0 → Complaint label .address p (Guard.nullHandle label)
  | alignment {p : Pointer Handle} {address : UInt64} : p.stray? = some address →
      Complaint label .alignment p (Guard.misaligned label address)
  | magic {p : Pointer Handle} {magic rawTag : UInt32} : p.words? = some (magic, rawTag) →
      Complaint label .magic p (Guard.badMagic label magic)
  | knownTag {p : Pointer Handle} {magic rawTag : UInt32} : p.words? = some (magic, rawTag) →
      Complaint label .knownTag p (Guard.unknownTag label rawTag)
  | ownTag (x : Handle) : Complaint label .ownTag (.object x) (Guard.tagMismatch label x.tag x.payload.tag)

theorem Complaint.internal {label : String} {r : Requirement} {p : Pointer Handle} {f : Fault}
    (h : Complaint label r p f) : f.kind = .internalConsistency ∧ f.routine = label := by
  cases h <;> exact ⟨rfl, rfl⟩

/-- What comes before it in the order is met, and it is not. -/
structure First (p : Pointer Handle) (r : Requirement) : Prop where
  earlier : ∀ q, q.rank < r.rank → Met p q
  unmet : ¬ Met p r

theorem exists_first {p : Pointer Handle} (h : ¬ ∀ r, Met p r) : ∃ r, First p r := by
  by_contra hnone
  refine h fun r => (measure rank).wf.induction r fun r ih => ?_
  by_contra hr
  exact hnone ⟨r, ih, hr⟩

end Requirement

open Requirement

namespace Guard

variable {p q : Pointer Handle} {magic rawTag : UInt32} {label : String}

/-! ## Words -/

theorem words_of_met (haddress : Met p .address) (halignment : Met p .alignment) :
    ∃ magic rawTag, p.words? = some (magic, rawTag) := by
  cases p with
  | stray address words =>
    have hreadable : Readable address := ⟨fun h => haddress (congrArg some h), halignment address rfl⟩
    exact ⟨_, _, dif_pos hreadable⟩
  | object x => exact ⟨x.magic, x.tag.raw, rfl⟩

/-- Where words can be read and no object is, they are no header. -/
theorem words?_stray {address : UInt64} {words : Readable address → ForeignWords}
    (h : (Pointer.stray address words).words? = some (magic, rawTag)) :
    ∃ hreadable, (words hreadable).magic = magic ∧ (words hreadable).rawTag = rawTag := by
  obtain ⟨hreadable, hwords⟩ := Option.dite_none_right_eq_some.mp h
  cases hwords
  exact ⟨hreadable, rfl, rfl⟩

theorem met_magic_iff (h : p.words? = some (magic, rawTag)) : Met p .magic ↔ magic = liveMagic := by
  simp [Met, h]

theorem met_knownTag_iff (h : p.words? = some (magic, rawTag)) :
    Met p .knownTag ↔ ∃ tag, Tag.ofRaw? rawTag = some tag := by
  simp [Met, h, Tag.ofRaw?_eq_some_iff]

theorem checkPointer_of_null (h : p.stray? = some 0) (s : Session) :
    checkPointer p label s = (.error (nullHandle label), s.raised (nullHandle label)) := by
  cases p with
  | stray address words => cases h; rfl
  | object x => cases h

theorem checkPointer_of_crooked {address : UInt64} (h : p.stray? = some address)
    (hcrooked : address.toNat % objectAlignment ≠ 0) (s : Session) :
    checkPointer p label s = (.error (misaligned label address), s.raised (misaligned label address)) := by
  cases p with
  | stray address words =>
    cases h
    have hnull : address ≠ 0 := fun h => hcrooked (h ▸ rfl)
    simp only [checkPointer, hnull, hcrooked, dite_false]
    rfl
  | object x => cases h

/-- A header that is not in order is all that is looked at. -/
theorem checkPointer_of_words (h : p.words? = some (magic, rawTag)) {f : Fault}
    (hf : headerFault? magic rawTag label = some f) (s : Session) :
    checkPointer p label s = (.error f, s.raised f) := by
  cases p with
  | stray address words =>
    obtain ⟨hreadable, rfl, rfl⟩ := words?_stray h
    simp only [checkPointer, hreadable.1, hreadable.2, hf, Option.get_some, dite_true, dite_false]
    rfl
  | object x =>
    cases h
    simp only [checkPointer, hf, Op.bind_apply]
    rfl

theorem checkPointer_eq_of_words (hp : p.words? = some (magic, rawTag)) (hq : q.words? = some (magic, rawTag))
    (hbad : ¬ (Met p .magic ∧ Met p .knownTag)) (label : String) : checkPointer p label = checkPointer q label := by
  have hheader : validHeader magic rawTag = false := by
    rw [met_magic_iff hp, met_knownTag_iff hp, ← Option.isSome_iff_exists] at hbad
    rw [← Bool.not_eq_true, validHeader, Bool.and_eq_true, beq_iff_eq]
    exact hbad
  obtain ⟨f, hf⟩ := Option.isSome_iff_exists.mp (headerFault?_isSome hheader label)
  funext s
  rw [checkPointer_of_words hp hf, checkPointer_of_words hq hf]

/-! ## The guard's answer -/

/-- Memory with a header in order is an object. -/
theorem object_of_met (h : ∀ r, r ≠ .ownTag → Met p r) : ∃ x, p = .object x ∧ x.magic = liveMagic := by
  obtain ⟨magic, rawTag, hwords⟩ := words_of_met (h .address (by decide)) (h .alignment (by decide))
  have hmagic := (met_magic_iff hwords).mp (h .magic (by decide))
  obtain ⟨tag, htag⟩ := (met_knownTag_iff hwords).mp (h .knownTag (by decide))
  cases p with
  | object x => cases hwords; exact ⟨x, rfl, hmagic⟩
  | stray address words =>
    obtain ⟨hreadable, rfl, rfl⟩ := words?_stray hwords
    have invalid := (words hreadable).invalid
    simp [validHeader, hmagic, htag] at invalid

/-- What is asked for is enough, and it takes an object. -/
theorem checkPointer_of_met (h : ∀ r, Met p r) (label : String) :
    ∃ x, p = .object x ∧ ∀ s, checkPointer p label s = (.ok x, s) := by
  obtain ⟨x, rfl, hmagic⟩ := object_of_met fun r _ => h r
  obtain ⟨y, hy, htag⟩ := h .ownTag
  cases hy
  refine ⟨x, rfl, fun s => ?_⟩
  rw [checkPointer_object, fault?_eq_none_iff.mpr ⟨hmagic, htag⟩]

/-- The first requirement that is not met decides the fault. -/
theorem checkPointer_of_unmet {r : Requirement} (h : First p r) (label : String) :
    ∃ f, Complaint label r p f ∧ ∀ s, checkPointer p label s = (.error f, s.raised f) := by
  obtain ⟨hearlier, hr⟩ := h
  cases r with
  | address =>
    have hnull : p.stray? = some 0 := not_not.mp hr
    exact ⟨_, .address hnull, checkPointer_of_null hnull⟩
  | alignment =>
    obtain ⟨address, hstray, hcrooked⟩ : ∃ address, p.stray? = some address ∧ address.toNat % objectAlignment ≠ 0 := by
      simpa [Met] using hr
    exact ⟨_, .alignment hstray, checkPointer_of_crooked hstray hcrooked⟩
  | magic =>
    obtain ⟨magic, rawTag, hwords⟩ := words_of_met (hearlier .address (by decide)) (hearlier .alignment (by decide))
    have hmagic : magic ≠ liveMagic := fun h => hr ((met_magic_iff hwords).mpr h)
    exact ⟨_, .magic hwords, checkPointer_of_words hwords (if_pos hmagic)⟩
  | knownTag =>
    obtain ⟨magic, rawTag, hwords⟩ := words_of_met (hearlier .address (by decide)) (hearlier .alignment (by decide))
    have hmagic := (met_magic_iff hwords).mp (hearlier .magic (by decide))
    have htag : Tag.ofRaw? rawTag = none := by
      rw [met_knownTag_iff hwords, ← Option.isSome_iff_exists] at hr
      exact Option.not_isSome_iff_eq_none.mp hr
    refine ⟨_, .knownTag hwords, checkPointer_of_words hwords ?_⟩
    rw [headerFault?, if_neg (not_not_intro hmagic), htag]
    rfl
  | ownTag =>
    have hothers : ∀ q, q ≠ .ownTag → Met p q := fun q hq => by
      cases q with
      | ownTag => exact absurd rfl hq
      | address | alignment | magic | knownTag => exact hearlier _ (by decide)
    obtain ⟨x, rfl, hmagic⟩ := object_of_met hothers
    have htag : x.tag ≠ x.payload.tag := fun h => hr ⟨x, rfl, h⟩
    refine ⟨_, .ownTag x, fun s => ?_⟩
    rw [checkPointer_object, fault?, if_neg (not_not_intro hmagic), if_pos htag]

theorem checkPointer_ok_iff {s s' : Session} {x : Handle} :
    checkPointer p label s = (.ok x, s') ↔ p = .object x ∧ (∀ r, Met p r) ∧ s' = s := by
  by_cases hmet : ∀ r, Met p r
  · obtain ⟨y, rfl, hy⟩ := checkPointer_of_met hmet label
    rw [hy]
    constructor
    · rintro ⟨⟩
      exact ⟨rfl, hmet, rfl⟩
    · rintro ⟨⟨⟩, -, rfl⟩
      rfl
  · obtain ⟨r, hr⟩ := exists_first hmet
    obtain ⟨f, -, hf⟩ := checkPointer_of_unmet hr label
    rw [hf]
    exact ⟨nofun, fun h => absurd h.2.1 hmet⟩

end Guard

/-! ## Overwritten headers -/

/-- What is at the address of an object, after its two words were overwritten. -/
def Handle.overwritten (x : Handle) (magic rawTag : UInt32) : Pointer Handle :=
  match h : Tag.ofRaw? rawTag with
  | some tag => .object { x with magic := magic, tag := tag }
  | none => .foreign magic rawTag (by simp [validHeader, h])

theorem Handle.overwritten_of_tag (x : Handle) (magic : UInt32) {rawTag : UInt32} {tag : Tag}
    (h : Tag.ofRaw? rawTag = some tag) :
    x.overwritten magic rawTag = .object { x with magic := magic, tag := tag } := by
  unfold overwritten
  split <;> simp_all

theorem Handle.words?_overwritten (x : Handle) (magic rawTag : UInt32) :
    (x.overwritten magic rawTag).words? = some (magic, rawTag) := by
  unfold overwritten
  split
  case _ tag h => rw [Tag.ofRaw?_eq_some_iff.mp h]; rfl
  case _ => rfl

/-- The words are a tag again: the guard on pointers says what the guard on handles says. -/
theorem Guard.checkPointer_overwritten (x : Handle) (magic : UInt32) {rawTag : UInt32} {tag : Tag}
    (h : Tag.ofRaw? rawTag = some tag) (label : String) (s : Session) :
    let y : Handle := { x with magic := magic, tag := tag }
    (check y label s = (.ok (), s) ∧ checkPointer (x.overwritten magic rawTag) label s = (.ok y, s)) ∨
      ∃ f, check y label s = (.error f, s.raised f) ∧
        checkPointer (x.overwritten magic rawTag) label s = (.error f, s.raised f) := by
  intro y
  rw [x.overwritten_of_tag magic h, checkPointer_object, check_apply]
  cases fault? y label with
  | none => exact .inl ⟨rfl, rfl⟩
  | some f => exact .inr ⟨f, rfl, rfl⟩

/-! ## Every pointer -/

/-- What the guard makes of a pointer. -/
structure Guard.Guarded (label : String) (p : Pointer Handle) : Prop where
  ok_iff : ∀ s, (∃ x s', checkPointer p label s = (.ok x, s')) ↔ ∀ r, Met p r
  /-- It lets the object through that is there, and leaves no trace. -/
  object : ∀ s x s', checkPointer p label s = (.ok x, s') → p = .object x ∧ s' = s
  decided : (∀ r, Met p r) ∨ ∃ r, First p r
  fault : ∀ r, First p r → ∃ f, Complaint label r p f ∧ f.kind = .internalConsistency ∧ f.routine = label ∧
    ∀ s, checkPointer p label s = (.error f, s.raised f)
  /-- Behind a bad header there may be anything. -/
  header : ∀ q words, p.words? = some words → q.words? = some words → ¬ (Met p .magic ∧ Met p .knownTag) →
    checkPointer p label = checkPointer q label

/-- What the call that reads the tag makes of a pointer that stands for `p`. -/
structure Entry.ReadsTag (b : Boundary) (t : Session) (arg : Pointer Nat) (p : Pointer Handle) : Prop where
  word : (∀ r, Met p r) → ∀ magic rawTag, p.words? = some (magic, rawTag) → tagOf arg (b, t) = (.ok rawTag, b, t)
  fault : ∀ r, First p r → ∃ f, Complaint "brisk_tag_of" r p f ∧ tagOf arg (b, t) = (.error (.fault f), b, t.raised f)

theorem Guard.guarded (label : String) (p : Pointer Handle) : Guarded label p where
  ok_iff s := by
    constructor
    · rintro ⟨x, s', h⟩
      exact (checkPointer_ok_iff.mp h).2.1
    · intro h
      obtain ⟨x, -, hx⟩ := checkPointer_of_met h label
      exact ⟨x, s, hx s⟩
  object s x s' h := ⟨(checkPointer_ok_iff.mp h).1, (checkPointer_ok_iff.mp h).2.2⟩
  decided := or_iff_not_imp_left.mpr exists_first
  fault r hr := by
    obtain ⟨f, hcomplaint, hf⟩ := checkPointer_of_unmet hr label
    exact ⟨f, hcomplaint, hcomplaint.internal.1, hcomplaint.internal.2, hf⟩
  header q words hp hq hbad := checkPointer_eq_of_words hp hq hbad label

theorem Entry.reads_tag {b : Boundary} {arg : Pointer Nat} {p : Pointer Handle} (hp : arg.rename b.find? = .ok p)
    (t : Session) : ReadsTag b t arg p where
  word h magic rawTag hwords := by
    obtain ⟨x, rfl, hx⟩ := Guard.checkPointer_of_met h "brisk_tag_of"
    cases hwords
    simp only [tagOf, bind_apply, checked_apply hp, hx]
    rfl
  fault r hr := by
    obtain ⟨f, hcomplaint, hf⟩ := Guard.checkPointer_of_unmet hr "brisk_tag_of"
    refine ⟨f, hcomplaint, ?_⟩
    simp only [tagOf, bind_apply, checked_apply hp, hf]

/-- Every pointer, every object with any two words for its header, and every pointer of
    compiled code in any state of the boundary. -/
theorem pointers_guarded (label : String) :
    (∀ p, Guard.Guarded label p) ∧
      (∀ (x : Handle) (magic rawTag : UInt32), (x.overwritten magic rawTag).words? = some (magic, rawTag) ∧
        ∀ tag, Tag.ofRaw? rawTag = some tag → ∀ s,
          let y : Handle := { x with magic := magic, tag := tag }
          (Guard.check y label s = (.ok (), s) ∧
              Guard.checkPointer (x.overwritten magic rawTag) label s = (.ok y, s)) ∨
            ∃ f, Guard.check y label s = (.error f, s.raised f) ∧
              Guard.checkPointer (x.overwritten magic rawTag) label s = (.error f, s.raised f)) ∧
      ∀ b t arg p, arg.rename b.find? = .ok p → Entry.ReadsTag b t arg p :=
  ⟨Guard.guarded label,
    fun x magic rawTag =>
      ⟨x.words?_overwritten magic rawTag, fun _ h => Guard.checkPointer_overwritten x magic h label⟩,
    fun _ t _ _ hp => Entry.reads_tag hp t⟩

/-- An integer whose words were overwritten: the first word decides before the second one,
    which is no tag either. Left alone, its tag is read. -/
theorem overwritten_words_rejected :
    let x : Handle := ⟨0, liveMagic, .int, .int 5⟩
    First (x.overwritten 0xDEADBEEF 77) .magic ∧
      (∀ s, Guard.checkPointer (x.overwritten 0xDEADBEEF 77) "entry" s =
        (.error (Guard.badMagic "entry" 0xDEADBEEF), s.raised (Guard.badMagic "entry" 0xDEADBEEF))) ∧
      Entry.tagOf (.object 0) ({ owned := [x] }, {}) = (.ok 4, { owned := [x] }, {}) := by
  intro x
  have hwords := x.words?_overwritten 0xDEADBEEF 77
  have hfirst : First (x.overwritten 0xDEADBEEF 77) .magic := by
    refine ⟨fun q hq => ?_, ?_⟩
    · cases q with
      | address => exact (by decide : some (8 : UInt64) ≠ some 0)
      | alignment => rintro _ ⟨⟩; decide
      | _ => exact absurd hq (by decide)
    · rw [Guard.met_magic_iff hwords]
      decide
  obtain ⟨hguarded, -, htag⟩ := pointers_guarded "entry"
  refine ⟨hfirst, ?_, ?_⟩
  · obtain ⟨f, hcomplaint, -, -, hf⟩ := (hguarded _).fault .magic hfirst
    cases hcomplaint with
    | magic hw =>
      cases hwords.symm.trans hw
      exact hf
  · refine (htag { owned := [x] } {} (.object 0) (.object x) rfl).word ?_ liveMagic 4 rfl
    have hchecked : Guard.checkPointer (.object x) "entry" {} = (.ok x, {}) := rfl
    exact ((hguarded (.object x)).ok_iff {}).mp ⟨x, {}, hchecked⟩

end BoxedRuntime
