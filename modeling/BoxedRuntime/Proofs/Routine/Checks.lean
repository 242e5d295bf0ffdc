/-
  BoxedRuntime.Proofs.Routine.Checks — what the checks of a conversion let through.

  A row of the conversion table puts a value through six checks: the header, the tags it
  accepts, whether there is a word at all, the precondition on the word, whether the
  result's tag has words, and the domain of that tag. The first check that fails decides,
  and the last two are those of boxing, so their faults cite the constructor and not the
  row.

  Nothing is supposed of a row. It may have the name of a constructor, accept tags without
  a word, or ask for a range that is empty. Nevertheless the fault always tells which
  check it was: a row that cites like a constructor and complains in its words also has
  its bounds.

  Main statements:
  - `Precondition.holds_iff`: preconditions as statements about numbers.
  - `converted_unaccepted`, `converted_wordless`, `Reads.converted_unmet`,
    `Reads.converted_met`: what each check does.
  - `Fault.unsupported_inj`, `not_admits_of_refusal`: no later check complains as an
    earlier one does.
  - `checks_apply`: every row on every value.
-/
import BoxedRuntime.Proofs.Routine.Packing
import BoxedRuntime.Proofs.Text.Decoding

namespace BoxedRuntime

/-! ## Preconditions -/

namespace Precondition

/-- What the precondition asks of a number. -/
def Admits : Precondition → Int → Prop
  | any, _ => True
  | between lo hi, n => lo.toInt ≤ n ∧ n ≤ hi.toInt
  | unicodeScalar, n => Tag.char.Domain n

theorem holds_iff {p : Precondition} {n : Int64} : p.holds n = true ↔ p.Admits n.toInt := by
  cases p with
  | any => exact ⟨fun _ => trivial, fun _ => rfl⟩
  | between lo hi =>
    rw [holds, Bool.and_eq_true, decide_eq_true_iff, decide_eq_true_iff, Int64.le_iff_toInt_le, Int64.le_iff_toInt_le]
    rfl
  | unicodeScalar => exact scalarValue?_isSome

end Precondition

/-! ## Check by check -/

variable {c : Conversion} {x : Handle} {n : Int64}

namespace Conversion

/-- The value is sound and accepted, and this is its word. -/
structure Reads (c : Conversion) (x : Handle) (n : Int64) : Prop where
  sound : x.Sound
  accepted : x.tag ∈ c.accepts
  word : x.scalar? = some n

theorem converted_unsound {f : Fault} (hf : Guard.fault? x c.name = some f) : c.converted x = .error f := by
  rw [converted, hf]

theorem converted_unaccepted (hs : x.Sound) (ht : x.tag ∉ c.accepts) :
    c.converted x = .error (.unsupported c.name x.tag) := by
  rw [converted, Guard.fault?_eq_none_iff.mpr hs]
  exact if_pos ht

theorem converted_wordless (hs : x.Sound) (ht : x.tag ∈ c.accepts) (hw : x.scalar? = none) :
    c.converted x = .error (c.notScalar x.tag) := by
  rw [converted, Guard.fault?_eq_none_iff.mpr hs]
  refine (if_neg (not_not_intro ht)).trans ?_
  rw [hw]

theorem Reads.converted_eq (h : c.Reads x n) :
    c.converted x = if c.precondition.holds n then Boxing.packed c.result n else .error (c.unmet n) := by
  rw [converted, Guard.fault?_eq_none_iff.mpr h.sound]
  refine (if_neg (not_not_intro h.accepted)).trans ?_
  rw [h.word]

theorem Reads.converted_unmet (h : c.Reads x n) (hp : ¬ c.precondition.Admits n.toInt) :
    c.converted x = .error (c.unmet n) := by
  rw [h.converted_eq, if_neg (mt Precondition.holds_iff.mp hp)]

theorem Reads.converted_met (h : c.Reads x n) (hp : c.precondition.Admits n.toInt) :
    c.converted x = Boxing.packed c.result n := by
  rw [h.converted_eq, if_pos (Precondition.holds_iff.mpr hp)]

/-- A sound value of an accepted tag has a word, or its tag has none. -/
theorem reads_or_wordless (hs : x.Sound) (ht : x.tag ∈ c.accepts) :
    (∃ n, c.Reads x n) ∨ x.scalar? = none ∧ x.tag.isScalar = false := by
  cases hw : x.scalar? with
  | some n => exact Or.inl ⟨n, hs, ht, hw⟩
  | none => exact Or.inr ⟨rfl, by rw [← hs.scalar?_isSome, hw]; rfl⟩

theorem Reads.isScalar (h : c.Reads x n) : x.tag.isScalar = true := by
  rw [← h.sound.scalar?_isSome, h.word]
  rfl

/-- Which check decided, and what came of it. -/
inductive Judged (c : Conversion) (x : Handle) : Except Fault Payload → Prop
  | unsound (f : Fault) : Guard.fault? x c.name = some f → Judged c x (.error f)
  | unaccepted : x.Sound → x.tag ∉ c.accepts → Judged c x (.error (.unsupported c.name x.tag))
  | wordless : x.tag ∈ c.accepts → x.tag.isScalar = false → Judged c x (.error (c.notScalar x.tag))
  | unmet (n : Int64) : c.Reads x n → ¬ c.precondition.Admits n.toInt → Judged c x (.error (c.unmet n))
  | boxed (n : Int64) (o : Except Fault Payload) : c.Reads x n → c.precondition.Admits n.toInt →
      Boxing.Packs c.result n o → Judged c x o

theorem judged (c : Conversion) (x : Handle) : c.Judged x (c.converted x) := by
  cases hf : Guard.fault? x c.name with
  | some f =>
    rw [converted_unsound hf]
    exact .unsound f hf
  | none =>
    have hs := Guard.fault?_eq_none_iff.mp hf
    by_cases ht : x.tag ∈ c.accepts
    · rcases reads_or_wordless hs ht with ⟨n, h⟩ | ⟨hw, htag⟩
      · by_cases hp : c.precondition.Admits n.toInt
        · rw [h.converted_met hp]
          exact .boxed n _ h hp (Boxing.packs c.result n)
        · rw [h.converted_unmet hp]
          exact .unmet n h hp
      · rw [converted_wordless hs ht hw]
        exact .wordless ht htag
    · rw [converted_unaccepted hs ht]
      exact .unaccepted hs ht

end Conversion

/-! ## No two checks complain alike -/

theorem Fault.unsupported_inj {r r' : String} {t u : Tag} (h : unsupported r t = unsupported r' u) : t = u := by
  have details : ∀ t u, (unsupported "" t).detail = (unsupported "" u).detail → t = u := by
    intro t u
    cases t <;> cases u <;> decide
  exact details t u (show (unsupported r t).detail = (unsupported r' u).detail from congrArg Fault.detail h)

namespace Precondition

theorem toList_describe_between (lo hi : Int64) : (between lo hi).describe.toList =
    Numeral.ofInt64 lo ++ ('.' :: '.' :: '=' :: (Numeral.ofInt64 hi ++ [])) := by
  simp [describe, Numeral.word, String.toList_append]

/-- A range is described by its bounds, and these begin with a sign or a digit. -/
theorem describe_between_ne {lo hi : Int64} {cs : List Char} : (between lo hi).describe.toList ≠ 'a' :: cs := by
  rw [toList_describe_between, Numeral.ofInt64]
  cases lo.toInt with
  | ofNat a =>
    obtain ⟨c, ds, hc, hd⟩ := Numeral.decimal_cons a
    intro h
    simp only [Numeral.ofInt, hc, List.cons_append] at h
    obtain rfl := (List.cons.inj h).1
    exact absurd hd (by decide)
  | negSucc a =>
    intro h
    exact absurd (List.cons.inj h).1 (by decide)

theorem describe_injective : Function.Injective describe := by
  intro p q h
  have hlist := congrArg String.toList h
  cases p with
  | any =>
    cases q with
    | any => rfl
    | between => exact absurd hlist.symm describe_between_ne
    | unicodeScalar => exact absurd h (by decide)
  | between lo hi =>
    cases q with
    | any | unicodeScalar => exact absurd hlist describe_between_ne
    | between lo' hi' =>
      rw [toList_describe_between, toList_describe_between] at hlist
      have point : ∀ {cs : List Char}, Numeral.NoDigit ('.' :: cs) := by rintro cs c ⟨⟩; decide
      have none : Numeral.NoDigit [] := by simp [Numeral.NoDigit]
      obtain ⟨hlo, hrest⟩ := Numeral.ofInt_append_inj point point hlist
      obtain ⟨hhi, -⟩ := Numeral.ofInt_append_inj none none (List.append_cancel_left (show ['.', '.', '='] ++ _ = _ from hrest))
      rw [Int64.toInt_inj.mp hlo, Int64.toInt_inj.mp hhi]
  | unicodeScalar =>
    cases q with
    | any => exact absurd h (by decide)
    | between => exact absurd hlist.symm describe_between_ne
    | unicodeScalar => rfl

/-- Where a precondition is described as a constructor describes its own, a word that the
    constructor refuses is not admitted. -/
theorem not_admits_of_refusal {p : Precondition} {t : Tag} {n : Int} (hn : ¬ t.Domain n)
    (h : " is not in " ++ p.describe = t.refusal) : ¬ p.Admits n := by
  -- Only the refusal of bytes says where the word is not; the others say what it is not.
  have apart : ∀ {u : String}, " is not a" ++ u ≠ " is not in " ++ p.describe := by
    intro u hu
    have := congrArg String.toList hu
    simp [String.toList_append] at this
  cases t with
  | byte =>
    have hrange : p.describe = (between 0 255).describe := by
      refine (String.append_right_inj " is not in ").mp (h.trans ?_)
      decide
    obtain rfl := describe_injective hrange
    exact hn
  | char => exact absurd h.symm (apart (u := " unicode scalar value"))
  | _ => exact absurd h.symm (apart (u := " bool payload"))

end Precondition

/-! ## Every row on every value -/

namespace Conversion

/-- What comes of a row on a value. Each line supposes that the checks of the lines above
    were passed, and then its fault is what came exactly if its own check was not. -/
structure Checks (c : Conversion) (x : Handle) (r : Except Fault Handle) : Prop where
  header : (∃ detail, Guard.fault? x c.name = some (.internal c.name detail) ∧ r = .error (.internal c.name detail)) ↔
    ¬ x.Sound
  accepts : x.Sound → (r = .error (.unsupported c.name x.tag) ↔ x.tag ∉ c.accepts)
  word : x.Sound → x.tag ∈ c.accepts →
    (r = .error (.internal c.name (x.tag.name ++ " payload is not a scalar")) ↔ x.tag.isScalar = false)
  precondition : ∀ n, c.Reads x n →
    (r = .error (.range c.name (Numeral.word n ++ " is not in " ++ c.precondition.describe)) ↔
      ¬ c.precondition.Admits n.toInt)
  result : ∀ n, c.Reads x n → c.precondition.Admits n.toInt →
    (r = .error (.unsupported "make_scalar" c.result) ↔ c.result.isScalar = false)
  domain : ∀ n, c.Reads x n → c.precondition.Admits n.toInt → c.result.isScalar = true →
    (r = .error (.range c.result.refuser (Numeral.word n ++ c.result.refusal)) ↔ ¬ c.result.Domain n.toInt)
  value : ∀ n, c.Reads x n → c.precondition.Admits n.toInt → c.result.Domain n.toInt →
    ∃ y, r = .ok y ∧ y.Sound ∧ y.tag = c.result ∧ y.scalar? = some (if c.result = .null then 0 else n)
  /-- No value comes past any of the checks. -/
  passed : ∀ y, r = .ok y → ∃ n, c.Reads x n ∧ c.precondition.Admits n.toInt ∧ c.result.Domain n.toInt

/-- A tag that is refused for having no words is not one that a word was read of. -/
theorem unaccepted_of_fault (hs : x.Sound) (h : c.converted x = .error (.unsupported c.name x.tag)) :
    x.tag ∉ c.accepts := by
  have hj := c.judged x
  generalize c.converted x = o at h hj
  cases hj with
  | unsound f hf => exact absurd hs (Guard.fault?_spec hf).2.2
  | unaccepted _ ht => exact ht
  | boxed n _ hr _ hpacks =>
    cases hpacks with
    | unsupported hresult =>
      have htag : c.result = x.tag := Fault.unsupported_inj (Except.error.inj h)
      rw [htag, hr.isScalar] at hresult
      cases hresult
    | _ => cases h
  | _ => cases h

theorem wordless_of_fault (hs : x.Sound) (h : c.converted x = .error (c.notScalar x.tag)) : x.tag.isScalar = false := by
  have hj := c.judged x
  generalize c.converted x = o at h hj
  cases hj with
  | unsound f hf => exact absurd hs (Guard.fault?_spec hf).2.2
  | wordless _ hw => exact hw
  | boxed _ _ _ _ hpacks => cases hpacks <;> cases h
  | _ => cases h

theorem Reads.unique {m : Int64} (h : c.Reads x n) (h' : c.Reads x m) : m = n :=
  Option.some.inj (h'.word.symm.trans h.word)

/-- The complaint of a constructor in the words of the row is about a word that neither takes. -/
theorem Reads.unmet_of_fault (hr : c.Reads x n) (h : c.converted x = .error (c.unmet n)) :
    ¬ c.precondition.Admits n.toInt := by
  have hj := c.judged x
  generalize c.converted x = o at h hj
  cases hj with
  | unsound f hf => exact absurd hr.sound (Guard.fault?_spec hf).2.2
  | unmet m hr' hp => exact hr.unique hr' ▸ hp
  | boxed m _ hr' _ hpacks =>
    obtain rfl := hr.unique hr'
    cases hpacks with
    | outside _ hd =>
      have hdetail : Numeral.word m ++ c.result.refusal = Numeral.word m ++ " is not in " ++ c.precondition.describe :=
        congrArg Fault.detail (Except.error.inj h)
      rw [String.append_assoc] at hdetail
      exact Precondition.not_admits_of_refusal hd ((String.append_right_inj _).mp hdetail).symm
    | _ => cases h
  | _ => cases h

/-- Every row on every value, and in every session. -/
theorem checks_apply (c : Conversion) (x : Handle) (s : Session) : c.Checks x (c.apply x s).1 := by
  rw [c.apply_settles x s]
  constructor
  · constructor
    · rintro ⟨detail, hf, -⟩
      exact (Guard.fault?_spec hf).2.2
    · intro hs
      cases hf : Guard.fault? x c.name with
      | none => exact absurd (Guard.fault?_eq_none_iff.mp hf) hs
      | some f =>
        obtain ⟨kind, routine, detail⟩ := f
        obtain ⟨rfl, rfl, -⟩ := Guard.fault?_spec hf
        exact ⟨detail, rfl, Session.settled_error_iff.mpr (converted_unsound hf)⟩
  · intro hs
    rw [Session.settled_error_iff]
    exact ⟨unaccepted_of_fault hs, converted_unaccepted hs⟩
  · intro hs ht
    rw [Session.settled_error_iff]
    refine ⟨wordless_of_fault hs, fun hw => ?_⟩
    rcases reads_or_wordless hs ht with ⟨n, h⟩ | ⟨hnone, -⟩
    · rw [h.isScalar] at hw
      cases hw
    · exact converted_wordless hs ht hnone
  · intro n h
    rw [Session.settled_error_iff]
    exact ⟨h.unmet_of_fault, h.converted_unmet⟩
  · intro n h hp
    rw [Session.settled_error_iff, h.converted_met hp]
    exact Boxing.packed_unsupported_iff
  · intro n h hp hresult
    rw [Session.settled_error_iff, h.converted_met hp]
    exact Boxing.packed_outside_iff hresult
  · intro n h hp hd
    rw [h.converted_met hp]
    obtain ⟨p, hpacked, htag, hword⟩ := Boxing.packed_ok hd
    rw [hpacked]
    exact ⟨_, rfl, ⟨rfl, rfl⟩, htag, hword⟩
  · intro y hy
    have hj := c.judged x
    rw [(Session.settled_ok hy).1] at hj
    cases hj with
    | boxed n _ hr hp hpacks =>
      cases hpacks with
      | value _ _ hd => exact ⟨n, hr, hp, hd⟩

/-- A row with the name of a constructor, and a range that holds nothing. -/
example : (converted ⟨"box_byte", ⟨"[d]"⟩, [.int], .between 1 0, .byte⟩ ⟨0, liveMagic, .int, .int 7⟩) =
    .error (.range "box_byte" "7 is not in 1..=0") := by rfl

end Conversion
end BoxedRuntime
