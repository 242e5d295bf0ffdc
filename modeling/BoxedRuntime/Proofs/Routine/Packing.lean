/-
  BoxedRuntime.Proofs.Routine.Packing — words as scalars.

  A scalar tag takes the words of its domain, and takes each of them as it is: the value
  made from a word gives the word back.

  Main statements:
  - `Boxing.packed_ok`: a word of the domain is packed, and unpacked as itself; only `null`
    has no room for it.
  - `Boxing.packed_outside`, `Boxing.packed_unsupported`: all else is refused; `Boxing.packs`
    puts the three together.
  - `Boxing.packed_scalar`, `Payload.domain_of_scalar?`: a scalar is what is made from its own
    tag and word, so the word is in the domain.
  - `Payload.eq_of_scalar?`: so tag and word tell the scalar.
-/
import BoxedRuntime.Proofs.Routine.Outcome

namespace BoxedRuntime

/-- The words that a value of the tag may stand for. -/
def Tag.Domain : Tag → Int → Prop
  | .null, _ | .int, _ => True
  | .bool, n => n = 0 ∨ n = 1
  | .byte, n => 0 ≤ n ∧ n ≤ 255
  | .char, n => 0 ≤ n ∧ n < 0xD800 ∨ 0xDFFF < n ∧ n ≤ 0x10FFFF
  | .real, _ | .string, _ | .list, _ | .record, _ => False

theorem ofNat_toNat_toInt {raw : Int64} (h : 0 ≤ raw.toInt) : Int64.ofNat raw.toInt.toNat = raw := by
  apply Int64.toInt_inj.mp
  have := raw.toInt_lt
  rw [Int64.toInt_ofNat_of_lt (by omega)]
  omega

theorem byte?_eq_some {raw : Int64} (h : Tag.byte.Domain raw.toInt) :
    ∃ b, byte? raw = some b ∧ Int64.ofNat b.toNat = raw := by
  obtain ⟨hlo, hhi⟩ := h
  refine ⟨UInt8.ofNat raw.toInt.toNat, if_pos ⟨hlo, by omega⟩, ?_⟩
  rw [UInt8.toNat_ofNat_of_lt' (show raw.toInt.toNat < 256 by omega)]
  exact ofNat_toNat_toInt hlo

theorem domain_char_iff {n : Int} : Tag.char.Domain n ↔ 0 ≤ n ∧ n.toNat.isValidChar := by
  simp only [Tag.Domain, Nat.isValidChar]
  omega

theorem scalarValue?_eq_some {raw : Int64} (h : Tag.char.Domain raw.toInt) :
    ∃ c, scalarValue? raw = some c ∧ Int64.ofNat c.toNat = raw := by
  have hvalid := domain_char_iff.mp h
  refine ⟨Char.ofNat raw.toInt.toNat, if_pos hvalid, ?_⟩
  have hnat : (Char.ofNat raw.toInt.toNat).toNat = raw.toInt.toNat := by
    rw [Char.ofNat, dif_pos hvalid.2]
    rfl
  rw [hnat]
  exact ofNat_toNat_toInt hvalid.1

theorem scalarValue?_isSome {raw : Int64} : (scalarValue? raw).isSome = true ↔ Tag.char.Domain raw.toInt := by
  rw [domain_char_iff, scalarValue?]
  split <;> simp_all

theorem Boxing.packed_ok {tag : Tag} {raw : Int64} (h : tag.Domain raw.toInt) :
    ∃ p, Boxing.packed tag raw = .ok p ∧ p.tag = tag ∧ p.scalar? = some (if tag = .null then 0 else raw) := by
  cases tag with
  | null => exact ⟨.null, rfl, rfl, rfl⟩
  | int => exact ⟨.int raw, rfl, rfl, rfl⟩
  | byte =>
    obtain ⟨b, hb, hraw⟩ := byte?_eq_some h
    exact ⟨.byte b, by simp [Boxing.packed, hb], rfl, congrArg some hraw⟩
  | char =>
    obtain ⟨c, hc, hraw⟩ := scalarValue?_eq_some h
    exact ⟨.char c, by simp [Boxing.packed, hc], rfl, congrArg some hraw⟩
  | bool =>
    rcases h with h | h
    · obtain rfl : raw = 0 := Int64.toInt_inj.mp h
      exact ⟨.bool false, rfl, rfl, rfl⟩
    · obtain rfl : raw = 1 := Int64.toInt_inj.mp h
      exact ⟨.bool true, rfl, rfl, rfl⟩
  | _ => exact h.elim

/-! ## Words that are refused -/

/-- The operation that refuses words for the tag. -/
def Tag.refuser : Tag → String
  | .byte => "box_byte"
  | .char => "box_char"
  | _ => "make_scalar"

/-- What it says of a word. -/
def Tag.refusal : Tag → String
  | .byte => " is not in 0..=255"
  | .char => " is not a unicode scalar value"
  | _ => " is not a bool payload"

theorem Boxing.packed_outside {tag : Tag} {raw : Int64} (htag : tag.isScalar = true) (h : ¬ tag.Domain raw.toInt) :
    Boxing.packed tag raw = .error (.range tag.refuser (Numeral.word raw ++ tag.refusal)) := by
  cases tag with
  | null | int => exact absurd trivial h
  | byte =>
    have hnone : byte? raw = none := if_neg fun hb => h ⟨hb.1, Int.lt_add_one_iff.mp hb.2⟩
    rw [Boxing.packed, hnone]
    rfl
  | char =>
    have hnone : scalarValue? raw = none := by
      rw [← Option.not_isSome_iff_eq_none, scalarValue?_isSome]
      exact h
    rw [Boxing.packed, hnone]
    rfl
  | bool =>
    have h0 : raw ≠ 0 := fun h0 => h (Or.inl (h0 ▸ rfl))
    have h1 : raw ≠ 1 := fun h1 => h (Or.inr (h1 ▸ rfl))
    have hnone : bool? raw = none := by rw [bool?, if_neg h0, if_neg h1]
    rw [Boxing.packed, hnone]
    rfl
  | _ => cases htag

theorem Boxing.packed_unsupported {tag : Tag} (htag : tag.isScalar = false) (raw : Int64) :
    Boxing.packed tag raw = .error (.unsupported "make_scalar" tag) := by
  cases tag with
  | real | string | list | record => rfl
  | _ => cases htag

/-- What comes of a word under a tag. -/
inductive Boxing.Packs (tag : Tag) (raw : Int64) : Except Fault Payload → Prop
  | value (p : Payload) : tag.isScalar = true → tag.Domain raw.toInt → p.tag = tag →
      p.scalar? = some (if tag = .null then 0 else raw) → Packs tag raw (.ok p)
  | outside : tag.isScalar = true → ¬ tag.Domain raw.toInt →
      Packs tag raw (.error (.range tag.refuser (Numeral.word raw ++ tag.refusal)))
  | unsupported : tag.isScalar = false → Packs tag raw (.error (.unsupported "make_scalar" tag))

theorem Boxing.packs (tag : Tag) (raw : Int64) : Packs tag raw (Boxing.packed tag raw) := by
  cases htag : tag.isScalar with
  | false =>
    rw [packed_unsupported htag]
    exact .unsupported htag
  | true =>
    by_cases h : tag.Domain raw.toInt
    · obtain ⟨p, hp, hkind, hword⟩ := packed_ok h
      rw [hp]
      exact .value p htag h hkind hword
    · rw [packed_outside htag h]
      exact .outside htag h

theorem Boxing.packed_unsupported_iff {tag : Tag} {raw : Int64} :
    Boxing.packed tag raw = .error (.unsupported "make_scalar" tag) ↔ tag.isScalar = false := by
  refine ⟨fun h => ?_, fun h => packed_unsupported h raw⟩
  have hp := packs tag raw
  generalize Boxing.packed tag raw = o at h hp
  cases hp with
  | unsupported htag => exact htag
  | _ => cases h

theorem Boxing.packed_outside_iff {tag : Tag} {raw : Int64} (htag : tag.isScalar = true) :
    Boxing.packed tag raw = .error (.range tag.refuser (Numeral.word raw ++ tag.refusal)) ↔
      ¬ tag.Domain raw.toInt := by
  refine ⟨fun h => ?_, packed_outside htag⟩
  have hp := packs tag raw
  generalize Boxing.packed tag raw = o at h hp
  cases hp with
  | outside _ hd => exact hd
  | _ => cases h

/-! ## From the scalar to its word -/

theorem toInt_ofNat_byte (b : UInt8) : (Int64.ofNat b.toNat).toInt = b.toNat :=
  Int64.toInt_ofNat_of_lt (by have := b.toNat_lt; omega)

theorem toInt_ofNat_char (c : Char) : (Int64.ofNat c.toNat).toInt = c.toNat :=
  Int64.toInt_ofNat_of_lt (by have : c.toNat < 2 ^ 32 := c.val.toNat_lt; omega)

theorem byte?_ofNat (b : UInt8) : byte? (Int64.ofNat b.toNat) = some b := by
  have := b.toNat_lt
  rw [byte?, toInt_ofNat_byte, if_pos (by omega), Int.toNat_natCast, UInt8.ofNat_toNat]

theorem scalarValue?_ofNat (c : Char) : scalarValue? (Int64.ofNat c.toNat) = some c := by
  have hvalid : c.toNat.isValidChar := c.valid
  rw [scalarValue?, toInt_ofNat_char, Int.toNat_natCast, if_pos ⟨by omega, hvalid⟩, Char.ofNat_toNat]

theorem Boxing.packed_scalar {p : Payload} {raw : Int64} (h : p.scalar? = some raw) : Boxing.packed p.tag raw = .ok p := by
  cases p with
  | null => rfl
  | int n => cases h; rfl
  | byte b => cases h; simp [Boxing.packed, Payload.tag, byte?_ofNat]
  | char c => cases h; simp [Boxing.packed, Payload.tag, scalarValue?_ofNat]
  | bool b => cases h; cases b <;> rfl
  | _ => cases h

/-- The word of a scalar is in the domain of its tag. -/
theorem Payload.domain_of_scalar? {p : Payload} {raw : Int64} (h : p.scalar? = some raw) : p.tag.Domain raw.toInt := by
  have hpacks := Boxing.packs p.tag raw
  rw [Boxing.packed_scalar h] at hpacks
  cases hpacks with
  | value _ _ hd => exact hd

theorem Payload.eq_of_scalar? {p q : Payload} {raw : Int64} (htag : p.tag = q.tag) (hp : p.scalar? = some raw)
    (hq : q.scalar? = some raw) : p = q := by
  have hpacked := Boxing.packed_scalar hp
  rw [htag, Boxing.packed_scalar hq] at hpacked
  exact (Except.ok.inj hpacked).symm

end BoxedRuntime
