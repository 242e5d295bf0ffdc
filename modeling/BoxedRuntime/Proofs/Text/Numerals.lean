/-
  BoxedRuntime.Proofs.Text.Numerals — what a numeral is.

  A numeral is one or more digits, with a sign or none before them. `Spells` says so and
  says which integer it is, one rule for each form; it knows nothing of how numerals are
  read or written. Leading zeros are digits like any other, so an integer has many
  numerals, but a numeral is of one integer.

  Main statements:
  - `readNat?_eq_some_iff`, `readInt?_eq_some_iff`: reading accepts the numerals and no
    other text, each as its integer.
  - `readInt64?_eq_some_iff`: a word is read from the numerals of its integer, so a numeral
    of an integer that fits no word is refused.
  - `spells_ofInt`: what is written for an integer is a numeral of it.
-/
import BoxedRuntime.Proofs.Text.Decoding
import Mathlib.Data.List.Induction

namespace BoxedRuntime.Numeral

/-! ## Grammar -/

/-- One digit or more, and the number that they stand for. -/
inductive Digits : List Char → Nat → Prop
  | one {d : Nat} : d < 10 → Digits [d.digitChar] d
  | more {cs : List Char} {n d : Nat} : Digits cs n → d < 10 → Digits (cs ++ [d.digitChar]) (10 * n + d)

/-- The text is a numeral of the integer. -/
inductive Spells : List Char → Int → Prop
  | unsigned {cs : List Char} {n : Nat} : Digits cs n → Spells cs n
  | plus {cs : List Char} {n : Nat} : Digits cs n → Spells ('+' :: cs) n
  | minus {cs : List Char} {n : Nat} : Digits cs n → Spells ('-' :: cs) (-n)

/-! ## Digits -/

theorem exists_digitChar {c : Char} (h : c.isDigit = true) : ∃ d < 10, c = d.digitChar := by
  have hc := Char.isDigit_iff_toNat.mp h
  have hlo : '0'.toNat = 48 := rfl
  have hhi : '9'.toNat = 57 := rfl
  have table : ∀ d < 10, Char.ofNat (48 + d) = d.digitChar := by decide
  refine ⟨c.toNat - 48, by omega, ?_⟩
  rw [← table _ (by omega), show 48 + (c.toNat - 48) = c.toNat by omega, Char.ofNat_toNat]

theorem ofDigitChars_snoc (cs : List Char) {d : Nat} (hd : d < 10) :
    Nat.ofDigitChars 10 (cs ++ [d.digitChar]) 0 = 10 * Nat.ofDigitChars 10 cs 0 + d := by
  rw [Nat.ofDigitChars_append, Nat.ofDigitChars_cons_digitChar_of_lt_ten hd, Nat.ofDigitChars_nil]

theorem Digits.isDigit {cs : List Char} {n : Nat} (h : Digits cs n) : ∀ c ∈ cs, c.isDigit = true := by
  induction h with
  | one hd => simpa using hd
  | more _ hd ih =>
    intro c hc
    rcases List.mem_append.mp hc with hc | hc
    · exact ih c hc
    · rw [List.mem_singleton.mp hc]
      simpa using hd

theorem Digits.ne_nil {cs : List Char} {n : Nat} (h : Digits cs n) : cs ≠ [] := by
  cases h <;> simp

theorem Digits.value {cs : List Char} {n : Nat} (h : Digits cs n) : Nat.ofDigitChars 10 cs 0 = n := by
  induction h with
  | one hd => simpa using ofDigitChars_snoc [] hd
  | more _ hd ih => rw [ofDigitChars_snoc _ hd, ih]

/-- Digits are taken from the end, since the last one is the unit of the number. -/
theorem digits_of_all {cs : List Char} (hne : cs ≠ []) (h : ∀ c ∈ cs, c.isDigit = true) :
    Digits cs (Nat.ofDigitChars 10 cs 0) := by
  induction cs using List.reverseRecOn with
  | nil => exact absurd rfl hne
  | append_singleton cs c ih =>
    obtain ⟨d, hd, rfl⟩ := exists_digitChar (h c (List.mem_append_right cs List.mem_cons_self))
    rw [ofDigitChars_snoc cs hd]
    by_cases hcs : cs = []
    · subst hcs
      simpa using Digits.one hd
    · exact .more (ih hcs fun c hc => h c (List.mem_append_left _ hc)) hd

theorem readNat?_eq_some_iff {cs : List Char} {n : Nat} : readNat? cs = some n ↔ Digits cs n := by
  unfold readNat?
  constructor
  · intro h
    split at h
    · rename_i hcs
      cases h
      exact digits_of_all hcs.1 (by simpa using hcs.2)
    · cases h
  · intro h
    rw [if_pos ⟨h.ne_nil, by simpa using h.isDigit⟩, h.value]

/-! ## Signs -/

/-- A text that begins with a sign is no row of digits. -/
theorem not_digits_cons {c : Char} {cs : List Char} {n : Nat} (hc : c.isDigit = false) : ¬ Digits (c :: cs) n := by
  intro h
  have := h.isDigit c List.mem_cons_self
  simp [hc] at this

/-- Whatever is done to the number, what was read is a row of digits. -/
theorem digits_of_read {cs : List Char} {f : Int → Int} {n : Int}
    (h : Option.map f (readNat? cs >>= fun m => pure (m : Int)) = some n) : ∃ m, Digits cs m ∧ f m = n := by
  cases hm : readNat? cs with
  | none => simp [hm] at h
  | some m => exact ⟨m, readNat?_eq_some_iff.mp hm, by simpa [hm] using h⟩

theorem readInt?_eq_some_iff {cs : List Char} {n : Int} : readInt? cs = some n ↔ Spells cs n := by
  constructor
  · intro h
    unfold readInt? at h
    split at h
    · obtain ⟨m, hm, rfl⟩ := digits_of_read h
      exact .minus hm
    · obtain ⟨m, hm, rfl⟩ := digits_of_read h
      exact .plus hm
    · obtain ⟨m, hm, rfl⟩ := digits_of_read h
      exact .unsigned hm
  · intro h
    cases h with
    | plus h => simp [readInt?, readNat?_eq_some_iff.mpr h]
    | minus h => simp [readInt?, readNat?_eq_some_iff.mpr h]
    | unsigned h =>
      unfold readInt?
      split
      · exact absurd h (not_digits_cons (by decide))
      · exact absurd h (not_digits_cons (by decide))
      · simp [readNat?_eq_some_iff.mpr h]

/-- One character alone can only be a digit. -/
theorem Spells.singleton {c : Char} {n : Int} (h : Spells [c] n) : c.isDigit = true := by
  generalize hcs : [c] = cs at h
  cases h with
  | unsigned h => exact h.isDigit c (hcs ▸ List.mem_cons_self)
  | plus h | minus h =>
    obtain rfl := (List.cons.inj hcs).2
    exact absurd rfl h.ne_nil

/-! ## Words -/

theorem readInt64?_eq_some_iff {cs : List Char} {n : Int64} : readInt64? cs = some n ↔ Spells cs n.toInt := by
  unfold readInt64?
  rw [← readInt?_eq_some_iff, Option.bind_eq_some_iff]
  constructor
  · intro ⟨m, hm, hfits⟩
    split at hfits
    · rename_i hrange
      cases hfits
      rw [Int64.toInt_minValue, Int64.toInt_maxValue] at hrange
      rw [hm, Int64.toInt_ofInt_of_le hrange.1 (by omega)]
    · cases hfits
  · intro h
    exact ⟨n.toInt, h, by rw [if_pos ⟨n.minValue_le_toInt, n.toInt_le⟩, Int64.ofInt_toInt]⟩

theorem readInt64?_eq_none_iff {cs : List Char} : readInt64? cs = none ↔ ∀ n : Int64, ¬ Spells cs n.toInt := by
  simp only [Option.eq_none_iff_forall_ne_some, ne_eq, readInt64?_eq_some_iff]

/-! ## Writing -/

theorem digits_decimal (n : Nat) : Digits (decimal n) n := by
  have h : Digits (decimal n) (Nat.ofDigitChars 10 (decimal n) 0) :=
    digits_of_all Nat.toDigits_ne_nil fun _ => isDigit_decimal
  rwa [decimal, Nat.ofDigitChars_ten_toDigits] at h

theorem spells_ofInt (n : Int) : Spells (ofInt n) n := by
  cases n with
  | ofNat n => exact .unsigned (digits_decimal n)
  | negSucc n => exact .minus (digits_decimal (n + 1))

end BoxedRuntime.Numeral
