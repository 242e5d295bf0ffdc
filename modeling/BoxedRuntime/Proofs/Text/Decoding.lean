/-
  BoxedRuntime.Proofs.Text.Decoding — reading numerals and escapes back.

  What is written is read back from the front of a longer text: a numeral if no digit
  follows it, an escaped character whatever follows it, a quoted text up to the first
  quote that is not escaped.

  Main statements:
  - `Numeral.ofInt_append_inj`: a decimal numeral determines its integer and where it ends.
  - `Numeral.ofHex_hex`: reading inverts hexadecimal writing.
  - `Escape.read?_char`: reading inverts the escaping of one character.
  - `Escape.text_append_inj`: an escaped text determines the text, up to its quote.
-/
import BoxedRuntime.Text.Escape

namespace BoxedRuntime

/-! ## The longest part of one class -/

section Span

variable {α : Type} {p : α → Bool} {xs ys r r' : List α}

theorem takeWhile_append_stop (hxs : ∀ a ∈ xs, p a = true) (hr : ∀ a ∈ r.head?, p a = false) :
    (xs ++ r).takeWhile p = xs := by
  rw [List.takeWhile_append_of_pos hxs]
  cases r with
  | nil => simp
  | cons a r => simp [hr a rfl]

theorem dropWhile_append_stop (hxs : ∀ a ∈ xs, p a = true) (hr : ∀ a ∈ r.head?, p a = false) :
    (xs ++ r).dropWhile p = r := by
  rw [List.dropWhile_append_of_pos hxs]
  cases r with
  | nil => rfl
  | cons a r => simp [hr a rfl]

theorem span_unique (hxs : ∀ a ∈ xs, p a = true) (hys : ∀ a ∈ ys, p a = true) (hr : ∀ a ∈ r.head?, p a = false)
    (hr' : ∀ a ∈ r'.head?, p a = false) (h : xs ++ r = ys ++ r') : xs = ys ∧ r = r' := by
  constructor
  · rw [← takeWhile_append_stop hxs hr, h, takeWhile_append_stop hys hr']
  · rw [← dropWhile_append_stop hxs hr, h, dropWhile_append_stop hys hr']

end Span

namespace Numeral

/-! ## Decimal and binary numerals -/

theorem isDigit_decimal {n : Nat} {c : Char} (h : c ∈ decimal n) : c.isDigit = true :=
  Nat.isDigit_of_mem_toDigits (by decide) (by decide) h

theorem decimal_inj {m n : Nat} (h : decimal m = decimal n) : m = n := by
  have := congrArg (Nat.ofDigitChars 10 · 0) h
  simpa [decimal] using this

theorem decimal_cons (n : Nat) : ∃ c cs, decimal n = c :: cs ∧ c.isDigit = true := by
  cases h : decimal n with
  | nil => exact absurd h Nat.toDigits_ne_nil
  | cons c cs => exact ⟨c, cs, rfl, isDigit_decimal (h ▸ List.mem_cons_self)⟩

/-- No digit comes next. -/
def NoDigit (r : List Char) : Prop := ∀ c ∈ r.head?, c.isDigit = false

theorem ofInt_append_inj {m n : Int} {r r' : List Char} (hr : NoDigit r) (hr' : NoDigit r')
    (h : ofInt m ++ r = ofInt n ++ r') : m = n ∧ r = r' := by
  have digits : ∀ {a b : Nat}, decimal a ++ r = decimal b ++ r' → a = b ∧ r = r' := by
    intro a b hab
    obtain ⟨hd, ht⟩ := span_unique (fun _ => isDigit_decimal) (fun _ => isDigit_decimal) hr hr' hab
    exact ⟨decimal_inj hd, ht⟩
  -- The sign tells a negative numeral from one that begins with a digit.
  have sign : ∀ {a b : Nat} {s t : List Char}, decimal a ++ s ≠ '-' :: (decimal b ++ t) := by
    intro a b s t he
    obtain ⟨c, cs, hc, hd⟩ := decimal_cons a
    rw [hc, List.cons_append] at he
    obtain rfl := (List.cons.inj he).1
    exact absurd hd (by decide)
  cases m with
  | ofNat a =>
    cases n with
    | ofNat b =>
      obtain ⟨rfl, ht⟩ := digits h
      exact ⟨rfl, ht⟩
    | negSucc b => exact absurd h sign
  | negSucc a =>
    cases n with
    | ofNat b => exact absurd h.symm sign
    | negSucc b =>
      obtain ⟨hab, ht⟩ := digits (List.cons.inj h).2
      obtain rfl : a = b := by omega
      exact ⟨rfl, ht⟩

/-- The eight binary digits of a byte. -/
def byteDigits (b : UInt8) : List Char := padLeft 8 '0' (binary b.toNat)

theorem isDigit_byteDigits {b : UInt8} {c : Char} (h : c ∈ byteDigits b) : c.isDigit = true := by
  rcases List.mem_append.mp h with h | h
  · rw [List.eq_of_mem_replicate h]
    rfl
  · exact Nat.isDigit_of_mem_toDigits (by decide) (by decide) h

theorem byteDigits_inj {a b : UInt8} (h : byteDigits a = byteDigits b) : a = b := by
  have value : ∀ c : UInt8, Nat.ofDigitChars 2 (byteDigits c) 0 = c.toNat := by
    intro c
    rw [byteDigits, padLeft, Nat.ofDigitChars_append, Nat.ofDigitChars_replicate_zero, Nat.mul_zero]
    exact Nat.ofDigitChars_toDigits (by decide) (by decide)
  exact UInt8.toNat_inj.mp (by rw [← value a, h, value b])

/-! ## Hexadecimal numerals -/

def hexValue (c : Char) : Nat := if c.isDigit then c.toNat - '0'.toNat else c.toNat - 'a'.toNat + 10

/-- The number of a hexadecimal numeral. -/
def ofHex (cs : List Char) : Nat := cs.foldl (fun n c => 16 * n + hexValue c) 0

theorem hexValue_digitChar : ∀ d < 16, hexValue d.digitChar = d := by decide

theorem ofHex_hex (n : Nat) : ofHex (hex n) = n := by
  induction n using Nat.base_induction 16 (by decide) with
  | single d hd =>
    rw [hex, Nat.toDigits_of_lt_base hd]
    exact (Nat.zero_add _).trans (hexValue_digitChar d hd)
  | digit m d hd hm ih =>
    have hdig : hex (16 * m + d) = hex m ++ [d.digitChar] := by
      rw [hex, hex, ← Nat.toDigits_append_toDigits (by decide) hm hd, Nat.toDigits_of_lt_base hd]
    rw [hdig, ofHex, List.foldl_append]
    show 16 * ofHex (hex m) + hexValue d.digitChar = _
    rw [ih, hexValue_digitChar d hd]

/-- The digits of a hexadecimal numeral. -/
theorem mem_hex {n : Nat} : ∀ c ∈ hex n, ∃ d < 16, c = d.digitChar := by
  induction n using Nat.base_induction 16 (by decide) with
  | single d hd =>
    rw [hex, Nat.toDigits_of_lt_base hd]
    intro c hc
    exact ⟨d, hd, List.mem_singleton.mp hc⟩
  | digit m d hd hm ih =>
    rw [hex, ← Nat.toDigits_append_toDigits (by decide) hm hd, Nat.toDigits_of_lt_base hd]
    intro c hc
    rcases List.mem_append.mp hc with hc | hc
    · exact ih c hc
    · exact ⟨d, hd, List.mem_singleton.mp hc⟩

theorem hex_ne_brace {n : Nat} : ∀ c ∈ hex n, c ≠ '\x7d' := by
  have digit : ∀ d < 16, d.digitChar ≠ '\x7d' := by decide
  intro c hc
  obtain ⟨d, hd, rfl⟩ := mem_hex c hc
  exact digit d hd

end Numeral

namespace Escape

/-! ## Escaped text -/

/-- One character in its escaped form, and what is left of the text. -/
def read? : List Char → Option (Char × List Char)
  | '\\' :: 't' :: r => some ('\t', r)
  | '\\' :: 'n' :: r => some ('\n', r)
  | '\\' :: 'r' :: r => some ('\r', r)
  | '\\' :: 'u' :: '\x7b' :: r =>
    match r.dropWhile (· ≠ '\x7d') with
    | [] => none
    | _ :: rest => some (Char.ofNat (Numeral.ofHex (r.takeWhile (· ≠ '\x7d'))), rest)
  | '\\' :: c :: r => some (c, r)
  | ['\\'] => none
  | c :: r => some (c, r)
  | [] => none

theorem read?_codePoint (c : Char) (r : List Char) : read? (codePoint c ++ r) = some (c, r) := by
  have hstop : ∀ a ∈ ('\x7d' :: r).head?, decide (a ≠ '\x7d') = false := by simp
  have hhex : ∀ a ∈ Numeral.hex c.toNat, decide (a ≠ '\x7d') = true := by
    simpa using Numeral.hex_ne_brace (n := c.toNat)
  show read? ('\\' :: 'u' :: '\x7b' :: (Numeral.hex c.toNat ++ ['\x7d'] ++ r)) = _
  rw [List.append_assoc, List.singleton_append]
  simp only [read?, dropWhile_append_stop hhex hstop, takeWhile_append_stop hhex hstop, Numeral.ofHex_hex,
    Char.ofNat_toNat]

theorem read?_char (c : Char) (r : List Char) : read? (char c ++ r) = some (c, r) := by
  unfold char
  split
  · subst c; rfl
  split
  · subst c; rfl
  split
  · subst c; rfl
  split
  · rename_i h
    rcases h with rfl | rfl | rfl <;> rfl
  split
  · rename_i h _
    have hc : c ≠ '\\' := fun hc => h (Or.inr (Or.inr hc))
    simp [read?, hc]
  · exact read?_codePoint c r

theorem char_append_inj {c d : Char} {r r' : List Char} (h : char c ++ r = char d ++ r') : c = d ∧ r = r' := by
  have := (read?_char c r).symm.trans (h ▸ read?_char d r')
  simpa using this

/-- No quote opens an escaped character: the two quotes are written behind a backslash. -/
theorem char_ne_quote {q c : Char} (hq : q = '\'' ∨ q = '"') (r t : List Char) : char c ++ r ≠ q :: t := by
  intro h
  have hc : c ≠ '\'' ∧ c ≠ '"' ∨ char c = ['\\', c] := by
    by_cases hc : c = '\'' ∨ c = '"'
    · right
      rcases hc with rfl | rfl <;> rfl
    · left
      exact not_or.mp hc
  rcases hc with ⟨h₁, h₂⟩ | hc
  · have hr : read? (q :: t) = some (q, t) := by rcases hq with rfl | rfl <;> rfl
    rw [← h, read?_char] at hr
    obtain rfl : c = q := by simpa using congrArg (Option.map Prod.fst) hr
    rcases hq with rfl | rfl
    · exact h₁ rfl
    · exact h₂ rfl
  · rw [hc] at h
    obtain rfl := (List.cons.inj h).1
    rcases hq with hq | hq <;> exact absurd hq (by decide)

theorem text_append_inj {q : Char} {cs ds r r' : List Char} (hq : q = '\'' ∨ q = '"')
    (h : text cs ++ q :: r = text ds ++ q :: r') : cs = ds ∧ r = r' := by
  induction cs generalizing ds with
  | nil =>
    cases ds with
    | nil => exact ⟨rfl, (List.cons.inj h).2⟩
    | cons d ds =>
      rw [text, text, List.flatMap_cons, List.append_assoc] at h
      exact absurd h.symm (char_ne_quote hq _ _)
  | cons c cs ih =>
    rw [text, List.flatMap_cons, List.append_assoc] at h
    cases ds with
    | nil => exact absurd h (char_ne_quote hq _ _)
    | cons d ds =>
      rw [text, List.flatMap_cons, List.append_assoc] at h
      obtain ⟨rfl, htail⟩ := char_append_inj h
      obtain ⟨rfl, hr⟩ := ih htail
      exact ⟨rfl, hr⟩

end Escape

end BoxedRuntime
