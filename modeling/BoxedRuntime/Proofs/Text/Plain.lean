/-
  BoxedRuntime.Proofs.Text.Plain — text of printable ASCII.

  Plain text is made of the characters from the space to the tilde, so it stands on one
  line and says nothing to a terminal. Numerals are plain in every base, reals are in
  every notation, and escaping makes plain text of any text.

  Main statements:
  - `Numeral.plain_ofInt64`, `Numeral.plain_byteDigits`: integers and bytes.
  - `Binary64.plain_text`: reals, the infinities and NaN.
  - `Escape.plain_char`, `Escape.plain_text`: whatever the text was.
-/
import BoxedRuntime.Binary64.Text
import BoxedRuntime.Proofs.Text.Decoding

namespace BoxedRuntime

/-- A printable ASCII character: from the space to the tilde. -/
def PlainChar (c : Char) : Prop := 0x20 ≤ c.toNat ∧ c.toNat ≤ 0x7e

instance (c : Char) : Decidable (PlainChar c) := inferInstanceAs (Decidable (_ ∧ _))

def PlainText (cs : List Char) : Prop := ∀ c ∈ cs, PlainChar c

instance (cs : List Char) : Decidable (PlainText cs) := List.decidableBAll PlainChar cs

namespace PlainText

variable {cs ds : List Char} {c : Char}

@[simp] theorem nil : PlainText [] := nofun

@[simp] theorem cons_iff : PlainText (c :: cs) ↔ PlainChar c ∧ PlainText cs := List.forall_mem_cons

@[simp] theorem append_iff : PlainText (cs ++ ds) ↔ PlainText cs ∧ PlainText ds := List.forall_mem_append

theorem subset (h : PlainText cs) (hds : ds ⊆ cs) : PlainText ds := fun c hc => h c (hds hc)

theorem replicate (n : Nat) (h : PlainChar c) : PlainText (List.replicate n c) := fun d hd => by
  rw [List.eq_of_mem_replicate hd]
  exact h

theorem flatMap {α : Type} {f : α → List Char} {xs : List α} (h : ∀ x ∈ xs, PlainText (f x)) :
    PlainText (xs.flatMap f) := fun c hc => by
  obtain ⟨x, hx, hc⟩ := List.mem_flatMap.mp hc
  exact h x hx c hc

theorem between {a b : Char} (ha : PlainChar a) (hcs : PlainText cs) (hb : PlainChar b) :
    PlainText (a :: (cs ++ [b])) :=
  cons_iff.mpr ⟨ha, append_iff.mpr ⟨hcs, cons_iff.mpr ⟨hb, .nil⟩⟩⟩

/-- A line break is not plain. -/
theorem newline_not_mem (h : PlainText cs) : '\n' ∉ cs := fun hn => absurd (h '\n' hn) (by decide)

end PlainText

/-! ## Numerals -/

theorem PlainChar.of_isDigit {c : Char} (h : c.isDigit = true) : PlainChar c := by
  simp only [Char.isDigit, Bool.and_eq_true, decide_eq_true_eq, ge_iff_le, UInt32.le_iff_toNat_le] at h
  have hzero : '0'.val.toNat = 48 := rfl
  have hnine : '9'.val.toNat = 57 := rfl
  have hc : c.toNat = c.val.toNat := rfl
  unfold PlainChar
  omega

namespace Numeral

theorem plain_decimal (n : Nat) : PlainText (decimal n) := fun _ hc => .of_isDigit (isDigit_decimal hc)

theorem plain_ofInt (n : Int) : PlainText (ofInt n) := by
  cases n with
  | ofNat n => exact plain_decimal n
  | negSucc n => exact PlainText.cons_iff.mpr ⟨by decide, plain_decimal (n + 1)⟩

theorem plain_ofInt64 (n : Int64) : PlainText (ofInt64 n) := plain_ofInt n.toInt

theorem plain_byteDigits (b : UInt8) : PlainText (byteDigits b) := fun _ hc => .of_isDigit (isDigit_byteDigits hc)

theorem plain_hex (n : Nat) : PlainText (hex n) := by
  have digit : ∀ d < 16, PlainChar d.digitChar := by decide
  intro c hc
  obtain ⟨d, hd, rfl⟩ := mem_hex c hc
  exact digit d hd

end Numeral

/-! ## Reals -/

namespace Binary64

theorem plain_writePositional {ds : List Char} (h : PlainText ds) (exponent : Int) :
    PlainText (writePositional ds exponent) := by
  have hzeros : ∀ n, PlainText (List.replicate n '0') := fun n => .replicate n (by decide)
  have htake : PlainText (ds.take (exponent.toNat + 1)) := h.subset (List.take_subset _ _)
  have hdrop : PlainText (ds.drop (exponent.toNat + 1)) := h.subset (List.drop_subset _ _)
  unfold writePositional
  split
  · exact PlainText.append_iff.mpr ⟨PlainText.append_iff.mpr ⟨by decide, hzeros _⟩, h⟩
  · refine PlainText.append_iff.mpr ⟨PlainText.append_iff.mpr ⟨htake, hzeros _⟩, ?_⟩
    refine PlainText.cons_iff.mpr ⟨by decide, ?_⟩
    split
    · decide
    · exact hdrop

theorem plain_writeScientific {ds : List Char} (h : PlainText ds) (exponent : Int) :
    PlainText (writeScientific ds exponent) := by
  have htake : PlainText (ds.take 1) := h.subset (List.take_subset _ _)
  have hdrop : PlainText (ds.drop 1) := h.subset (List.drop_subset _ _)
  have hexponent : PlainText ('e' :: Numeral.ofInt exponent) :=
    PlainText.cons_iff.mpr ⟨by decide, Numeral.plain_ofInt exponent⟩
  unfold writeScientific
  refine PlainText.append_iff.mpr ⟨PlainText.append_iff.mpr ⟨htake, ?_⟩, hexponent⟩
  split
  · exact .nil
  · exact PlainText.cons_iff.mpr ⟨by decide, hdrop⟩

theorem plain_writeDecimal (d : Decimal) : PlainText (writeDecimal d) := by
  have hdigits : PlainText ((Numeral.decimal d.digits).reverse.dropWhile (· = '0')).reverse := by
    refine (Numeral.plain_decimal d.digits).subset fun c hc => ?_
    exact List.mem_reverse.mp ((List.dropWhile_sublist _).subset (List.mem_reverse.mp hc))
  unfold writeDecimal
  dsimp only
  split
  · exact plain_writePositional hdigits _
  · exact plain_writeScientific hdigits _

theorem plain_text (x : Binary64) : PlainText x.text := by
  have hmagnitude : PlainText (writeMagnitude x.magnitude) := by
    unfold writeMagnitude
    split
    · decide
    · split
      · decide
      · exact plain_writeDecimal _
  unfold text
  split
  · decide
  · refine PlainText.append_iff.mpr ⟨?_, hmagnitude⟩
    split
    · decide
    · exact .nil

end Binary64

/-! ## Escaped text -/

namespace Escape

theorem plain_codePoint (c : Char) : PlainText (codePoint c) :=
  PlainText.append_iff.mpr ⟨PlainText.append_iff.mpr ⟨by decide, Numeral.plain_hex c.toNat⟩, by decide⟩

theorem plain_char (c : Char) : PlainText (char c) := by
  unfold char
  split
  · decide
  split
  · decide
  split
  · decide
  split
  · rename_i h
    rcases h with rfl | rfl | rfl <;> decide
  split
  · rename_i h
    exact PlainText.cons_iff.mpr ⟨h, .nil⟩
  · exact plain_codePoint c

theorem plain_text (cs : List Char) : PlainText (text cs) := .flatMap fun c _ => plain_char c

end Escape
end BoxedRuntime
