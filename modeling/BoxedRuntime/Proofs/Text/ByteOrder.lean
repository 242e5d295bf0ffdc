/-
  BoxedRuntime.Proofs.Text.ByteOrder — texts in the order of their bytes.

  Texts compare character by character, and characters by code point. Their UTF-8 bytes
  compare alike: a longer form of encoding begins with a greater byte, and within one
  form the bits of the code point stand in the bytes from the highest to the lowest.

  Main statements:
  - `encodeChar_lt`: of two characters the smaller has the smaller bytes, whatever follows.
  - `lt_iff_utf8`: texts are ordered as their bytes are.
  - `utf8_lt_iff_codePoints`: that is the order of their code points.
-/
import Mathlib.Algebra.Group.Nat.Defs

namespace BoxedRuntime.ByteOrder

/-! ## Bytes of a character -/

/-- A first byte with a mark above the highest bits, and a number of bytes of six bits. -/
structure Form where
  width : Nat
  mark : Nat
  trailing : Nat
  deriving DecidableEq

def formOf (n : Nat) : Form :=
  if n ≤ 127 then ⟨128, 0, 0⟩
  else if n ≤ 2047 then ⟨32, 192, 1⟩
  else if n ≤ 65535 then ⟨16, 224, 2⟩
  else ⟨8, 240, 3⟩

def leadByte (width mark n : Nat) : UInt8 := UInt8.ofNat (n % width + mark)

def trailByte (n : Nat) : UInt8 := UInt8.ofNat (n % 64 + 128)

/-- The byte has the mark of those behind the first one. -/
def Trails (b : UInt8) : Prop := 128 ≤ b.toNat ∧ b.toNat < 192

theorem trailByte_toNat (n : Nat) : (trailByte n).toNat = n % 64 + 128 := by
  rw [trailByte, UInt8.toNat_ofNat']
  omega

def spell (width mark : Nat) : Nat → Nat → List UInt8
  | 0, n => [leadByte width mark n]
  | k + 1, n => spell width mark k (n / 64) ++ [trailByte n]

def Form.spell (f : Form) (n : Nat) : List UInt8 := ByteOrder.spell f.width f.mark f.trailing n

theorem encodeChar_eq (c : Char) : String.utf8EncodeChar c = (formOf c.val.toNat).spell c.val.toNat := by
  simp only [String.utf8EncodeChar, formOf]
  generalize c.val.toNat = n
  have h₂ : n / 64 / 64 = n / 4096 := Nat.div_div_eq_div_mul n 64 64
  have h₃ : n / 4096 / 64 = n / 262144 := Nat.div_div_eq_div_mul n 4096 64
  split
  · simp only [Form.spell, spell, leadByte, Nat.add_zero]
    rw [Nat.mod_eq_of_lt (by omega)]
  · split
    · rfl
    · split <;> simp only [Form.spell, spell, leadByte, trailByte, h₂, h₃, List.cons_append, List.nil_append]

theorem ofNat_lt_ofNat {m n : Nat} (h : m < n) (hn : n < 256) : UInt8.ofNat m < UInt8.ofNat n := by
  rw [UInt8.lt_iff_toNat_lt, UInt8.toNat_ofNat', UInt8.toNat_ofNat']
  omega

/-! ## The order of two encodings -/

theorem spell_eq_cons (width mark k n : Nat) : ∃ ts, spell width mark k n = leadByte width mark (n / 64 ^ k) :: ts ∧
    ts.length = k ∧ ∀ t ∈ ts, Trails t := by
  induction k generalizing n with
  | zero => exact ⟨[], by simp [spell], rfl, by simp⟩
  | succ k ih =>
    obtain ⟨ts, h, hlength, htrails⟩ := ih (n / 64)
    refine ⟨ts ++ [trailByte n], ?_, by simp [hlength], ?_⟩
    · rw [spell, h, Nat.div_div_eq_div_mul, Nat.pow_succ']
      rfl
    · intro t ht
      rcases List.mem_append.mp ht with ht | ht
      · exact htrails t ht
      · rw [List.mem_singleton.mp ht, Trails, trailByte_toNat]
        omega

/-- Within a form, the first byte that differs is the greater for the greater number. -/
theorem spell_lt {width mark k m n : Nat} (hmark : width + mark ≤ 256) (h : m < n) (hn : n < width * 64 ^ k)
    (r r' : List UInt8) : spell width mark k m ++ r < spell width mark k n ++ r' := by
  induction k generalizing m n r r' with
  | zero =>
    have hlead : leadByte width mark m < leadByte width mark n := by
      rw [Nat.pow_zero, Nat.mul_one] at hn
      rw [leadByte, leadByte, Nat.mod_eq_of_lt hn, Nat.mod_eq_of_lt (Nat.lt_trans h hn)]
      exact ofNat_lt_ofNat (by omega) (by omega)
    exact List.cons_lt_cons_iff.mpr (Or.inl hlead)
  | succ k ih =>
    simp only [spell, List.append_assoc]
    rcases Nat.lt_or_ge (m / 64) (n / 64) with hdiv | hdiv
    · refine ih hdiv ?_ _ _
      rw [Nat.pow_succ, ← Nat.mul_assoc] at hn
      exact Nat.div_lt_of_lt_mul (by rwa [Nat.mul_comm])
    · have heq : m / 64 = n / 64 := by omega
      have htrail : trailByte m < trailByte n := ofNat_lt_ofNat (by omega) (by omega)
      rw [heq]
      exact List.append_left_lt (List.cons_lt_cons_iff.mpr (Or.inl htrail))

/-- A form whose first bytes are all below those of another is below it. -/
theorem spell_lt_of_mark {width mark width' mark' : Nat} (h : width + mark ≤ mark') (hw : 0 < width)
    (hw' : 0 < width') (hmark : width' + mark' ≤ 256) (k k' m n : Nat) (r r' : List UInt8) :
    spell width mark k m ++ r < spell width' mark' k' n ++ r' := by
  obtain ⟨x, hx, -⟩ := spell_eq_cons width mark k m
  obtain ⟨y, hy, -⟩ := spell_eq_cons width' mark' k' n
  have hlead : leadByte width mark (m / 64 ^ k) < leadByte width' mark' (n / 64 ^ k') := by
    have := Nat.mod_lt (m / 64 ^ k) hw
    have := Nat.mod_lt (n / 64 ^ k') hw'
    exact ofNat_lt_ofNat (by omega) (by omega)
  rw [hx, hy]
  exact List.cons_lt_cons_iff.mpr (Or.inl hlead)

theorem formOf_bounds {n : Nat} (hn : n < 0x110000) :
    0 < (formOf n).width ∧ (formOf n).width + (formOf n).mark ≤ 256 ∧
      n < (formOf n).width * 64 ^ (formOf n).trailing := by
  unfold formOf
  repeat' split
  all_goals refine ⟨by decide, by decide, ?_⟩
  all_goals simp only [Nat.reducePow, Nat.reduceMul]
  all_goals omega

/-- A greater number has the same form or one further up. -/
theorem formOf_mono {m n : Nat} (h : m < n) :
    formOf m = formOf n ∨ (formOf m).width + (formOf m).mark ≤ (formOf n).mark := by
  unfold formOf
  repeat' split
  all_goals simp
  all_goals omega

theorem encodeChar_lt {c d : Char} (h : c < d) (r r' : List UInt8) :
    String.utf8EncodeChar c ++ r < String.utf8EncodeChar d ++ r' := by
  have hlt : c.val.toNat < d.val.toNat := h
  have hd : d.val.toNat < 0x110000 := by
    have := d.valid
    simp only [UInt32.isValidChar, Nat.isValidChar] at this
    omega
  obtain ⟨hw, -, -⟩ := formOf_bounds (Nat.lt_trans hlt hd)
  obtain ⟨hw', hmark', hn⟩ := formOf_bounds hd
  rw [encodeChar_eq, encodeChar_eq, Form.spell, Form.spell]
  rcases formOf_mono hlt with hform | hform
  · rw [hform]
    exact spell_lt hmark' hlt hn r r'
  · exact spell_lt_of_mark hform hw hw' hmark' _ _ _ _ r r'

/-! ## Texts -/

/-- The UTF-8 bytes of a text. -/
def utf8 (s : String) : List UInt8 := s.toUTF8.data.toList

theorem utf8_eq (s : String) : utf8 s = s.toList.flatMap String.utf8EncodeChar := by
  have h : s.toByteArray = s.toList.utf8Encode := by
    rw [← String.toByteArray_ofList, String.ofList_toList]
  rw [utf8, String.toUTF8_eq_toByteArray, h]
  exact List.toList_data_toByteArray

theorem encode_lt {cs ds : List Char} (h : cs < ds) :
    cs.flatMap String.utf8EncodeChar < ds.flatMap String.utf8EncodeChar := by
  induction cs generalizing ds with
  | nil =>
    cases ds with
    | nil => exact absurd h (List.lt_irrefl [])
    | cons d ds =>
      obtain ⟨rest, hd, -⟩ := spell_eq_cons (formOf d.val.toNat).width (formOf d.val.toNat).mark
        (formOf d.val.toNat).trailing d.val.toNat
      rw [List.flatMap_cons, encodeChar_eq, Form.spell, hd]
      exact List.nil_lt_cons _ _
  | cons c cs ih =>
    cases ds with
    | nil => exact absurd h (List.not_lt_nil _)
    | cons d ds =>
      rw [List.flatMap_cons, List.flatMap_cons]
      rcases List.cons_lt_cons_iff.mp h with hcd | ⟨rfl, htail⟩
      · exact encodeChar_lt hcd _ _
      · exact List.append_left_lt (ih htail)

theorem lt_iff_utf8 {s t : String} : s < t ↔ utf8 s < utf8 t := by
  have forward : ∀ {s t : String}, s < t → utf8 s < utf8 t := by
    intro s t h
    rw [utf8_eq, utf8_eq]
    exact encode_lt (show s.toList < t.toList from h)
  refine ⟨forward, fun h => Decidable.byContradiction fun hnot => ?_⟩
  rcases Decidable.em (t < s) with hts | hts
  · exact List.lt_asymm h (forward hts)
  · rw [String.le_antisymm (String.not_lt.mp hts) (String.not_lt.mp hnot)] at h
    exact List.lt_irrefl _ h

theorem compare_eq_lt_iff {s t : String} : compare s t = .lt ↔ utf8 s < utf8 t := by
  rw [← lt_iff_utf8]
  exact compareOfLessAndEq_eq_lt

/-- The code points of a text. -/
def codePoints (s : String) : List Nat := s.toList.map Char.toNat

theorem map_toNat_lt_iff {cs ds : List Char} : cs.map Char.toNat < ds.map Char.toNat ↔ cs < ds := by
  induction cs generalizing ds with
  | nil => cases ds <;> simp
  | cons c cs ih =>
    cases ds with
    | nil => simp
    | cons d ds =>
      rw [List.map_cons, List.map_cons, List.cons_lt_cons_iff, List.cons_lt_cons_iff, ih, Char.toNat_inj]
      rfl

theorem utf8_lt_iff_codePoints {s t : String} : utf8 s < utf8 t ↔ codePoints s < codePoints t :=
  lt_iff_utf8.symm.trans (show s.toList < t.toList ↔ codePoints s < codePoints t from map_toNat_lt_iff.symm)

end BoxedRuntime.ByteOrder
