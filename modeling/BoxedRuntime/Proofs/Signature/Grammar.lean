/-
  BoxedRuntime.Proofs.Signature.Grammar — well-formed descriptors.

  A descriptor names type classes, one or several: an opening bracket, the classes with a
  comma between any two, a closing bracket. A class is some ASCII letters, with one `^`
  before them or none. `join` writes the descriptor of given classes.

  The check never reads a descriptor from left to right. It takes off the first and the
  last character, cuts what is left at every comma and looks at each piece alone. Since
  no class has a comma in it, cutting undoes joining, and the pieces are the classes.

  Main statements:
  - `splitCommas_eq_splitOn`: the pieces are those of the library's cut.
  - `isClass_iff`: a piece passes if it is a class as it is written.
  - `wellFormed_iff_pieces`: the check as a statement about brackets and pieces.
  - `join_inj`: a descriptor tells its classes.
  - `wellFormed_iff_join`: the check accepts what `join` writes and nothing else, and the
    classes are unique.
-/
import BoxedRuntime.Signature
import Mathlib.Data.List.Basic
import Mathlib.Data.Set.List

namespace BoxedRuntime

/-! ## Classes and descriptors -/

structure TypeClass where
  /-- A `^` stands before the letters. -/
  marked : Bool
  letters : List Char
  nonempty : letters ≠ []
  ascii : ∀ c ∈ letters, 'A' ≤ c ∧ c ≤ 'Z' ∨ 'a' ≤ c ∧ c ≤ 'z'

namespace TypeClass

def chars (t : TypeClass) : List Char := if t.marked then '^' :: t.letters else t.letters

def text (t : TypeClass) : String := String.ofList t.chars

end TypeClass

namespace Signature

/-- The descriptor of these classes. -/
def join (classes : List TypeClass) : Signature := ⟨"[" ++ ",".intercalate (classes.map TypeClass.text) ++ "]"⟩

end Signature

/-! ## One class -/

namespace TypeClass

theorem isAlpha_iff {c : Char} : c.isAlpha = true ↔ 'A' ≤ c ∧ c ≤ 'Z' ∨ 'a' ≤ c ∧ c ≤ 'z' := by
  show (decide ('A' ≤ c ∧ c ≤ 'Z') || decide ('a' ≤ c) && decide (c ≤ 'z')) = true ↔ _
  simp only [Bool.or_eq_true, Bool.and_eq_true, decide_eq_true_iff]

theorem not_letter {c : Char} (hc : c = '^' ∨ c = ',') {t : TypeClass} : c ∉ t.letters := by
  intro h
  have hletter := t.ascii c h
  rcases hc with rfl | rfl <;> revert hletter <;> decide

theorem comma_not_mem (t : TypeClass) : ',' ∉ t.chars := by
  have h : ',' ∉ t.letters := not_letter (.inr rfl)
  unfold chars
  split
  · simpa using h
  · exact h

/-- Letters do not begin with `^`, so the text tells whether the class is marked. -/
theorem chars_injective : Function.Injective chars := by
  have apart : ∀ {t u : TypeClass}, t.letters ≠ '^' :: u.letters := fun {t u} h =>
    not_letter (.inl rfl) (t := t) (h ▸ List.mem_cons_self)
  rintro ⟨m, cs, hcs, hm⟩ ⟨n, ds, hds, hn⟩ h
  cases m <;> cases n <;> simp only [chars, if_true, if_false, Bool.false_eq_true] at h
  · cases h; rfl
  · exact absurd h (apart (t := ⟨false, cs, hcs, hm⟩) (u := ⟨true, ds, hds, hn⟩))
  · exact absurd h.symm (apart (t := ⟨false, ds, hds, hn⟩) (u := ⟨true, cs, hcs, hm⟩))
  · cases h; rfl

end TypeClass

namespace Signature

theorem isClass_iff {cs : List Char} : isClass cs = true ↔ ∃ t : TypeClass, t.chars = cs := by
  have letters : ∀ {ds : List Char}, (!ds.isEmpty && ds.all Char.isAlpha) = true ↔
      ds ≠ [] ∧ ∀ c ∈ ds, 'A' ≤ c ∧ c ≤ 'Z' ∨ 'a' ≤ c ∧ c ≤ 'z' := by
    simp [TypeClass.isAlpha_iff]
  constructor
  · intro h
    unfold isClass at h
    split at h
    · obtain ⟨hne, hascii⟩ := letters.mp h
      exact ⟨⟨true, _, hne, hascii⟩, rfl⟩
    · obtain ⟨hne, hascii⟩ := letters.mp h
      exact ⟨⟨false, _, hne, hascii⟩, rfl⟩
  · rintro ⟨⟨marked, ds, hne, hascii⟩, rfl⟩
    have hds := letters.mpr ⟨hne, hascii⟩
    cases marked with
    | true => exact hds
    | false =>
      -- Unmarked letters reach the second line of `isClass` because none of them is a `^`.
      show isClass ds = true
      unfold isClass
      split
      · exact absurd List.mem_cons_self (TypeClass.not_letter (.inl rfl) (t := ⟨false, _, hne, hascii⟩))
      · exact hds

/-! ## Pieces between commas -/

theorem splitCommas_eq_splitOn (cs : List Char) : splitCommas cs = cs.splitOn ',' := by
  fun_induction splitCommas cs with
  | case1 => rfl
  | case2 cs ih => simp [List.splitOn, List.splitOnP_cons_eq_if_modifyHead, ih]
  | case3 c cs hc hnil ih => exact absurd (ih.symm.trans hnil) (List.splitOnP_ne_nil _ _)
  | case4 c cs hc piece pieces hcons ih =>
    have hne : c ≠ ',' := fun h => hc h
    rw [List.splitOn, List.splitOnP_cons_eq_if_modifyHead, if_neg (by simpa using hne), ← List.splitOn, ← ih, hcons]
    rfl

/-- Taken apart at the commas, joined classes are the classes again. -/
theorem splitCommas_intercalate {classes : List TypeClass} (h : classes ≠ []) :
    splitCommas ([','].intercalate (classes.map TypeClass.chars)) = classes.map TypeClass.chars := by
  rw [splitCommas_eq_splitOn]
  refine List.splitOn_intercalate ',' (fun cs hcs => ?_) (by simpa using h)
  obtain ⟨t, -, rfl⟩ := List.mem_map.mp hcs
  exact t.comma_not_mem

theorem wellFormed_iff_pieces {s : Signature} : s.wellFormed = true ↔
    ∃ inner, s.text.toList = '[' :: (inner ++ [']']) ∧ ∀ piece ∈ splitCommas inner, isClass piece = true := by
  constructor
  · intro h
    unfold wellFormed at h
    split at h
    · rename_i cs hcs
      split at h
      · rename_i inner hinner
        refine ⟨inner.reverse, ?_, List.all_eq_true.mp h⟩
        rw [hcs, ← List.reverse_cons, ← hinner, List.reverse_reverse]
      · cases h
    · cases h
  · rintro ⟨inner, htext, hpieces⟩
    simp only [wellFormed, htext, List.reverse_append, List.reverse_cons, List.reverse_nil, List.nil_append,
      List.cons_append, List.reverse_reverse]
    exact List.all_eq_true.mpr hpieces

/-! ## Descriptors of classes -/

theorem toList_join (classes : List TypeClass) :
    (join classes).text.toList = '[' :: ([','].intercalate (classes.map TypeClass.chars) ++ [']']) := by
  have hmap : (classes.map TypeClass.text).map String.toList = classes.map TypeClass.chars := by
    simp [TypeClass.text, Function.comp_def]
  simp [join, String.toList_append, String.toList_intercalate, hmap]

theorem join_inj {classes classes' : List TypeClass} (h : classes ≠ []) (h' : classes' ≠ [])
    (hjoin : join classes = join classes') : classes = classes' := by
  have htext := congrArg (fun s => s.text.toList) hjoin
  simp only [toList_join] at htext
  have hinner := List.append_cancel_right (List.cons.inj htext).2
  have hpieces := congrArg splitCommas hinner
  rw [splitCommas_intercalate h, splitCommas_intercalate h'] at hpieces
  exact List.map_injective_iff.mpr TypeClass.chars_injective hpieces

theorem wellFormed_join {classes : List TypeClass} (h : classes ≠ []) : (join classes).wellFormed = true := by
  refine wellFormed_iff_pieces.mpr ⟨_, toList_join classes, fun piece hpiece => ?_⟩
  rw [splitCommas_intercalate h] at hpiece
  obtain ⟨t, -, rfl⟩ := List.mem_map.mp hpiece
  exact isClass_iff.mpr ⟨t, rfl⟩

theorem exists_join {s : Signature} (h : s.wellFormed = true) : ∃ classes, classes ≠ [] ∧ join classes = s := by
  obtain ⟨inner, htext, hpieces⟩ := wellFormed_iff_pieces.mp h
  obtain ⟨classes, hclasses⟩ : splitCommas inner ∈ Set.range (List.map TypeClass.chars) := by
    rw [Set.range_list_map]
    exact fun piece hpiece => isClass_iff.mp (hpieces piece hpiece)
  refine ⟨classes, ?_, ?_⟩
  · rintro rfl
    rw [splitCommas_eq_splitOn] at hclasses
    exact List.splitOnP_ne_nil _ _ hclasses.symm
  · have hinner : [','].intercalate (classes.map TypeClass.chars) = inner := by
      rw [hclasses, splitCommas_eq_splitOn, List.intercalate_splitOn]
    have hlist : (join classes).text.toList = s.text.toList := by rw [toList_join, hinner, htext]
    exact congrArg Signature.mk (String.toList_inj.mp hlist)

/-- Without a class there is nothing between the brackets, and that is no class. -/
theorem not_wellFormed_join_nil : (join []).wellFormed = false := by decide

theorem wellFormed_iff_join (s : Signature) :
    (s.wellFormed = true ↔ ∃ classes, classes ≠ [] ∧ join classes = s) ∧
      (s.wellFormed = true → ∃! classes, join classes = s) := by
  constructor
  · constructor
    · exact exists_join
    · rintro ⟨classes, hne, rfl⟩
      exact wellFormed_join hne
  · intro h
    obtain ⟨classes, hne, rfl⟩ := exists_join h
    refine ⟨classes, rfl, fun classes' hjoin => ?_⟩
    refine join_inj ?_ hne hjoin
    rintro rfl
    rw [← hjoin, not_wellFormed_join_nil] at h
    cases h

/-- A second mark, an empty class between commas, and letters outside ASCII. -/
example : ["[^^d]", "[^d,,i]", "[^é,v]"].map (fun text => wellFormed ⟨text⟩) = [false, false, false] := by decide

end Signature
end BoxedRuntime
