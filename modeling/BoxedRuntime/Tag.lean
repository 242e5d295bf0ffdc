/-
  BoxedRuntime.Tag — the closed set of type tags.

  A tag names the kind of a payload. Compiled code stores its raw value, so the raw
  values are fixed: a tag's place in `Tag.all`. Reading a raw value or a name back is
  partial, since both come from outside.

  Main statements: `ofRaw?_raw` and `ofName?_name`, reading inverts writing, and
  `ofRaw?_eq_some_iff`, `ofName?_eq_some_iff`, nothing else is read.
-/

namespace BoxedRuntime

inductive Tag where
  | null
  | bool
  | byte
  | char
  | int
  | real
  | string
  | list
  | record
  deriving DecidableEq, Repr

namespace Tag

/-- Every tag, in the order of the raw values. -/
def all : List Tag := [null, bool, byte, char, int, real, string, list, record]

def raw : Tag → UInt32
  | null => 0
  | bool => 1
  | byte => 2
  | char => 3
  | int => 4
  | real => 5
  | string => 6
  | list => 7
  | record => 8

def name : Tag → String
  | null => "null"
  | bool => "bool"
  | byte => "byte"
  | char => "char"
  | int => "int"
  | real => "real"
  | string => "string"
  | list => "list"
  | record => "record"

def ofRaw? (n : UInt32) : Option Tag := all[n.toNat]?

def ofName? (s : String) : Option Tag := all.find? (·.name = s)

/-- The payload of such a tag is a single machine word. -/
def isScalar : Tag → Bool
  | null | bool | byte | char | int => true
  | real | string | list | record => false

/-! ## Reading inverts writing -/

theorem mem_all (t : Tag) : t ∈ all := by cases t <;> decide

theorem ofRaw?_raw (t : Tag) : ofRaw? t.raw = some t := by cases t <;> rfl

theorem ofRaw?_eq_some_iff {n : UInt32} {t : Tag} : ofRaw? n = some t ↔ n = t.raw := by
  refine ⟨fun h => ?_, fun h => h ▸ ofRaw?_raw t⟩
  obtain ⟨i, rfl⟩ : ∃ i : Fin 9, n = UInt32.ofNat i := by
    have hn : n.toNat < 9 := (List.getElem?_eq_some_iff.mp h).1
    exact ⟨⟨n.toNat, hn⟩, by simp⟩
  revert h
  revert i
  cases t <;> decide

theorem name_inj {s t : Tag} (h : s.name = t.name) : s = t := by
  revert h
  cases s <;> cases t <;> decide

theorem name_of_ofName? {s : String} {t : Tag} (h : ofName? s = some t) : t.name = s := by
  unfold ofName? at h
  simpa using List.find?_some h

theorem ofName?_eq_some_iff {s : String} {t : Tag} : ofName? s = some t ↔ s = t.name := by
  refine ⟨fun h => (name_of_ofName? h).symm, ?_⟩
  rintro rfl
  cases h : ofName? t.name with
  | none => exact absurd (List.find?_eq_none.mp h t (mem_all t)) (by simp)
  | some u => rw [name_inj (name_of_ofName? h)]

theorem ofName?_name (t : Tag) : ofName? t.name = some t := ofName?_eq_some_iff.mpr rfl

end Tag
end BoxedRuntime
