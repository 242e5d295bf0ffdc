/-
  BoxedRuntime.OrderedMap — finite maps as association lists in increasing key order.

  The order of the list is the order in which the map is read out, so it needs no sort
  of its own. `insert` keeps the order and replaces the value of a key that is there.

  Main statements: `find?_insert`, the last insertion wins and other keys are untouched;
  `increasing_insert`, the keys stay strictly increasing; `find?_eq_some_iff`, in such a
  list a look-up finds exactly the pairs of the list; `ofList_map`, what is done to all
  values may be done before or after.
-/

namespace BoxedRuntime.OrderedMap

variable {K : Type} {V : Type} [Ord K]

def insert (k : K) (v : V) : List (K × V) → List (K × V)
  | [] => [(k, v)]
  | (l, w) :: r =>
    match compare k l with
    | .lt => (k, v) :: (l, w) :: r
    | .eq => (k, v) :: r
    | .gt => (l, w) :: insert k v r

def find? (k : K) : List (K × V) → Option V
  | [] => none
  | (l, v) :: r => if compare k l = .eq then some v else find? k r

/-- One insertion per pair, from left to right: the last pair of a key wins. -/
def ofList (pairs : List (K × V)) : List (K × V) := pairs.foldl (fun m p => insert p.1 p.2 m) []

/-- Strictly increasing keys, so no key stands twice. -/
def Increasing (m : List (K × V)) : Prop := m.Pairwise fun p q => compare p.1 q.1 = .lt

/-! ## Looking up after an insertion -/

theorem find?_insert_self [Std.ReflOrd K] (k : K) (v : V) (m : List (K × V)) : find? k (insert k v m) = some v := by
  induction m with
  | nil => simp [insert, find?]
  | cons p r ih =>
    obtain ⟨l, w⟩ := p
    cases h : compare k l <;> simp [insert, find?, h, ih]

theorem find?_insert_of_ne [Std.TransOrd K] {k k' : K} (hne : compare k' k ≠ .eq) (v : V) (m : List (K × V)) :
    find? k' (insert k v m) = find? k' m := by
  induction m with
  | nil => simp [insert, find?, hne]
  | cons p r ih =>
    obtain ⟨l, w⟩ := p
    cases h : compare k l with
    | lt => simp [insert, find?, h, hne]
    | gt => simp [insert, find?, h, ih]
    | eq =>
      have : compare k' l ≠ .eq := fun h' => hne (Std.TransCmp.eq_trans h' (Std.OrientedCmp.eq_symm h))
      simp [insert, find?, h, hne, this]

theorem find?_insert [Std.TransOrd K] (k k' : K) (v : V) (m : List (K × V)) :
    find? k' (insert k v m) = if compare k' k = .eq then some v else find? k' m := by
  split
  · rename_i h
    have same : ∀ n : List (K × V), find? k' n = find? k n := fun n => by
      induction n with
      | nil => rfl
      | cons p r ih =>
        have : compare k' p.1 = .eq ↔ compare k p.1 = .eq :=
          ⟨Std.TransCmp.eq_trans (Std.OrientedCmp.eq_symm h), Std.TransCmp.eq_trans h⟩
        simp [find?, ih, this]
    rw [same, find?_insert_self]
  · exact find?_insert_of_ne ‹_› v m

/-! ## Order -/

theorem mem_insert {k : K} {v : V} {m : List (K × V)} {p : K × V} (h : p ∈ insert k v m) : p = (k, v) ∨ p ∈ m := by
  induction m with
  | nil => simpa [insert] using h
  | cons q r ih =>
    obtain ⟨l, w⟩ := q
    cases hc : compare k l <;> simp only [insert, hc, List.mem_cons] at h ⊢
    · exact h
    · exact h.imp id Or.inr
    · rcases h with h | h
      · exact Or.inr (Or.inl h)
      · exact (ih h).imp id Or.inr

theorem increasing_insert [Std.TransOrd K] (k : K) (v : V) {m : List (K × V)} (hm : Increasing m) :
    Increasing (insert k v m) := by
  induction m with
  | nil => simp [insert, Increasing]
  | cons p r ih =>
    obtain ⟨l, w⟩ := p
    obtain ⟨hl, hr⟩ := List.pairwise_cons.mp hm
    cases h : compare k l with
    | lt =>
      simp only [insert, h]
      refine List.pairwise_cons.mpr ⟨fun q hq => ?_, hm⟩
      rcases List.mem_cons.mp hq with rfl | hq
      · exact h
      · exact Std.TransCmp.lt_trans h (hl q hq)
    | eq =>
      simp only [insert, h]
      exact List.pairwise_cons.mpr ⟨fun q hq => Std.TransCmp.lt_of_eq_of_lt h (hl q hq), hr⟩
    | gt =>
      simp only [insert, h]
      refine List.pairwise_cons.mpr ⟨fun q hq => ?_, ih hr⟩
      rcases mem_insert hq with rfl | hq
      · exact Std.OrientedCmp.lt_of_gt h
      · exact hl q hq

theorem increasing_ofList [Std.TransOrd K] (pairs : List (K × V)) : Increasing (ofList pairs) := by
  suffices ∀ m : List (K × V), Increasing m → Increasing (pairs.foldl (fun m p => insert p.1 p.2 m) m) from
    this [] List.Pairwise.nil
  induction pairs with
  | nil => exact fun _ h => h
  | cons p r ih => exact fun m h => ih _ (increasing_insert p.1 p.2 h)

theorem find?_eq_some_iff [Std.TransOrd K] [Std.LawfulEqOrd K] {m : List (K × V)} (hm : Increasing m) {k : K} {v : V} :
    find? k m = some v ↔ (k, v) ∈ m := by
  induction m with
  | nil => simp [find?]
  | cons p r ih =>
    obtain ⟨l, w⟩ := p
    obtain ⟨hl, hr⟩ := List.pairwise_cons.mp hm
    by_cases h : k = l
    · subst h
      have : (k, v) ∉ r := fun hv => by simpa [Std.ReflCmp.compare_self] using hl _ hv
      simp [find?, this, eq_comm]
    · have : compare k l ≠ .eq := fun e => h (Std.LawfulEqCmp.eq_of_compare e)
      simp [find?, this, ih hr, h]

theorem mem_keys_iff [Std.TransOrd K] [Std.LawfulEqOrd K] {m : List (K × V)} (hm : Increasing m) {k : K} :
    k ∈ m.map (·.1) ↔ ∃ v, find? k m = some v := by
  constructor
  · intro hk
    obtain ⟨⟨_, v⟩, hp, rfl⟩ := List.mem_map.mp hk
    exact ⟨v, (find?_eq_some_iff hm).mpr hp⟩
  · intro ⟨v, hv⟩
    exact List.mem_map.mpr ⟨(k, v), (find?_eq_some_iff hm).mp hv, rfl⟩

/-! ## Values of another type -/

theorem insert_map {W : Type} (g : V → W) (k : K) (v : V) (m : List (K × V)) :
    insert k (g v) (m.map fun p => (p.1, g p.2)) = (insert k v m).map fun p => (p.1, g p.2) := by
  induction m with
  | nil => rfl
  | cons p m ih =>
    obtain ⟨l, w⟩ := p
    simp only [List.map_cons, insert]
    cases compare k l with
    | lt => rfl
    | eq => rfl
    | gt => rw [ih, List.map_cons]

theorem ofList_map {W : Type} (g : V → W) (pairs : List (K × V)) :
    ofList (pairs.map fun p => (p.1, g p.2)) = (ofList pairs).map fun p => (p.1, g p.2) := by
  -- The map that is filled so far goes through `g` as well.
  suffices ∀ m : List (K × V),
      (pairs.map fun p => (p.1, g p.2)).foldl (fun m p => insert p.1 p.2 m) (m.map fun p => (p.1, g p.2)) =
        (pairs.foldl (fun m p => insert p.1 p.2 m) m).map fun p => (p.1, g p.2) from this []
  induction pairs with
  | nil => exact fun _ => rfl
  | cons p pairs ih =>
    intro m
    rw [List.map_cons, List.foldl_cons, List.foldl_cons]
    show List.foldl _ (insert p.1 (g p.2) (m.map _)) _ = _
    rw [insert_map, ih]

end BoxedRuntime.OrderedMap
