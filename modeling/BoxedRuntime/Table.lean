/-
  BoxedRuntime.Table — finite maps that are iterated in no particular order.

  A table holds one pair for each of its keys. Iterating it lists the pairs in some order
  that says nothing about the table: two listings of the same pairs are the same table,
  and whatever is read off a listing has to be the same for all of them. A reader that
  wants an order sorts; since no key stands twice, the sort leaves only one list.

  Main statements:
  - `find?_insert`: an insertion settles its own key and no other.
  - `insert_comm`: insertions of two keys commute.
  - `Listing.eq_sorted`: of all lists of its pairs one is in order, and the sort gives it.
  - `sorted_of_listedBy`: so all iterations of a table are sorted into the same list.
  - `sorted_increasing`: the keys of that list are strictly increasing.
  - `mem_sorted_iff`: a look-up finds just the pairs of that list.
-/

namespace BoxedRuntime

variable {K V : Type}

/-- The pairs of a table in the order of one iteration; no key stands twice. -/
structure Listing (K V : Type) where
  pairs : List (K × V)
  distinct : (pairs.map (·.1)).Nodup

namespace Listing

instance samePairs : Setoid (Listing K V) where
  r l m := l.pairs.Perm m.pairs
  iseqv := ⟨fun _ => .refl _, .symm, .trans⟩

theorem eq_of_mem {l : Listing K V} {p q : K × V} (hp : p ∈ l.pairs) (hq : q ∈ l.pairs) (h : p.1 = q.1) : p = q := by
  obtain ⟨before, after, he⟩ := List.append_of_mem hp
  have hd := l.distinct
  rw [he, List.map_append, List.map_cons, List.nodup_append, List.nodup_cons] at hd
  obtain ⟨-, ⟨hafter, -⟩, hbefore⟩ := hd
  rcases List.mem_append.mp (he ▸ hq : q ∈ before ++ p :: after) with hq | hq
  · exact absurd h.symm (hbefore q.1 (List.mem_map_of_mem hq) p.1 List.mem_cons_self)
  · rcases List.mem_cons.mp hq with hq | hq
    · exact hq.symm
    · exact absurd (List.mem_map_of_mem (f := (·.1)) hq) (h ▸ hafter)

section LookUp

variable [DecidableEq K]

def find? (k : K) (l : Listing K V) : Option V := l.pairs.lookup k

theorem find?_eq_some_iff {l : Listing K V} {k : K} {v : V} : l.find? k = some v ↔ (k, v) ∈ l.pairs := by
  rw [find?, List.lookup_eq_some_iff]
  constructor
  · intro ⟨before, after, he, _⟩
    simp [he]
  · intro h
    obtain ⟨before, after, he⟩ := List.append_of_mem h
    refine ⟨before, after, he, fun p hp => ?_⟩
    have hd : ((before ++ (k, v) :: after).map (·.1)).Nodup := he ▸ l.distinct
    rw [List.map_append, List.nodup_append] at hd
    simpa using (hd.2.2 p.1 (List.mem_map_of_mem hp) k (by simp)).symm

theorem find?_congr {l m : Listing K V} (h : l ≈ m) (k : K) : l.find? k = m.find? k :=
  Option.ext fun _ => find?_eq_some_iff.trans ((List.Perm.mem_iff h).trans find?_eq_some_iff.symm)

/-- The pair takes the place of the one its key had, if it had one. -/
def insert (k : K) (v : V) (l : Listing K V) : Listing K V where
  pairs := (k, v) :: l.pairs.filter (·.1 ≠ k)
  distinct := by
    rw [List.map_cons, List.nodup_cons]
    refine ⟨fun h => ?_, l.distinct.sublist (List.filter_sublist.map _)⟩
    obtain ⟨p, hp, he⟩ := List.mem_map.mp h
    simpa [he] using (List.mem_filter.mp hp).2

theorem mem_insert_iff {l : Listing K V} {k k' : K} {v w : V} :
    (k', w) ∈ (l.insert k v).pairs ↔ if k' = k then w = v else (k', w) ∈ l.pairs := by
  split <;> simp [insert, *]

theorem insert_congr {l m : Listing K V} (h : l ≈ m) (k : K) (v : V) : l.insert k v ≈ m.insert k v :=
  (List.Perm.filter _ h).cons _

end LookUp

/-- Read out by increasing keys. -/
def sorted [Ord K] (l : Listing K V) : List (K × V) := l.pairs.mergeSort fun p q => (compare p.1 q.1).isLE

theorem sorted_perm [Ord K] (l : Listing K V) : l.sorted.Perm l.pairs := List.mergeSort_perm ..

theorem sorted_ordered [Ord K] [Std.TransOrd K] (l : Listing K V) :
    l.sorted.Pairwise fun p q => (compare p.1 q.1).isLE = true := by
  refine List.pairwise_mergeSort (fun p q r h h' => ?_) (fun p q => ?_) _
  · exact Std.TransCmp.isLE_trans h h'
  · rw [Std.OrientedOrd.eq_swap (a := q.1)]
    cases compare p.1 q.1 <;> rfl

variable [Ord K] [Std.TransOrd K] [Std.LawfulEqOrd K]

/-- There is one list of these pairs in which no key stands before a smaller one. -/
theorem eq_sorted {l : Listing K V} {ps : List (K × V)}
    (ho : ps.Pairwise fun p q => (compare p.1 q.1).isLE = true) (hp : ps.Perm l.pairs) : ps = l.sorted := by
  refine List.Perm.eq_of_pairwise (fun a b ha hb h h' => ?_) ho l.sorted_ordered (hp.trans l.sorted_perm.symm)
  exact eq_of_mem (hp.mem_iff.mp ha) (l.sorted_perm.mem_iff.mp hb)
    (Std.LawfulEqCmp.eq_of_compare (Std.OrientedCmp.isLE_antisymm h h'))

theorem sorted_congr {l m : Listing K V} (h : l ≈ m) : l.sorted = m.sorted :=
  eq_sorted l.sorted_ordered (l.sorted_perm.trans h)

theorem sorted_increasing (l : Listing K V) : l.sorted.Pairwise fun p q => compare p.1 q.1 = .lt := by
  have hd : (l.sorted.map (·.1)).Nodup := (l.sorted_perm.map _).nodup_iff.mpr l.distinct
  refine (l.sorted_ordered.and (List.pairwise_map.mp hd)).imp fun {p q} h => ?_
  cases hc : compare p.1 q.1 with
  | lt => rfl
  | eq => exact absurd (Std.LawfulEqCmp.eq_of_compare hc) h.2
  | gt => simp [hc] at h

end Listing

/-- A listing up to its order. -/
def Table (K V : Type) : Type := Quotient (Listing.samePairs (K := K) (V := V))

namespace Table

def empty : Table K V := Quotient.mk _ ⟨[], .nil⟩

/-- The listing is what some iteration of the table gives. -/
def ListedBy (t : Table K V) (l : Listing K V) : Prop := Quotient.mk _ l = t

def size (t : Table K V) : Nat := Quotient.lift (·.pairs.length) (fun _ _ h => List.Perm.length_eq h) t

def isEmpty (t : Table K V) : Bool := Quotient.lift (·.pairs.isEmpty) (fun _ _ h => List.Perm.isEmpty_eq h) t

theorem isEmpty_iff (t : Table K V) : t.isEmpty = true ↔ t.size = 0 := by
  induction t using Quotient.ind with
  | _ l => exact List.isEmpty_iff.trans List.length_eq_zero_iff.symm

/-! ## Looking up -/

section LookUp

variable [DecidableEq K]

def find? (k : K) (t : Table K V) : Option V := Quotient.lift (·.find? k) (fun _ _ h => Listing.find?_congr h k) t

def insert (k : K) (v : V) (t : Table K V) : Table K V :=
  Quotient.lift (fun l => Quotient.mk _ (l.insert k v)) (fun _ _ h => Quotient.sound (Listing.insert_congr h k v)) t

theorem find?_insert (k k' : K) (v : V) (t : Table K V) :
    (t.insert k v).find? k' = if k' = k then some v else t.find? k' := by
  induction t using Quotient.ind with
  | _ l =>
    refine Option.ext fun w => ?_
    show (l.insert k v).find? k' = some w ↔ (if k' = k then some v else l.find? k') = some w
    rw [Listing.find?_eq_some_iff, Listing.mem_insert_iff]
    split
    · simp [*, eq_comm]
    · simp [*, Listing.find?_eq_some_iff]

theorem insert_comm {k l : K} (h : k ≠ l) (v w : V) (t : Table K V) :
    (t.insert l w).insert k v = (t.insert k v).insert l w := by
  induction t using Quotient.ind with
  | _ m =>
    refine Quotient.sound ?_
    show List.Perm _ _
    simp only [Listing.insert, List.filter_cons, ne_eq, h, h.symm, not_false_eq_true, decide_true, if_true,
      List.filter_filter, Bool.and_comm]
    exact .swap ..

end LookUp

/-! ## Reading in order -/

variable [Ord K] [Std.TransOrd K] [Std.LawfulEqOrd K]

def sorted (t : Table K V) : List (K × V) := Quotient.lift (·.sorted) (fun _ _ h => Listing.sorted_congr h) t

theorem sorted_of_listedBy {t : Table K V} {l : Listing K V} (h : t.ListedBy l) : t.sorted = l.sorted := by
  cases h
  rfl

theorem sorted_increasing (t : Table K V) : t.sorted.Pairwise fun p q => compare p.1 q.1 = .lt := by
  induction t using Quotient.ind with
  | _ l => exact l.sorted_increasing

theorem length_sorted (t : Table K V) : t.sorted.length = t.size := by
  induction t using Quotient.ind with
  | _ l => exact l.sorted_perm.length_eq

theorem mem_sorted_iff [DecidableEq K] {t : Table K V} {k : K} {v : V} : (k, v) ∈ t.sorted ↔ t.find? k = some v := by
  induction t using Quotient.ind with
  | _ l => exact l.sorted_perm.mem_iff.trans Listing.find?_eq_some_iff.symm

end Table
end BoxedRuntime
