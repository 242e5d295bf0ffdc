/-
  BoxedRuntime.Proofs.Registry.FiniteMap — the registry as a finite map.

  However often and in whatever order keys were registered, the registry answers as the
  map from names and signatures, taken as two texts, to the routine registered last. All
  readers answer from that one map: look-up, calls, and the list of entries. The table is
  not kept in an order; the list of entries is in the order of the bytes of the keys
  because it is sorted, and it is the only list of these entries that is.

  Main statements:
  - `precedes_iff`: the order of the sort is the order of the bytes of the keys.
  - `mem_entries_iff`: the entries are what a look-up finds.
  - `entries_unique`: no other list with these entries is in order.
  - `keys_insertAll`: the keys of the table are those registered, each once.
  - `register_history`: after any list of registrations the registry is their map.
-/
import BoxedRuntime.Proofs.Startup.Registration
import BoxedRuntime.Proofs.Text.ByteOrder
import Mathlib.Data.List.Dedup

namespace BoxedRuntime

/-! ## The order of keys -/

/-- By the bytes of the names, and for one name by the bytes of the signatures. -/
def RoutineKey.Precedes (k l : RoutineKey) : Prop :=
  ByteOrder.utf8 k.name < ByteOrder.utf8 l.name ∨
    k.name = l.name ∧ ByteOrder.utf8 k.signature.text < ByteOrder.utf8 l.signature.text

theorem RoutineKey.precedes_iff {k l : RoutineKey} : k.Precedes l ↔ compare k l = .lt := by
  have hkey : compare k l = (compare k.name l.name).then (compare k.signature.text l.signature.text) := rfl
  rw [hkey, Ordering.then_eq_lt, ByteOrder.compare_eq_lt_iff, ByteOrder.compare_eq_lt_iff,
    Std.LawfulEqCmp.compare_eq_iff_eq]
  rfl

namespace Registry

/-! ## The entries -/

theorem entries_increasing (r : Registry) : r.entries.Pairwise fun p q => p.1.Precedes q.1 :=
  r.table.sorted_increasing.imp RoutineKey.precedes_iff.mpr

theorem mem_entries_iff {r : Registry} {k : RoutineKey} {f : Routine} :
    (k, f) ∈ r.entries ↔ r.lookup k.name k.signature = some f :=
  Table.mem_sorted_iff

/-- Two lists in order that hold the same entries are one list. -/
theorem entries_unique {r : Registry} {l : List (RoutineKey × Routine)}
    (ho : l.Pairwise fun p q => p.1.Precedes q.1)
    (hmem : ∀ k f, (k, f) ∈ l ↔ r.lookup k.name k.signature = some f) : l = r.entries := by
  have irrefl : ∀ {p q : RoutineKey × Routine}, p.1.Precedes q.1 → p ≠ q := fun h he =>
    absurd (RoutineKey.precedes_iff.mp (he ▸ h)) (by simp [Std.ReflCmp.compare_self])
  refine List.Perm.eq_of_pairwise (fun p q _ _ h h' => ?_) ho r.entries_increasing
    ((List.perm_ext_iff_of_nodup (ho.imp irrefl) (r.entries_increasing.imp irrefl)).mpr fun p => ?_)
  · have hlt := RoutineKey.precedes_iff.mp h'
    rw [Std.OrientedCmp.gt_of_lt (RoutineKey.precedes_iff.mp h)] at hlt
    cases hlt
  · exact (hmem p.1 p.2).trans mem_entries_iff.symm

theorem nodup_keys (r : Registry) : r.keys.Nodup := by
  refine List.pairwise_map.mpr (r.table.sorted_increasing.imp fun {p q} hpq => ?_)
  intro he
  exact absurd (he ▸ hpq : compare p.1 p.1 = .lt) (by simp [Std.ReflCmp.compare_self])

theorem mem_keys_iff {r : Registry} {k : RoutineKey} : k ∈ r.keys ↔ ∃ f, r.lookup k.name k.signature = some f := by
  simp [keys, mem_entries_iff]

theorem length_keys (r : Registry) : r.keys.length = r.size :=
  (List.length_map _).trans r.table.length_sorted

theorem lookup_empty_insertAll (rs : List Registration) (k : RoutineKey) :
    (empty.insertAll rs).lookup k.name k.signature = Registration.last? k rs := by
  rw [lookup_insertAll]
  exact Option.or_none

theorem keys_insertAll (rs : List Registration) : (empty.insertAll rs).keys.Perm (rs.map (·.key)).dedup := by
  refine (List.perm_ext_iff_of_nodup (nodup_keys _) (List.nodup_dedup _)).mpr fun k => ?_
  rw [mem_keys_iff, lookup_empty_insertAll, List.mem_dedup, List.mem_map, ← Option.isSome_iff_exists,
    Option.isSome_iff_ne_none, ne_eq, Registration.last?_eq_none_iff]
  simp

/-! ## Calls -/

theorem call_of_some {r : Registry} {name : String} {signature : Signature} {f : Routine}
    (h : r.lookup name signature = some f) (args : List Handle) (s : Session) :
    r.call name signature args s = ((f args s).1.map .ok, (f args s).2) := by
  simp only [call, h]
  show (f args >>= fun x => pure (.ok x) : Op (Except UnknownRoutine Handle)) s = _
  rw [Op.bind_apply]
  rcases f args s with ⟨_ | _, _⟩ <;> rfl

theorem call_of_none {r : Registry} {name : String} {signature : Signature}
    (h : r.lookup name signature = none) (args : List Handle) (s : Session) :
    r.call name signature args s = (.ok (.error ⟨name, signature⟩), s) := by
  simp only [call, h]
  rfl

end Registry

/-! ## The map -/

/-- The registration is one of this name and this signature, each compared as a text. -/
def Registration.Names (x : Registration) (name signature : String) : Prop :=
  x.key.name = name ∧ x.key.signature.text = signature

theorem Registration.names_iff {x : Registration} {name signature : String} :
    x.Names name signature ↔ x.key = ⟨name, ⟨signature⟩⟩ := by
  obtain ⟨⟨n, ⟨t⟩⟩, f⟩ := x
  simp [Names]

/-- The registry is the map in which each registration replaced the one before it. -/
structure Registry.MapOf (rs : List Registration) (r : Registry) : Prop where
  lookup_some : ∀ name signature f, r.lookup name ⟨signature⟩ = some f ↔
    ∃ before x after, rs = before ++ x :: after ∧ x.Names name signature ∧ x.routine = f ∧
      ∀ y ∈ after, ¬ y.Names name signature
  lookup_none : ∀ name signature, r.lookup name ⟨signature⟩ = none ↔ ∀ x ∈ rs, ¬ x.Names name signature
  contains : ∀ name signature, r.contains name ⟨signature⟩ = true ↔ ∃ x ∈ rs, x.Names name signature
  /-- A call is the routine on the arguments, and nothing besides. -/
  call_some : ∀ name signature f, r.lookup name ⟨signature⟩ = some f → ∀ args s,
    r.call name ⟨signature⟩ args s = ((f args s).1.map .ok, (f args s).2)
  /-- Nothing is run for a key that is not there. -/
  call_none : ∀ name signature, r.lookup name ⟨signature⟩ = none → ∀ args s,
    r.call name ⟨signature⟩ args s = (.ok (.error ⟨name, ⟨signature⟩⟩), s)
  /-- Whatever the order in which the table is iterated, the entries are the sorted list of
      its pairs. -/
  entries_sorted : ∀ l : Listing RoutineKey Routine, r.table.ListedBy l →
    r.entries = l.pairs.mergeSort fun p q => (compare p.1 q.1).isLE
  entries_increasing : r.entries.Pairwise fun p q => p.1.Precedes q.1
  mem_entries : ∀ name signature f, (⟨name, ⟨signature⟩⟩, f) ∈ r.entries ↔ r.lookup name ⟨signature⟩ = some f
  /-- No other list with what a look-up finds is in that order. -/
  entries_unique : ∀ l : List (RoutineKey × Routine), (l.Pairwise fun p q => p.1.Precedes q.1) →
    (∀ name signature f, (⟨name, ⟨signature⟩⟩, f) ∈ l ↔ r.lookup name ⟨signature⟩ = some f) → l = r.entries
  /-- One entry for each key that was ever registered. -/
  size : r.size = r.entries.length ∧ r.size = (rs.map (·.key)).dedup.length
  isEmpty : r.isEmpty = true ↔ r.size = 0

theorem Registry.mapOf_insertAll (rs : List Registration) : Registry.MapOf rs (Registry.empty.insertAll rs) := by
  have hsome : ∀ name signature f, (empty.insertAll rs).lookup name ⟨signature⟩ = some f ↔
      ∃ before x after, rs = before ++ x :: after ∧ x.Names name signature ∧ x.routine = f ∧
        ∀ y ∈ after, ¬ y.Names name signature := by
    intro name signature f
    rw [lookup_empty_insertAll rs ⟨name, ⟨signature⟩⟩, Registration.last?_eq_some_iff]
    simp only [Registration.names_iff]
    constructor
    · intro ⟨before, after, he, ha⟩
      exact ⟨before, _, after, he, rfl, rfl, ha⟩
    · intro ⟨before, ⟨_, _⟩, after, he, hk, hf, ha⟩
      cases hk
      cases hf
      exact ⟨before, after, he, ha⟩
  have hnone : ∀ name signature, (empty.insertAll rs).lookup name ⟨signature⟩ = none ↔
      ∀ x ∈ rs, ¬ x.Names name signature := by
    intro name signature
    rw [lookup_empty_insertAll rs ⟨name, ⟨signature⟩⟩, Registration.last?_eq_none_iff]
    simp only [Registration.names_iff, ne_eq]
  refine ⟨hsome, hnone, ?_, fun _ _ _ h => call_of_some h, fun _ _ h => call_of_none h,
    fun _ h => Table.sorted_of_listedBy h, entries_increasing _, fun _ _ _ => mem_entries_iff,
    fun _ ho hmem => entries_unique ho fun k => hmem k.name k.signature.text, ⟨?_, ?_⟩, Table.isEmpty_iff _⟩
  · intro name signature
    rw [Registry.contains, Option.isSome_iff_ne_none, ne_eq, hnone]
    simp
  · exact (Table.length_sorted _).symm
  · rw [← (keys_insertAll rs).length_eq, length_keys]

/-- After any list of registrations, the registry is their map. -/
theorem register_history (rs : List Registration) (s : Session) :
    ∃ r s', Registry.registerEach rs (Registry.empty, s) = (.ok (), r, s') ∧ r.MapOf rs := by
  obtain ⟨s', h⟩ := Registry.registerEach_apply rs Registry.empty s
  exact ⟨_, s', h, Registry.mapOf_insertAll rs⟩

/-- A key is found by its two texts, not by what they read like run together. -/
example : (Registry.empty.insertAll [⟨⟨"ab", ⟨"c"⟩⟩, fun _ => Op.box .null⟩]).contains "a" ⟨"bc"⟩ = false := by
  decide +kernel

end BoxedRuntime
