/-
  BoxedRuntime.Proofs.Value.Records — the fields of a record.

  A record is made of pairs of a key and a value, in any order and with keys that may
  come again. Its fields are a map: every key stands once, with the value of its last
  pair, and the keys stand in increasing order of their UTF-8 bytes, which is the order
  of their code points. A map in that order is determined by what it binds, so it does
  not show from which pairs it was made, and two records are compared key by key.

  Main statements:
  - `OrderedMap.find?_ofList`: a key is bound to the value of its last pair.
  - `OrderedMap.ext`: a map in order is determined by what it binds.
  - `ofList_rearranged`: pairs of different keys may change places.
  - `Coherent.record_equal_iff`: records are equal if they bind the same keys to equal
    values.
  - `records_bind`: what a record binds, the order of its pairs, and its equality.
-/
import BoxedRuntime.Proofs.Text.ByteOrder
import BoxedRuntime.Proofs.Value.Separation
import BoxedRuntime.Proofs.Value.Structure

namespace BoxedRuntime

/-! ## Maps made of pairs -/

namespace OrderedMap

variable {K V : Type} [Ord K] [Std.TransOrd K] [Std.LawfulEqOrd K]

/-- What a map in order binds is all there is to it. -/
theorem ext {m n : List (K × V)} (hm : Increasing m) (hn : Increasing n) (h : ∀ k, find? k m = find? k n) : m = n := by
  have hfields := (forall₂_iff (R := Eq) hm hn).mpr ⟨fun k => by rw [h k], fun k v w hv hw => ?_⟩
  · exact List.forall₂_eq_eq_eq ▸ hfields.imp fun f g hfg => Prod.ext hfg.1 hfg.2
  · exact Option.some.inj (hv.symm.trans ((h k).trans hw))

variable [DecidableEq K]

/-- The value of the last pair of the key, or what the key was bound to before. -/
theorem find?_insertAll (k : K) (pairs : List (K × V)) (m : List (K × V)) :
    find? k (pairs.foldl (fun m p => insert p.1 p.2 m) m) =
      ((pairs.filter (·.1 = k)).getLast?.map (·.2)).or (find? k m) := by
  induction pairs generalizing m with
  | nil => rfl
  | cons p pairs ih =>
    rw [List.foldl_cons, ih, find?_insert]
    by_cases h : p.1 = k
    · have hcompare : compare k p.1 = .eq := Std.LawfulEqCmp.compare_eq_iff_eq.mpr h.symm
      rw [List.filter_cons_of_pos (by simpa using h), if_pos hcompare, List.getLast?_cons]
      cases (pairs.filter (·.1 = k)).getLast? <;> rfl
    · have hcompare : compare k p.1 ≠ .eq := fun he => h (Std.LawfulEqCmp.compare_eq_iff_eq.mp he).symm
      rw [List.filter_cons_of_neg (by simpa using h), if_neg hcompare]

theorem find?_ofList (k : K) (pairs : List (K × V)) :
    find? k (ofList pairs) = (pairs.filter (·.1 = k)).getLast?.map (·.2) := by
  rw [ofList, find?_insertAll]
  exact Option.or_none

theorem find?_ofList_eq_some_iff {k : K} {v : V} {pairs : List (K × V)} :
    find? k (ofList pairs) = some v ↔
      ∃ before after, pairs = before ++ (k, v) :: after ∧ ∀ p ∈ after, p.1 ≠ k := by
  rw [find?_ofList, Option.map_eq_some_iff]
  constructor
  · rintro ⟨⟨l, v⟩, hlast, rfl⟩
    obtain ⟨earlier, hfilter⟩ := List.getLast?_eq_some_iff.mp hlast
    obtain ⟨before, rest, rfl, -, hrest⟩ := List.filter_eq_append_iff.mp hfilter
    obtain ⟨between, after, rfl, -, hl, hafter⟩ := List.filter_eq_cons_iff.mp hrest
    obtain rfl : l = k := by simpa using hl
    refine ⟨before ++ between, after, (List.append_assoc _ _ _).symm, fun p hp he => ?_⟩
    exact List.not_mem_nil (hafter ▸ List.mem_filter.mpr ⟨hp, by simpa using he⟩)
  · rintro ⟨before, after, rfl, hafter⟩
    have hnone : after.filter (·.1 = k) = [] := List.filter_eq_nil_iff.mpr fun p hp => by simpa using hafter p hp
    refine ⟨(k, v), ?_, rfl⟩
    rw [List.filter_append, List.filter_cons_of_pos (by simp), hnone, List.getLast?_append]
    rfl

theorem mem_keys_ofList {k : K} {pairs : List (K × V)} : k ∈ (ofList pairs).map (·.1) ↔ k ∈ pairs.map (·.1) := by
  rw [mem_keys_iff (increasing_ofList pairs), ← Option.isSome_iff_exists, find?_ofList, Option.isSome_map,
    List.getLast?_isSome, ne_eq, List.filter_eq_nil_iff]
  simp

/-- The same pairs in another order, but in the same order wherever they have one key. -/
structure Rearranged (pairs pairs' : List (K × V)) : Prop where
  permuted : pairs'.Perm pairs
  stable : ∀ k, pairs'.filter (·.1 = k) = pairs.filter (·.1 = k)

theorem ofList_rearranged {pairs pairs' : List (K × V)} (h : Rearranged pairs pairs') :
    ofList pairs' = ofList pairs := by
  refine ext (increasing_ofList pairs') (increasing_ofList pairs) fun k => ?_
  rw [find?_ofList, find?_ofList, h.stable k]

end OrderedMap

/-! ## The fields that pairs come to -/

/-- Every key of the pairs once, in order, with the value of its last pair. -/
structure FieldsOf (pairs fields : List (String × Handle)) : Prop where
  bytes : fields.Pairwise fun f g => ByteOrder.utf8 f.1 < ByteOrder.utf8 g.1
  codePoints : fields.Pairwise fun f g => ByteOrder.codePoints f.1 < ByteOrder.codePoints g.1
  keys : ∀ k, k ∈ fields.map (·.1) ↔ k ∈ pairs.map (·.1)
  last : ∀ k x, (k, x) ∈ fields ↔ ∃ before after, pairs = before ++ (k, x) :: after ∧ ∀ p ∈ after, p.1 ≠ k

theorem fieldsOf_ofList (pairs : List (String × Handle)) : FieldsOf pairs (OrderedMap.ofList pairs) := by
  have hincreasing := OrderedMap.increasing_ofList pairs
  have hbytes := hincreasing.imp ByteOrder.compare_eq_lt_iff.mp
  refine ⟨hbytes, hbytes.imp ByteOrder.utf8_lt_iff_codePoints.mp, fun k => OrderedMap.mem_keys_ofList, fun k x => ?_⟩
  rw [← OrderedMap.find?_eq_some_iff hincreasing, OrderedMap.find?_ofList_eq_some_iff]

/-! ## Equal records -/

/-- The same keys, bound to equal values. -/
structure BindAlike (f g : List (String × Handle)) : Prop where
  keys : ∀ k, k ∈ f.map (·.1) ↔ k ∈ g.map (·.1)
  values : ∀ k x y, (k, x) ∈ f → (k, y) ∈ g → x.equal y = true

theorem forall₂_fieldEqual_iff {f g : List (String × Handle)} (hf : OrderedMap.Increasing f)
    (hg : OrderedMap.Increasing g) : List.Forall₂ fieldEqual f g ↔ BindAlike f g := by
  have hiff := OrderedMap.forall₂_iff (R := fun x y : Handle => x.equal y = true) hf hg
  have hkeys : ∀ k, (k ∈ f.map (·.1) ↔ k ∈ g.map (·.1)) ↔
      (OrderedMap.find? k f).isSome = (OrderedMap.find? k g).isSome := fun k => by
    rw [OrderedMap.mem_keys_iff hf, OrderedMap.mem_keys_iff hg, ← Option.isSome_iff_exists, ← Option.isSome_iff_exists,
      ← Bool.eq_iff_iff]
  refine hiff.trans ?_
  constructor
  · intro ⟨hsome, hvalues⟩
    refine ⟨fun k => (hkeys k).mpr (hsome k), fun k x y hx hy => ?_⟩
    exact hvalues k x y ((OrderedMap.find?_eq_some_iff hf).mpr hx) ((OrderedMap.find?_eq_some_iff hg).mpr hy)
  · intro h
    refine ⟨fun k => (hkeys k).mp (h.keys k), fun k x y hx hy => ?_⟩
    exact h.values k x y ((OrderedMap.find?_eq_some_iff hf).mp hx) ((OrderedMap.find?_eq_some_iff hg).mp hy)

theorem Coherent.record_equal_iff {hs : List Handle} (h : Coherent hs) {a b : Handle} (ha : a ∈ hs) (hb : b ∈ hs)
    {f g : List (String × Handle)} (haf : a.payload = .record f) (hbg : b.payload = .record g)
    (hf : OrderedMap.Increasing f) (hg : OrderedMap.Increasing g) : a.equal b = true ↔ BindAlike f g := by
  rw [← forall₂_fieldEqual_iff hf hg, ← Payload.equal_record, ← haf, ← hbg, Handle.equal_iff]
  refine ⟨fun hequal => hequal.elim (fun hid => ?_) id, Or.inr⟩
  obtain rfl := h.unique a ha b hb hid
  rw [haf]
  exact Payload.record_equal_self f

/-! ## Records -/

/-- A record binds each key of its pairs to the value of the key's last pair, in the order of
    the keys. Pairs of different keys may change places, and records are equal exactly if
    they bind the same keys to equal values. -/
theorem records_bind :
    (∀ pairs s, ∃ x fields s', Boxing.record pairs s = (.ok x, s') ∧ x.Sound ∧ x.payload = .record fields ∧
      FieldsOf pairs fields) ∧
    (∀ k l, ByteOrder.utf8 k < ByteOrder.utf8 l ↔ ByteOrder.codePoints k < ByteOrder.codePoints l) ∧
    (∀ pairs pairs', OrderedMap.Rearranged pairs pairs' → ∀ s t x y, (Boxing.record pairs s).1 = .ok x →
      (Boxing.record pairs' t).1 = .ok y → x.equal y = true ∧ x.display = y.display) ∧
    (∀ s hs, Run s hs → ∀ a ∈ hs, ∀ b ∈ hs, ∀ f g, a.payload = .record f → b.payload = .record g →
      a.payload.Keyed → b.payload.Keyed → (a.equal b = true ↔ BindAlike f g)) := by
  refine ⟨fun pairs s => ?_, fun k l => ByteOrder.utf8_lt_iff_codePoints, ?_, ?_⟩
  · exact ⟨_, _, _, Op.box_apply _ s, ⟨rfl, rfl⟩, rfl, fieldsOf_ofList pairs⟩
  · intro pairs pairs' h s t x y hx hy
    have hpayload : x.payload = y.payload := by
      cases hx
      cases hy
      exact congrArg Payload.record (OrderedMap.ofList_rearranged h).symm
    refine ⟨Handle.equal_of_payload hpayload ?_, ?_⟩
    · cases hy
      exact Payload.record_equal_self _
    · rw [Handle.display, Handle.display, Handle.text_eq, Handle.text_eq, hpayload]
  · intro s hs hrun a ha b hb f g hf hg hak hbk
    exact hrun.coherent.record_equal_iff ha hb hf hg (hak f hf) (hbk g hg)

/-- One key comes twice, its last value is a NaN, and the other key is above the surrogates:
    by code points it is the greater one. -/
theorem rearranged_records_equal :
    let one : Handle := ⟨0, liveMagic, .int, .int 1⟩
    let two : Handle := ⟨1, liveMagic, .int, .int 2⟩
    let nan : Handle := ⟨2, liveMagic, .real, .real ⟨0x7FF8000000000000⟩⟩
    let pairs := [("😀", two), ("｡", one), ("｡", nan)]
    let pairs' := [("｡", one), ("😀", two), ("｡", nan)]
    let a : Handle := ⟨3, liveMagic, .record, .record [("｡", nan), ("😀", two)]⟩
    let b : Handle := ⟨4, liveMagic, .record, .record [("｡", nan), ("😀", two)]⟩
    Boxing.record pairs { nextId := 3 } = (.ok a, { nextId := 4 }) ∧
      Boxing.record pairs' { nextId := 4 } = (.ok b, { nextId := 5 }) ∧ OrderedMap.Rearranged pairs pairs' ∧
      a.equal b = true ∧ a.display = b.display ∧ Run { nextId := 5 } [b, a, nan, two, one] ∧
      BindAlike [("｡", nan), ("😀", two)] [("｡", nan), ("😀", two)] := by
  intro one two nan pairs pairs' a b
  have hlt : compare "｡" "😀" = .lt := by decide
  have hgt : compare "😀" "｡" = .gt := by decide
  have hself : compare "｡" "｡" = .eq := by decide
  have hrearranged : OrderedMap.Rearranged pairs pairs' := by
    refine ⟨List.Perm.swap _ _ _, fun k => ?_⟩
    by_cases hk : "｡" = k
    · subst hk
      rfl
    · simp [pairs, pairs', List.filter_cons, hk]
  have ha : Boxing.record pairs { nextId := 3 } = (.ok a, { nextId := 4 }) := by
    simp only [Boxing.record, OrderedMap.ofList, pairs, List.foldl_cons, List.foldl_nil, OrderedMap.insert, hlt, hself]
    rfl
  have hb : Boxing.record pairs' { nextId := 4 } = (.ok b, { nextId := 5 }) := by
    simp only [Boxing.record, OrderedMap.ofList, pairs', List.foldl_cons, List.foldl_nil, OrderedMap.insert, hgt, hself]
    rfl
  have h₁ : Run { nextId := 1 } [one] := .allocate (.start {}) (by simp [Payload.children]) rfl
  have h₂ : Run { nextId := 2 } [two, one] := .allocate h₁ (by simp [Payload.children]) rfl
  have h₃ : Run { nextId := 3 } [nan, two, one] := .allocate h₂ (by simp [Payload.children]) rfl
  have h₄ : Run { nextId := 4 } [a, nan, two, one] := .allocate h₃ (by simp [Payload.children]) rfl
  have h₅ : Run { nextId := 5 } [b, a, nan, two, one] := .allocate h₄ (by simp [Payload.children]) rfl
  have hkeyed : a.payload.Keyed := by
    rintro _ ⟨⟩
    exact List.pairwise_pair.mpr hlt
  obtain ⟨-, -, hequal, hbind⟩ := records_bind
  obtain ⟨hab, hdisplay⟩ := hequal pairs pairs' hrearranged { nextId := 3 } { nextId := 4 } a b
    (congrArg Prod.fst ha) (congrArg Prod.fst hb)
  refine ⟨ha, hb, hrearranged, hab, hdisplay, h₅, ?_⟩
  exact (hbind _ _ h₅ a (by simp) b (by simp) _ _ rfl rfl hkeyed hkeyed).mp hab

end BoxedRuntime
