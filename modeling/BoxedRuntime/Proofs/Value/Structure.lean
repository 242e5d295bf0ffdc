/-
  BoxedRuntime.Proofs.Value.Structure — equality and structural comparison.

  Equality of handles takes a shortcut: one object is equal to itself, and nobody looks
  inside. `Payload.Alike` is the comparison without the shortcut and without any notion of
  an object; it sees kinds and contents only, lists by index and records by key.

  The shortcut is taken at every level, wherever two values share an object. It says the
  same as looking inside, except where that object leads to a NaN, which is like nothing,
  not even itself. So the two comparisons differ only over a shared object from which a
  NaN is reached, and only one way round: values that are alike are always equal.

  Main statements:
  - `OrderedMap.forall₂_iff`: field by field is key by key, for fields in order.
  - `Coherent.equal_of_alike`: values that are alike are equal.
  - `Coherent.alike_or_shared`: equal values are alike, or share an object that leads to a
    NaN.
  - `Made.everywhere_keyed`: what the runtime makes has its fields in order.
  - `Run.equal_iff_alike`: equality is structural comparison where no NaN is reached, and
    the shared object where they differ.
-/
import BoxedRuntime.Proofs.Value.Construction
import BoxedRuntime.Proofs.Value.Equivalence
import Mathlib.Data.List.Sort

namespace BoxedRuntime

/-! ## Maps, key by key -/

namespace OrderedMap

variable {K V : Type} [Ord K] {m n : List (K × V)} {R : V → V → Prop}

theorem find?_of_forall₂ (h : List.Forall₂ (fun f g => f.1 = g.1 ∧ R f.2 g.2) m n) (k : K) :
    (find? k m).isSome = (find? k n).isSome ∧ ∀ v w, find? k m = some v → find? k n = some w → R v w := by
  induction h with
  | nil => exact ⟨rfl, nofun⟩
  | @cons f g m n hfg _ ih =>
    obtain ⟨hkey, hvalue⟩ := hfg
    simp only [find?, ← hkey]
    split
    · refine ⟨rfl, fun v w hv hw => ?_⟩
      cases hv
      cases hw
      exact hvalue
    · exact ih

variable [Std.TransOrd K] [Std.LawfulEqOrd K]

/-- The keys are determined by which of them there are, since they stand in order. -/
theorem keys_eq (hm : Increasing m) (hn : Increasing n) (h : ∀ k, (find? k m).isSome = (find? k n).isSome) :
    m.map (·.1) = n.map (·.1) := by
  have hirrefl : Std.Irrefl fun k l : K => compare k l = .lt := ⟨fun k => by simp [Std.ReflCmp.compare_self]⟩
  have hantisymm : Std.Antisymm fun k l : K => compare k l = .lt :=
    ⟨fun k l hkl hlk => by simp [Std.OrientedCmp.gt_of_lt hkl] at hlk⟩
  have ordered : ∀ {l : List (K × V)}, Increasing l → (l.map (·.1)).Pairwise fun k l => compare k l = .lt :=
    fun hl => List.pairwise_map.mpr hl
  refine (ordered hm).eq_of_mem_iff (ordered hn) fun k => ?_
  rw [mem_keys_iff hm, mem_keys_iff hn, ← Option.isSome_iff_exists, ← Option.isSome_iff_exists, h]

theorem forall₂_iff (hm : Increasing m) (hn : Increasing n) :
    List.Forall₂ (fun f g => f.1 = g.1 ∧ R f.2 g.2) m n ↔
      (∀ k, (find? k m).isSome = (find? k n).isSome) ∧
        ∀ k v w, find? k m = some v → find? k n = some w → R v w := by
  constructor
  · intro h
    exact ⟨fun k => (find?_of_forall₂ h k).1, fun k => (find?_of_forall₂ h k).2⟩
  · intro ⟨hkeys, hvalues⟩
    -- The same keys in the same order: fields of one key stand at one index.
    have heq := keys_eq hm hn hkeys
    refine List.forall₂_iff_get.mpr ⟨by simpa using congrArg List.length heq, fun i hi hj => ?_⟩
    have hkey : m[i].1 = n[i].1 := by
      have := List.getElem_of_eq heq (i := i) (by simpa using hi)
      simpa using this
    refine ⟨hkey, hvalues m[i].1 _ _ ((find?_eq_some_iff hm).mpr (List.getElem_mem hi)) ?_⟩
    rw [hkey]
    exact (find?_eq_some_iff hn).mpr (List.getElem_mem hj)

end OrderedMap

/-! ## Structural comparison -/

/-- One structure, whatever the objects are. -/
inductive Payload.Alike : Payload → Payload → Prop
  | null : Alike .null .null
  | bool (b : Bool) : Alike (.bool b) (.bool b)
  | byte (b : UInt8) : Alike (.byte b) (.byte b)
  | char (c : Char) : Alike (.char c) (.char c)
  | int (n : Int64) : Alike (.int n) (.int n)
  | string (s : String) : Alike (.string s) (.string s)
  /-- Equal as numbers, so the two zeros are alike and no NaN is like anything. -/
  | real {x y : Binary64} : x.numEq y = true → Alike (.real x) (.real y)
  | list {xs ys : List Handle} : xs.length = ys.length →
      (∀ i (h : i < xs.length) (h' : i < ys.length), Alike xs[i].payload ys[i].payload) → Alike (.list xs) (.list ys)
  | record {xs ys : List (String × Handle)} :
      (∀ k, (OrderedMap.find? k xs).isSome = (OrderedMap.find? k ys).isSome) →
      (∀ k x y, OrderedMap.find? k xs = some x → OrderedMap.find? k ys = some y → Alike x.payload y.payload) →
      Alike (.record xs) (.record ys)

/-- The fields of a record are those of a map. -/
def Payload.Keyed (p : Payload) : Prop := ∀ fields, p = .record fields → OrderedMap.Increasing fields

def Handle.IsNaN (x : Handle) : Prop := ∃ r, x.payload = .real r ∧ r.isNaN = true

theorem Payload.alike_list {xs ys : List Handle} :
    (Payload.list xs).Alike (.list ys) ↔ List.Forall₂ (fun x y => x.payload.Alike y.payload) xs ys := by
  rw [List.forall₂_iff_get]
  constructor
  · intro h
    cases h with
    | list hlength hitems => exact ⟨hlength, hitems⟩
  · intro ⟨hlength, hitems⟩
    exact .list hlength hitems

theorem Payload.alike_record {xs ys : List (String × Handle)} (hxs : OrderedMap.Increasing xs)
    (hys : OrderedMap.Increasing ys) :
    (Payload.record xs).Alike (.record ys) ↔
      List.Forall₂ (fun f g => f.1 = g.1 ∧ f.2.payload.Alike g.2.payload) xs ys := by
  rw [OrderedMap.forall₂_iff (R := fun x y : Handle => x.payload.Alike y.payload) hxs hys]
  constructor
  · intro h
    cases h with
    | record hkeys hvalues => exact ⟨hkeys, hvalues⟩
  · intro ⟨hkeys, hvalues⟩
    exact .record hkeys hvalues

/-! ## What is alike is equal -/

theorem Payload.equal_of_alike {p q : Payload} (hp : p.Keyed) (hq : q.Keyed)
    (hchildren : ∀ x ∈ p.children, ∀ y ∈ q.children, x.payload.Alike y.payload → x.equal y = true) (h : p.Alike q) :
    p.equal q = true := by
  cases p with
  | list xs =>
    cases h with
    | list hlength hitems =>
      exact Payload.equal_list.mpr (forall₂_imp_on hchildren (Payload.alike_list.mp (.list hlength hitems)))
  | record xs =>
    cases h with
    | @record _ ys hkeys hvalues =>
      have hfields := (Payload.alike_record (hp xs rfl) (hq ys rfl)).mp (.record hkeys hvalues)
      refine Payload.equal_record.mpr (forall₂_imp_on (fun f hf g hg hfg => ?_) hfields)
      exact ⟨hfg.1, hchildren f.2 (List.mem_map_of_mem hf) g.2 (List.mem_map_of_mem hg) hfg.2⟩
  | real x => cases h; assumption
  | _ => cases h; simp [Payload.equal]

/-- No object is needed for values to be equal. -/
theorem Handle.equal_of_alike (x : Handle) : x.Everywhere (·.payload.Keyed) → ∀ y, y.Everywhere (·.payload.Keyed) →
    x.payload.Alike y.payload → x.equal y = true := by
  induction x using Handle.induct with
  | step x ih =>
    intro hx y hy h
    obtain ⟨hp, hxs⟩ := Handle.everywhere_iff.mp hx
    obtain ⟨hq, hys⟩ := Handle.everywhere_iff.mp hy
    exact Handle.equal_iff.mpr (Or.inr (Payload.equal_of_alike hp hq (fun u hu v hv => ih u hu (hxs u hu) v (hys v hv)) h))

/-! ## What is equal is alike -/

theorem Payload.alike_of_equal {p q : Payload} (hp : p.Keyed) (hq : q.Keyed)
    (hchildren : ∀ x ∈ p.children, ∀ y ∈ q.children, x.equal y = true → x.payload.Alike y.payload)
    (h : p.equal q = true) : p.Alike q := by
  cases p with
  | list xs =>
    cases q with
    | list ys => exact Payload.alike_list.mpr (forall₂_imp_on hchildren (Payload.equal_list.mp h))
    | _ => cases h
  | record xs =>
    cases q with
    | record ys =>
      refine (Payload.alike_record (hp xs rfl) (hq ys rfl)).mpr
        (forall₂_imp_on (fun f hf g hg hfg => ?_) (Payload.equal_record.mp h))
      exact ⟨hfg.1, hchildren f.2 (List.mem_map_of_mem hf) g.2 (List.mem_map_of_mem hg) hfg.2⟩
    | _ => cases h
  | real x =>
    cases q with
    | real y => exact .real h
    | _ => cases h
  | _ =>
    cases q <;> simp_all [Payload.equal]
    constructor

/-- All that an object holds is equal to itself, so only a NaN is in the way. -/
theorem Handle.payload_equal_or_nan (x : Handle) : x.payload.equal x.payload = true ∨ x.IsNaN := by
  unfold Handle.IsNaN
  cases x.payload with
  | real r =>
    cases hr : r.isNaN with
    | true => exact Or.inr ⟨r, rfl, hr⟩
    | false => exact Or.inl (by simp [Payload.equal, Binary64.numEq_self, hr])
  | list xs => exact Or.inl (Payload.list_equal_self xs)
  | record xs => exact Or.inl (Payload.record_equal_self xs)
  | _ => exact Or.inl (by simp [Payload.equal])

/-- The two have an object in common that leads to a NaN. -/
def SharesNaN (x y : Handle) : Prop := ∃ z, x.Reaches z ∧ y.Reaches z ∧ ∃ w, z.Reaches w ∧ w.IsNaN

/-- Wherever on the way down the shortcut is taken first, the object it is taken at is
    shared; from there on the values differ only by what that object leads to. -/
theorem Coherent.alike_or_shared {hs : List Handle} (h : Coherent hs) (x : Handle) :
    x ∈ hs → x.Everywhere (·.payload.Keyed) → ∀ y ∈ hs, y.Everywhere (·.payload.Keyed) → x.equal y = true →
      x.payload.Alike y.payload ∨ SharesNaN x y := by
  induction x using Handle.induct with
  | step x ih =>
    intro hx hxk y hy hyk hxy
    obtain ⟨hp, hxs⟩ := Handle.everywhere_iff.mp hxk
    obtain ⟨hq, hys⟩ := Handle.everywhere_iff.mp hyk
    have hequal : x.payload.equal y.payload = true ∨ SharesNaN x y := by
      rcases Handle.equal_iff.mp hxy with hid | hpayload
      · obtain rfl := h.unique x hx y hy hid
        exact x.payload_equal_or_nan.imp_right fun hnan => ⟨x, .self x, .self x, x, .self x, hnan⟩
      · exact Or.inl hpayload
    rcases hequal with hequal | hshared
    · -- An object shared below is shared here; without one, every pair below is alike.
      by_cases hbelow : ∃ u ∈ x.payload.children, ∃ v ∈ y.payload.children, SharesNaN u v
      · obtain ⟨u, hu, v, hv, z, huz, hvz, hz⟩ := hbelow
        exact Or.inr ⟨z, .child hu huz, .child hv hvz, hz⟩
      · refine Or.inl (Payload.alike_of_equal hp hq (fun u hu v hv huv => ?_) hequal)
        have := ih u hu (h.children x hx u hu) (hxs u hu) v (h.children y hy v hv) (hys v hv) huv
        exact this.resolve_right fun hshared => hbelow ⟨u, hu, v, hv, hshared⟩
    · exact Or.inr hshared

/-! ## Records have their fields in order -/

theorem Payload.keyed_of_leaf {p : Payload} (h : p.children = []) : p.Keyed := by
  rintro fields rfl
  obtain rfl : fields = [] := List.map_eq_nil_iff.mp h
  exact List.Pairwise.nil

theorem Op.MakesLeaf.keyed {make : Op Handle} (h : make.MakesLeaf) {s s' : Session} {x : Handle}
    (hrun : (Except.ok <$> make : Op (Except LiteralError Handle)) s = (.ok (.ok x), s')) : x.payload.Keyed := by
  obtain ⟨o, ho, hleaf⟩ := h
  rw [map_eq_pure_bind, Op.bind_apply, ho s] at hrun
  cases o with
  | ok p =>
    cases hrun
    exact Payload.keyed_of_leaf (hleaf p rfl)
  | error f => cases hrun

theorem Making.keyed {m : Making} {s s' : Session} {x : Handle} (h : m.run s = (.ok (.ok x), s')) : x.payload.Keyed := by
  cases m with
  | null | bool | int | real | string => exact (Op.makesLeaf_box rfl).keyed h
  | byte raw => exact (Boxing.makesLeaf_scalar .byte raw).keyed h
  | char raw => exact (Boxing.makesLeaf_scalar .char raw).keyed h
  | scalar tag raw => exact (Boxing.makesLeaf_scalar tag raw).keyed h
  | list items => cases h; exact nofun
  | record fields =>
    cases h
    rintro _ ⟨⟩
    exact OrderedMap.increasing_ofList fields
  | literal text =>
    rcases Literal.read_eq text with ⟨e, hread⟩ | ⟨_, _, make, hmake, hread⟩
    · rw [Making.run, hread] at h
      cases h
    · rw [Making.run, hread] at h
      exact (Literal.makesLeaf_value hmake).keyed h
  | conversion c x => exact (c.makesLeaf_apply x).keyed h
  | convertRoutine c args => exact (c.makesLeaf_routine args).keyed h
  | renderRoutine args => exact (Rendering.makesLeaf_routine args).keyed h

theorem Made.everywhere_keyed {s : Session} {hs : List Handle} (h : Made s hs) :
    ∀ x ∈ hs, x.Everywhere (·.payload.Keyed) := by
  induction h with
  | start => intro x hx; cases hx
  | @step s hs m _ huses ih =>
    cases m.run_cases with
    | value p hchildren hrun =>
      rw [hrun s]
      intro x hx
      rcases List.mem_cons.mp hx with rfl | hx
      · exact Handle.everywhere_iff.mpr ⟨Making.keyed (hrun s), fun y hy => ih y (huses (hchildren hy))⟩
      · exact ih x hx
    | noLiteral e hrun => rw [hrun s]; exact ih
    | fault f hrun => rw [hrun s]; exact ih

/-! ## Both comparisons -/

/-- Where no NaN is reached the shortcut does not show; where it shows, the object that it
    was taken at leads to a NaN. -/
theorem Run.equal_iff_alike {s : Session} {hs : List Handle} (h : Run s hs) {a b : Handle} (ha : a ∈ hs) (hb : b ∈ hs)
    (hak : a.Everywhere (·.payload.Keyed)) (hbk : b.Everywhere (·.payload.Keyed)) :
    (a.Everywhere (¬ ·.IsNaN) → b.Everywhere (¬ ·.IsNaN) → (a.equal b = true ↔ a.payload.Alike b.payload)) ∧
      (a.equal b = true → ¬ a.payload.Alike b.payload →
        ∃ x, a.Reaches x ∧ b.Reaches x ∧ ∃ y, x.Reaches y ∧ y.IsNaN) := by
  have hcases := h.coherent.alike_or_shared a ha hak b hb hbk
  constructor
  · intro hnan _
    constructor
    · intro hequal
      obtain halike | ⟨x, hax, -, y, hxy, hy⟩ := hcases hequal
      · exact halike
      · exact absurd hy (hnan y (hax.trans hxy))
    · exact a.equal_of_alike hak b hbk
  · intro hequal hunlike
    exact (hcases hequal).resolve_left hunlike

/-- The two zeros, one in an object with a forged header, are alike; one NaN is unlike
    itself, and the records that hold it are equal because they share it. -/
theorem zeros_alike_nan_shared :
    let zero : Handle := ⟨0, liveMagic, .real, .real ⟨0⟩⟩
    let minus : Handle := ⟨1, 0, .int, .real ⟨0x8000000000000000⟩⟩
    let nan : Handle := ⟨2, liveMagic, .real, .real ⟨0x7FF8000000000000⟩⟩
    let a : Handle := ⟨3, liveMagic, .record, .record [("k", nan)]⟩
    let b : Handle := ⟨4, liveMagic, .record, .record [("k", nan)]⟩
    Run { nextId := 5 } [b, a, nan, minus, zero] ∧ zero.payload.Alike minus.payload ∧
      a.equal b = true ∧ ¬ a.payload.Alike b.payload ∧ ∃ x, a.Reaches x ∧ b.Reaches x ∧ ∃ y, x.Reaches y ∧ y.IsNaN := by
  intro zero minus nan a b
  have h₁ : Run { nextId := 1 } [zero] := .allocate (.start {}) (by simp [Payload.children]) rfl
  have h₂ : Run { nextId := 2 } [minus, zero] := .allocate h₁ (by simp [Payload.children]) rfl
  have h₃ : Run { nextId := 3 } [nan, minus, zero] := .allocate h₂ (by simp [Payload.children]) rfl
  have h₄ : Run { nextId := 4 } [a, nan, minus, zero] := .allocate h₃ (by simp [Payload.children]) rfl
  have h₅ : Run { nextId := 5 } [b, a, nan, minus, zero] := .allocate h₄ (by simp [Payload.children]) rfl
  have leaf : ∀ {P : Handle → Prop} {x : Handle}, P x → x.payload.children = [] → x.Everywhere P :=
    fun hx hnone => Handle.everywhere_iff.mpr ⟨hx, by simp [hnone]⟩
  have around : ∀ {x : Handle}, x.payload = .record [("k", nan)] → x.Everywhere (·.payload.Keyed) := by
    intro x hx
    refine Handle.everywhere_iff.mpr ⟨?_, ?_⟩
    · rw [hx]
      rintro _ ⟨⟩
      exact List.pairwise_singleton _ _
    · rw [hx]
      intro y hy
      obtain rfl := List.mem_singleton.mp hy
      exact leaf (Payload.keyed_of_leaf rfl) rfl
  have hzeros := (h₅.equal_iff_alike (a := zero) (b := minus) (by simp) (by simp)
    (leaf (Payload.keyed_of_leaf rfl) rfl) (leaf (Payload.keyed_of_leaf rfl) rfl)).1
  have hab : ¬ a.payload.Alike b.payload := by
    intro h
    cases h with
    | record _ hvalues =>
      cases hvalues "k" nan nan rfl rfl with
      | real hnan => cases hnan
  refine ⟨h₅, (hzeros (leaf ?_ rfl) (leaf ?_ rfl)).mp rfl, rfl, hab, ?_⟩
  · rintro ⟨_, ⟨⟩, hnan⟩
    cases hnan
  · rintro ⟨_, ⟨⟩, hnan⟩
    cases hnan
  · exact (h₅.equal_iff_alike (by simp) (by simp) (around rfl) (around rfl)).2 rfl hab

end BoxedRuntime
