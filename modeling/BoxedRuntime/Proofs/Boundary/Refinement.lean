/-
  BoxedRuntime.Proofs.Boundary.Refinement — what a client sees are plain values.

  A client holds references to objects, some of them several to one object, and reads the
  objects through pointers. A ledger has the objects themselves. The two go in step: the
  references that the client owns are, up to order, the objects that the ledger has, and
  the pointer under a number is the one to the object under that number. As objects with
  one id are one object, it does not matter which of the references to it is taken back.

  Main statements:
  - `Matches.step`, `Matches.run`: one call, and a run of calls, keep client and ledger in
    step and answer the same.
  - `Entry.retain_release`: another reference to an object, taken and given back.
  - `boundary_refines`: what a client observes of any installed runtime, and which
    references it owns.
-/
import BoxedRuntime.Proofs.Boundary.Confinement
import BoxedRuntime.Proofs.Boundary.Mirroring

namespace BoxedRuntime

/-! ## Client and ledger in step -/

namespace Ledger

/-- The objects that are not released, in the order of their numbers. -/
def live (l : Ledger) : List Handle := l.slots.filterMap id

theorem mem_live {l : Ledger} {n : Nat} {x : Handle} (h : l.value? n = some x) : x ∈ l.live :=
  List.mem_filterMap.mpr ⟨some x, List.mem_of_getElem? (value?_eq_some.mp h), rfl⟩

theorem perm_set {slots : List (Option Handle)} {n : Nat} {x : Handle} (h : slots[n]? = some (some x)) :
    (slots.filterMap id).Perm (x :: (slots.set n none).filterMap id) := by
  induction slots generalizing n with
  | nil => cases h
  | cons o slots ih =>
    cases n with
    | zero =>
      obtain rfl : o = some x := by simpa using h
      exact List.Perm.refl _
    | succ n =>
      have rest := ih (show slots[n]? = some (some x) by simpa using h)
      cases o with
      | none => exact rest
      | some y => exact (rest.cons y).trans (.swap x y _)

/-- Releasing adds nothing. -/
theorem value?_of_without {l : Ledger} {m : Option Nat} {n : Nat} {x : Handle}
    (h : (l.without m)[n]? = some (some x)) : l.value? n = some x := by
  rw [value?_eq_some]
  cases m with
  | none => exact h
  | some m =>
    rw [without, List.getElem?_set] at h
    split at h
    · split at h <;> cases h
    · exact h

theorem live_without (l : Ledger) (m : Option Nat) : (l.without m).filterMap id ⊆ l.live := by
  intro x hx
  obtain ⟨o, ho, rfl⟩ := List.mem_filterMap.mp hx
  obtain ⟨n, hn⟩ := List.mem_iff_getElem?.mp ho
  exact mem_live (value?_of_without hn)

theorem length_without (l : Ledger) (m : Option Nat) : (l.without m).length = l.slots.length := by
  cases m with
  | none => rfl
  | some n => exact List.length_set

end Ledger

/-- For each handle of the ledger that is not released the client has a pointer to its
    object and one reference, and it has no other references. -/
structure Matches (runtime : Runtime) (own : List Handle) (c : Client) (l : Ledger) : Prop where
  installed : c.boundary.installed = some runtime
  session : c.session = l.session
  length : c.pointers.length = l.slots.length
  pointers : ∀ n x, l.value? n = some x → c.pointers[n]? = some x.id
  owned : c.boundary.owned.Perm l.live
  objects : ∃ hs, Run l.session hs ∧ own ⊆ hs ∧ l.live ⊆ hs

namespace Matches

variable {runtime : Runtime} {own : List Handle} {c : Client} {l : Ledger}

/-- Whichever reference is found at the address of an object, it is one to that object. -/
theorem unique (h : Matches runtime own c l) {x y : Handle} (hx : x ∈ l.live) (hy : y ∈ c.boundary.owned)
    (he : y.id = x.id) : y = x := by
  obtain ⟨hs, hrun, -, hlive⟩ := h.objects
  exact hrun.coherent.unique y (hlive (h.owned.mem_iff.mp hy)) x (hlive hx) he

theorem find? (h : Matches runtime own c l) {x : Handle} (hx : x ∈ l.live) : c.boundary.find? x.id = some x := by
  have howned : x ∈ c.boundary.owned := h.owned.mem_iff.mpr hx
  unfold Boundary.find?
  cases hy : c.boundary.owned.find? (·.id == x.id) with
  | none => simpa using List.find?_eq_none.mp hy x howned
  | some y =>
    have he : y.id = x.id := by simpa using List.find?_some hy
    rw [h.unique hx (List.mem_of_find?_eq_some hy) he]

theorem value? (h : Matches runtime own c l) {n : Nat} {x : Handle} (hx : l.value? n = some x) :
    c.value? n = some x := by
  rw [Client.value?, h.pointers n x hx]
  exact h.find? (Ledger.mem_live hx)

/-- Taking a reference back leaves the others. -/
theorem perm_disown (h : Matches runtime own c l) {n : Nat} {x : Handle} (hx : l.value? n = some x) :
    (c.boundary.disown x.id).owned.Perm ((l.slots.set n none).filterMap id) := by
  have hlive := Ledger.mem_live hx
  -- The first reference found at the address need not be the one that this handle came with.
  obtain ⟨y, before, after, -, hy, howned, herase⟩ :=
    List.exists_of_eraseP (p := (·.id == x.id)) (h.owned.mem_iff.mpr hlive) (by simp)
  have hmem : y ∈ c.boundary.owned := by rw [howned]; simp
  obtain rfl : y = x := h.unique hlive hmem (by simpa using hy)
  have hcons : (y :: (before ++ after)).Perm (y :: (l.slots.set n none).filterMap id) := by
    refine List.perm_middle.symm.trans ?_
    rw [← howned]
    exact h.owned.trans (Ledger.perm_set (Ledger.value?_eq_some.mp hx))
  rw [Boundary.disown, herase]
  exact hcons.cons_inv

theorem perm_without (h : Matches runtime own c l) {q : Request Nat} {x : Request Handle}
    (hx : q.rename l.value? = .ok x) :
    (c.boundary.without x.released?).owned.Perm ((l.without q.released?).filterMap id) := by
  rcases Request.rename_released? hx with ⟨hq, hx⟩ | ⟨n, y, hq, hy, rfl⟩
  · rw [hq, hx]
    exact h.owned
  · rw [hq]
    exact h.perm_disown hy

/-- An old number keeps its pointer; the one new number is that of the object handed over. -/
theorem pointers_after (h : Matches runtime own c l) (m : Option Nat) (given : Option Handle) {n : Nat} {x : Handle}
    (hx : (l.without m ++ given.toList.map some)[n]? = some (some x)) :
    (c.pointers ++ (given.map Handle.id).toList)[n]? = some x.id := by
  have hlength := l.length_without m
  by_cases hn : n < l.slots.length
  · rw [List.getElem?_append_left (hlength ▸ hn)] at hx
    rw [List.getElem?_append_left (h.length ▸ hn)]
    exact h.pointers n x (Ledger.value?_of_without hx)
  · have hn' : l.slots.length ≤ n := Nat.le_of_not_lt hn
    rw [List.getElem?_append_right (hlength ▸ hn'), hlength] at hx
    rw [List.getElem?_append_right (h.length ▸ hn'), h.length]
    cases given with
    | none => simp at hx
    | some y =>
      cases hm : n - l.slots.length with
      | zero =>
        obtain rfl : y = x := by simpa [hm] using hx
        rfl
      | succ m => simp [hm] at hx

/-- A completed call: the references, the pointers and the numbers change alike. -/
theorem after (h : Matches runtime own c l) {q : Request Nat} {x : Request Handle} {r : Reply Handle} {s : Session}
    {hs : List Handle} (hx : q.rename l.value? = .ok x) (hrun : Run s hs) (hown : own ⊆ hs) (hlive : l.live ⊆ hs)
    (hr : r.handle?.toList ⊆ hs) :
    Matches runtime own ⟨c.boundary.after x r, s, c.pointers ++ (r.map Handle.id).handle?.toList⟩
      ⟨s, l.without q.released? ++ r.handle?.toList.map some⟩ := by
  have hlive' : Ledger.live ⟨s, l.without q.released? ++ r.handle?.toList.map some⟩ =
      (l.without q.released?).filterMap id ++ r.handle?.toList := by
    cases r.handle? <;> simp [Ledger.live]
  constructor
  · rw [Boundary.installed_after]
    exact h.installed
  · rfl
  · rw [Reply.handle?_map]
    cases r.handle? <;> simp [h.length, l.length_without]
  · intro n y hy
    rw [Reply.handle?_map]
    exact h.pointers_after q.released? r.handle? (Ledger.value?_eq_some.mp hy)
  · show (c.boundary.after x r).owned.Perm _
    rw [hlive', Boundary.after, Boundary.owned_adding]
    exact ((h.perm_without hx).append_left _).trans List.perm_append_comm
  · refine ⟨hs, hrun, hown, ?_⟩
    rw [hlive']
    exact List.append_subset.mpr ⟨List.Subset.trans (l.live_without _) hlive, hr⟩

/-- One call. -/
theorem step (h : Matches runtime own c l) (hruntime : runtime.Confined own) {q : Request Nat}
    (hlive : ∀ n, (l.step runtime q).1 ≠ .error (.dangling n)) :
    (c.step q).1 = (l.step runtime q).1.map (Reply.map Handle.id) ∧
      Matches runtime own (c.step q).2 (l.step runtime q).2 := by
  cases hx : q.rename l.value? with
  | error n =>
    refine absurd ?_ (hlive n)
    rw [Ledger.step, hx]
  | ok x =>
    have hobject : ∀ y, x.object? = some y → y ∈ l.live := by
      intro y hy
      obtain ⟨n, hn⟩ := Request.rename_object? hx hy
      exact Ledger.mem_live hn
    have hpointers : q.rename (c.pointers[·]?) = .ok (x.map Handle.id) := Request.rename_eq_ok hx h.pointers
    have hmirrors := Request.enter_mirrors h.installed x (fun y hy => h.find? (hobject y hy)) l.session
    obtain ⟨hs, hrun, hown, hsub⟩ := h.objects
    obtain ⟨hs', hrun', hsub', hgiven⟩ :=
      Request.confined_perform hruntime hown x (fun y hy => hsub (hobject y hy)) l.session hrun
    have hown' := List.Subset.trans hown hsub'
    have hlive' := List.Subset.trans hsub hsub'
    simp only [Client.step, Ledger.step, hx, hpointers, h.session]
    rcases hperform : x.perform runtime l.session with ⟨f | r, s'⟩
    · simp only [hperform] at hmirrors hrun'
      simp only [hmirrors]
      exact ⟨rfl, h.installed, rfl, h.length, h.pointers, h.owned, hs', hrun', hown', hlive'⟩
    · simp only [hperform] at hmirrors hrun' hgiven
      simp only [hmirrors]
      exact ⟨rfl, h.after hx hrun' hown' hlive' (hgiven r rfl)⟩

/-- A run of calls. -/
theorem run (h : Matches runtime own c l) (hruntime : runtime.Confined own) {program : List (Request Nat)}
    (hlive : ∀ n, (l.run runtime program).stop ≠ some (.dangling n)) :
    (c.run program).replies = (l.run runtime program).replies.map (Reply.map Handle.id) ∧
      (c.run program).stop = (l.run runtime program).stop ∧
      Matches runtime own (c.run program).last (l.run runtime program).last := by
  -- `Matches` is the invariant that one call hands on to the rest of the program.
  induction program generalizing c l with
  | nil => exact ⟨rfl, rfl, h⟩
  | cons q program ih =>
    rcases hl : l.step runtime q with ⟨e | r, l'⟩
    · rw [Ledger.run, transcript_cons_error hl] at hlive
      have hstep := h.step hruntime (q := q) (by rw [hl]; intro n hn; cases hn; exact hlive n rfl)
      rw [hl] at hstep
      have hc : c.step q = (.error e, (c.step q).2) := Prod.ext hstep.1 rfl
      rw [Ledger.run, transcript_cons_error hl, Client.run, transcript_cons_error hc]
      exact ⟨rfl, rfl, hstep.2⟩
    · rw [Ledger.run, transcript_cons_ok hl] at hlive
      have hstep := h.step hruntime (q := q) (by rw [hl]; intro n hn; cases hn)
      rw [hl] at hstep
      have hc : c.step q = (.ok (r.map Handle.id), (c.step q).2) := Prod.ext hstep.1 rfl
      obtain ⟨hreplies, hstop, hlast⟩ := ih hstep.2 hlive
      rw [Ledger.run, transcript_cons_ok hl, Client.run, transcript_cons_ok hc]
      exact ⟨congrArg (r.map Handle.id :: ·) hreplies, hstop, hlast⟩

end Matches

/-- The reference that `retain` takes is the one that a release gives back. -/
theorem Entry.retain_release {b : Boundary} {id : Nat} {x : Handle} (h : b.find? id = some x) (hx : x.Sound)
    (s : Session) : (retain id >>= fun id => release (.object id)) (b, s) = (.ok (), b, s) := by
  have hid : x.id = id := by simpa using List.find?_some h
  have hown : (b.own x).find? id = some x := List.find?_cons_of_pos (by simpa using hid)
  have hdisown : (b.own x).disown x.id = b := by
    simp only [Boundary.own, Boundary.disown, List.eraseP_cons_of_pos (p := (·.id == x.id)) (a := x) (by simp)]
  have hretained : retain id (b, s) = (.ok x.id, b.own x, s) := by
    simp only [retain, bind_apply, boundary, ExceptT.mk, h]
    rfl
  have hchecked := checked_mirrors (b := b.own x) (p := .object x) (fun y hy => by cases hy; exact hid ▸ hown)
    "brisk_release" s
  rw [hx.wellFormed.pointer, Pointer.map] at hchecked
  simp only [bind_apply, hretained, release, hchecked, update, ExceptT.mk, hdisown]

/-! ## Runs from the start -/

/-- The runtime is installed, and the client has a reference to each of these objects. -/
def Client.holding (runtime : Runtime) (s : Session) (held : List Handle) : Client :=
  ⟨⟨some runtime, held⟩, s, held.map Handle.id⟩

def Ledger.holding (s : Session) (held : List Handle) : Ledger := ⟨s, held.map some⟩

theorem Matches.holding (runtime : Runtime) {s : Session} {own held : List Handle} (hs : Run s own)
    (hheld : held ⊆ own) : Matches runtime own (.holding runtime s held) (.holding s held) := by
  have hlive : (Ledger.holding s held).live = held := by simp [Ledger.live, Ledger.holding]
  refine ⟨rfl, rfl, by simp [Client.holding, Ledger.holding], ?_, ?_, own, hs, List.Subset.refl own, ?_⟩
  · intro n x hx
    have : held[n]? = some x := by simpa [Ledger.value?_eq_some, Ledger.holding] using hx
    simp [Client.holding, this]
  · rw [hlive]
    exact List.Perm.refl held
  · rw [hlive]
    exact hheld

/-- What the client observes is what the ledger gives. -/
structure Refines (runtime : Runtime) (c : Client) (l : Ledger) (program : List (Request Nat)) : Prop where
  /-- Every call answers what the plain call gives; for an object, the pointer to it. -/
  replies : (c.run program).replies = (l.run runtime program).replies.map (Reply.map Handle.id)
  stop : (c.run program).stop = (l.run runtime program).stop
  session : (c.run program).last.session = (l.run runtime program).last.session
  /-- At every point the client owns one reference for each handle that is not released. -/
  owned : ∀ earlier later, program = earlier ++ later →
    (c.run earlier).last.boundary.owned.Perm (l.run runtime earlier).last.live
  /-- A release gives back one reference to the object, and no other. -/
  released : ∀ earlier later k x, program = earlier ++ .release (.object k) :: later →
    (c.run earlier).stop = none → (l.run runtime earlier).last.value? k = some x → x.Sound →
    (c.run earlier).last.boundary.owned.Perm
      (x :: (c.run (earlier ++ [.release (.object k)])).last.boundary.owned)
  exit : ∀ f, (l.run runtime program).stop = some (.fault f) →
    (c.run program).exit? = some ⟨f.kind.exitStatus, f.diagnostic⟩
  /-- Nothing comes after the call that ends the run. -/
  halts : ∀ earlier later, program = earlier ++ later → (c.run earlier).stop ≠ none → c.run program = c.run earlier
  unknown : ∀ earlier later name signature n t k x,
    program = earlier ++ .call name signature (.object k) :: later → (c.run earlier).stop = none →
    (l.run runtime earlier).last.value? k = some x → x.Sound → name.spelled? = some n → signature.spelled? = some t →
    runtime.registry.contains n ⟨t⟩ = false →
    (c.run program).stop = some (.fault (.internal n (UnknownRoutine.message ⟨n, ⟨t⟩⟩)))
  /-- From the call that gave it out to its release a handle shows one object, whatever is
      passed or released in between. -/
  shows : ∀ earlier between later, program = earlier ++ between ++ later → ∀ k x,
    (l.run runtime earlier).last.value? k = some x → .release (.object k) ∉ between →
    (c.run (earlier ++ between)).last.value? k = some x

/-- Every run against an installed runtime in which no handle is passed after its release. -/
theorem boundary_refines {runtime : Runtime} {s : Session} {own held : List Handle} (hs : Run s own)
    (hheld : held ⊆ own) (hruntime : runtime.Confined own) {program : List (Request Nat)}
    (hlive : ∀ k, ((Ledger.holding s held).run runtime program).stop ≠ some (.dangling k)) :
    Refines runtime (.holding runtime s held) (.holding s held) program := by
  have hstart := Matches.holding runtime hs hheld
  have hearlier : ∀ earlier later, program = earlier ++ later →
      ∀ k, ((Ledger.holding s held).run runtime earlier).stop ≠ some (.dangling k) := by
    intro earlier later hprogram k hk
    refine hlive k ?_
    rw [hprogram, Ledger.run, transcript_append_of_stop (by rw [← Ledger.run, hk]; exact Option.some_ne_none _)]
    exact hk
  have hmatches : ∀ earlier later, program = earlier ++ later →
      Matches runtime own ((Client.holding runtime s held).run earlier).last
        ((Ledger.holding s held).run runtime earlier).last :=
    fun earlier later hprogram => (hstart.run hruntime (hearlier earlier later hprogram)).2.2
  obtain ⟨hreplies, hstop, hlast⟩ := hstart.run hruntime hlive
  constructor
  · exact hreplies
  · exact hstop
  · exact hlast.session
  · exact fun earlier later hprogram => (hmatches earlier later hprogram).owned
  · intro earlier later k x hprogram hended hx hsound
    have hreleased := (hmatches (earlier ++ [.release (.object k)]) later (by simpa using hprogram)).owned
    rw [(hstart.run hruntime (hearlier earlier _ hprogram)).2.1] at hended
    rw [Ledger.live, Ledger.run_release hended hx hsound] at hreleased
    refine (hmatches earlier _ hprogram).owned.trans ((Ledger.perm_set (Ledger.value?_eq_some.mp hx)).trans ?_)
    exact (hreleased.symm).cons x
  · intro f hf
    rw [Transcript.exit?, hstop, hf]
    rfl
  · intro earlier later hprogram hended
    rw [hprogram]
    exact transcript_append_of_stop hended later
  · intro earlier later name signature n t k x hprogram hended hx hsound hname hsignature hr
    rw [(hstart.run hruntime (hearlier earlier _ hprogram)).2.1] at hended
    rw [hstop, hprogram]
    exact Ledger.run_unknown hended hx hsound hname hsignature hr later
  · intro earlier between later hprogram k x hx hbetween
    refine (hmatches (earlier ++ between) later hprogram).value? ?_
    exact Ledger.run_append_keeps hx hbetween

/-- Its one routine gives its argument back. -/
def Runtime.echoing : Runtime :=
  ⟨Registry.empty.insert "echo" ⟨"[^a,v,a]"⟩ fun args => Guard.argument args "echo", [], {}⟩

theorem Runtime.confined_echoing : Runtime.echoing.Confined [] := by
  intro name signature f hf hs args _ hargs
  have hlookup := hf.symm.trans
    (Registry.lookup_insert Registry.empty ⟨"echo", ⟨"[^a,v,a]"⟩⟩ ⟨name, signature⟩ fun args => Guard.argument args "echo")
  split at hlookup
  · cases hlookup
    exact Guard.confined_argument hargs "echo"
  · cases hlookup

/-- Of two handles to one object the first is released; in the end a routine is called
    that is not there. -/
def sharingProgram : List (Request Nat) :=
  let text (s : String) : ForeignText := some s.toUTF8.toList
  [.boxInt 7, .call (text "echo") (text "[^a,v,a]") (.object 0), .release (.object 0), .unboxScalar (.object 1),
    .call (text "lost") (text "[^a,v,a]") (.object 1), .tagOf (.object 1)]

theorem sharing_refines :
    (Client.run (.holding .echoing {} []) sharingProgram).replies = [.handle 0, .handle 0, .done, .word 7] ∧
      (Client.run (.holding .echoing {} []) sharingProgram).exit? =
        some ⟨254, "internal consistency violation\n  in lost: no routine `lost` with signature `[^a,v,a]`\n"⟩ ∧
      Refines .echoing (.holding .echoing {} []) (.holding {} []) sharingProgram := by
  have ends : (Ledger.run .echoing (.holding {} []) sharingProgram).stop =
      some (.fault (.internal "lost" (UnknownRoutine.message ⟨"lost", ⟨"[^a,v,a]"⟩⟩))) := by
    decide +kernel
  refine ⟨by decide +kernel, by decide +kernel, ?_⟩
  refine boundary_refines (.start {}) (List.nil_subset []) Runtime.confined_echoing fun k hk => ?_
  rw [ends] at hk
  cases hk

end BoxedRuntime
