/-
  BoxedRuntime.Proofs.Boundary.Plain — what the calls mean, without pointers.

  A call of compiled code is a plain operation on the object passed: the constructor, the
  header's tag, the word of the payload, the routine with its one argument, behind the
  guard on what was passed. `Request.perform` says which. A `Ledger` is a client without
  references: under each number it has the object itself, until it is released.

  Main statements:
  - `transcript_append_of_stop`, `transcript_append`: the parts of a run.
  - `Ledger.run_append_keeps`: what stands under a number stays until that number is
    released.
  - `Ledger.run_unknown`: a call of a routine that is not there ends the run.
-/
import BoxedRuntime.Client
import BoxedRuntime.Proofs.Value.Construction

namespace BoxedRuntime

/-! ## Plain calls -/

def Request.perform (runtime : Runtime) : Request Handle → Op (Reply Handle)
  | boxNull => .handle <$> Boxing.null
  | boxBool b => .handle <$> Boxing.bool b
  | boxInt n => .handle <$> Boxing.int n
  | boxByte raw => .handle <$> Boxing.byte raw
  | boxChar raw => .handle <$> Boxing.char raw
  | tagOf p => do
    let x ← Guard.checkPointer p "brisk_tag_of"
    return .tag x.tag.raw
  | unboxScalar p => do
    let x ← Guard.checkPointer p "brisk_unbox_scalar"
    match x.scalar? with
    | some raw => return .word raw
    | none => Op.raise (.unsupported "brisk_unbox_scalar" x.tag)
  | release p => do
    let _ ← Guard.checkPointer p "brisk_release"
    return .done
  | call name signature arg => do
    let name ← Entry.readText name "brisk_call1"
    let signature ← Entry.readText signature "brisk_call1"
    let x ← Guard.checkPointer arg name
    match ← runtime.call name ⟨signature⟩ [x] with
    | .ok y => return .handle y
    | .error e => Op.raise (.internal name e.message)

/-- What the call passes. -/
def Request.object? {α : Type} : Request α → Option α
  | tagOf (.object a) | unboxScalar (.object a) | release (.object a) | call _ _ (.object a) => some a
  | _ => none

/-- What the call gives back. -/
def Request.released? {α : Type} : Request α → Option α
  | release (.object a) => some a
  | _ => none

/-- The objects under the numbers of a client. -/
structure Ledger where
  session : Session
  /-- `none` stands where the handle was released. -/
  slots : List (Option Handle)

namespace Ledger

def value? (l : Ledger) (n : Nat) : Option Handle := l.slots[n]?.join

def without (l : Ledger) : Option Nat → List (Option Handle)
  | some n => l.slots.set n none
  | none => l.slots

def step (runtime : Runtime) (l : Ledger) (q : Request Nat) : Except Stop (Reply Handle) × Ledger :=
  match q.rename l.value? with
  | .error n => (.error (.dangling n), l)
  | .ok x =>
    match x.perform runtime l.session with
    | (.ok r, s) => (.ok r, ⟨s, l.without q.released? ++ r.handle?.toList.map some⟩)
    | (.error f, s) => (.error (.fault f), { l with session := s })

def run (runtime : Runtime) (l : Ledger) (program : List (Request Nat)) : Transcript (Reply Handle) Ledger :=
  transcript (step runtime) l program

end Ledger

theorem Request.eq_release {α : Type} {q : Request α} {a : α} (h : q.released? = some a) : q = .release (.object a) := by
  cases q with
  | release p =>
    cases p with
    | object b => cases h; rfl
    | _ => cases h
  | _ => cases h

/-! ## Runs -/

section Transcripts

variable {σ ι ρ : Type} {step : σ → ι → Except Stop ρ × σ} {s s' : σ} {i : ι} {is : List ι}

theorem transcript_cons_ok {r : ρ} (h : step s i = (.ok r, s')) :
    transcript step s (i :: is) = (transcript step s' is).cons r := by
  simp only [transcript, h]

theorem transcript_cons_error {e : Stop} (h : step s i = (.error e, s')) :
    transcript step s (i :: is) = ⟨[], some e, s'⟩ := by
  simp only [transcript, h]

/-- What comes behind the end of a run is not run. -/
theorem transcript_append_of_stop (h : (transcript step s is).stop ≠ none) (js : List ι) :
    transcript step s (is ++ js) = transcript step s is := by
  induction is generalizing s with
  | nil => exact absurd rfl h
  | cons i is ih =>
    rw [List.cons_append]
    rcases hi : step s i with ⟨e | r, s'⟩
    · rw [transcript_cons_error hi, transcript_cons_error hi]
    · rw [transcript_cons_ok hi] at h
      rw [transcript_cons_ok hi, transcript_cons_ok hi, ih h]

theorem transcript_append (h : (transcript step s is).stop = none) (js : List ι) :
    (transcript step s (is ++ js)).stop = (transcript step (transcript step s is).last js).stop ∧
      (transcript step s (is ++ js)).last = (transcript step (transcript step s is).last js).last := by
  induction is generalizing s with
  | nil => exact ⟨rfl, rfl⟩
  | cons i is ih =>
    rw [List.cons_append]
    rcases hi : step s i with ⟨e | r, s'⟩
    · rw [transcript_cons_error hi] at h
      cases h
    · rw [transcript_cons_ok hi] at h ⊢
      rw [transcript_cons_ok hi]
      exact ih h

end Transcripts

namespace Ledger

variable {runtime : Runtime} {l : Ledger} {n : Nat} {x : Handle}

theorem value?_eq_some : l.value? n = some x ↔ l.slots[n]? = some (some x) := by
  rw [value?, Option.join_eq_some_iff]

theorem step_keeps (h : l.value? n = some x) {q : Request Nat} (hq : q.released? ≠ some n) :
    (l.step runtime q).2.value? n = some x := by
  have kept : (l.without q.released?)[n]? = some (some x) := by
    rw [value?_eq_some] at h
    cases hm : q.released? with
    | none => exact h
    | some m =>
      have : m ≠ n := fun e => hq (e ▸ hm)
      rw [without, List.getElem?_set_ne this]
      exact h
  unfold step
  split
  · exact h
  · split
    · have hlt : n < (l.without q.released?).length := (List.getElem?_eq_some_iff.mp kept).1
      rw [value?_eq_some, List.getElem?_append_left hlt]
      exact kept
    · exact h

theorem run_keeps {program : List (Request Nat)} (h : l.value? n = some x)
    (hprogram : ∀ q ∈ program, q.released? ≠ some n) : (run runtime l program).last.value? n = some x := by
  induction program generalizing l with
  | nil => exact h
  | cons q program ih =>
    have hstep : (step runtime l q).2.value? n = some x := step_keeps h (hprogram q List.mem_cons_self)
    rcases hq : step runtime l q with ⟨e | r, l'⟩
    · rw [hq] at hstep
      rw [run, transcript_cons_error hq]
      exact hstep
    · rw [hq] at hstep
      rw [run, transcript_cons_ok hq]
      exact ih hstep fun q' hq' => hprogram q' (List.mem_cons_of_mem q hq')

theorem run_append_keeps {earlier later : List (Request Nat)} (h : (l.run runtime earlier).last.value? n = some x)
    (hlater : .release (.object n) ∉ later) : (l.run runtime (earlier ++ later)).last.value? n = some x := by
  unfold run at h ⊢
  by_cases hstop : (transcript (step runtime) l earlier).stop = none
  · rw [(transcript_append hstop later).2]
    refine run_keeps h fun q hq hreleased => hlater ?_
    exact Request.eq_release hreleased ▸ hq
  · rw [transcript_append_of_stop hstop]
    exact h

/-- A release of a sound object takes it out of the ledger and does nothing else. -/
theorem step_release (runtime : Runtime) (h : l.value? n = some x) (hx : x.Sound) :
    l.step runtime (.release (.object n)) = (.ok .done, { l with slots := l.slots.set n none }) := by
  have hperform : (Request.release (.object x)).perform runtime l.session = (.ok .done, l.session) := by
    simp only [Request.perform, Op.bind_apply, hx.wellFormed.pointer, Op.pure_apply]
  simp only [step, Request.rename, Pointer.rename, h, Except.map, hperform]
  exact congrArg (fun slots => (Except.ok Reply.done, Ledger.mk l.session slots)) (List.append_nil _)

theorem run_release {earlier : List (Request Nat)} (hended : (l.run runtime earlier).stop = none)
    (h : (l.run runtime earlier).last.value? n = some x) (hx : x.Sound) :
    (l.run runtime (earlier ++ [.release (.object n)])).last.slots =
      (l.run runtime earlier).last.slots.set n none := by
  have hstep := step_release runtime h hx
  unfold run at hended hstep ⊢
  rw [(transcript_append hended _).2, transcript_cons_ok hstep]
  rfl

end Ledger

/-! ## A routine that is not there -/

/-- The text that the bytes up to the first zero byte spell, if they spell one. -/
def ForeignText.spelled? (t : ForeignText) : Option String :=
  t.bind fun bytes => String.fromUTF8? (bytes.takeWhile (· ≠ 0)).toByteArray

theorem Entry.readText_of_spelled {t : ForeignText} {text : String} (h : t.spelled? = some text) (label : String)
    (s : Session) : readText t label s = (.ok text, s) := by
  cases t with
  | none => cases h
  | some bytes =>
    have : String.fromUTF8? (bytes.takeWhile (· ≠ 0)).toByteArray = some text := h
    simp only [readText, this]
    rfl

/-- A call of a routine that is not there. -/
theorem Request.perform_unknown {runtime : Runtime} {name signature : ForeignText} {n t : String} {x : Handle}
    (hname : name.spelled? = some n) (hsignature : signature.spelled? = some t) (hx : x.Sound)
    (hr : runtime.registry.contains n ⟨t⟩ = false) (s : Session) :
    ((call name signature (.object x)).perform runtime s).1 =
      .error (.internal n (UnknownRoutine.message ⟨n, ⟨t⟩⟩)) := by
  have hlookup : runtime.registry.lookup n ⟨t⟩ = none := by simpa [Registry.contains] using hr
  simp only [perform, Op.bind_apply, Entry.readText_of_spelled hname, Entry.readText_of_spelled hsignature,
    hx.wellFormed.pointer, Runtime.call, Registry.call, hlookup, Op.pure_apply, Op.raise_apply]

theorem Ledger.run_unknown {runtime : Runtime} {l : Ledger} {earlier : List (Request Nat)}
    (hended : (l.run runtime earlier).stop = none) {name signature : ForeignText} {n t : String} {k : Nat} {x : Handle}
    (hx : (l.run runtime earlier).last.value? k = some x) (hsound : x.Sound) (hname : name.spelled? = some n)
    (hsignature : signature.spelled? = some t) (hr : runtime.registry.contains n ⟨t⟩ = false)
    (later : List (Request Nat)) :
    (l.run runtime (earlier ++ .call name signature (.object k) :: later)).stop =
      some (.fault (.internal n (UnknownRoutine.message ⟨n, ⟨t⟩⟩))) := by
  have hfault := Request.perform_unknown hname hsignature hsound hr (l.run runtime earlier).last.session
  have hstep : ((l.run runtime earlier).last.step runtime (.call name signature (.object k))).1 =
      .error (.fault (.internal n (UnknownRoutine.message ⟨n, ⟨t⟩⟩))) := by
    simp only [step, Request.rename, Pointer.rename, hx, Except.map]
    rcases hperform : (Request.call name signature (.object x)).perform runtime (l.run runtime earlier).last.session
      with ⟨f | r, s'⟩
    · rw [hperform] at hfault
      cases hfault
      rfl
    · rw [hperform] at hfault
      cases hfault
  unfold run at hended hstep ⊢
  rw [(transcript_append hended _).1, transcript_cons_error (Prod.ext hstep rfl)]

end BoxedRuntime
