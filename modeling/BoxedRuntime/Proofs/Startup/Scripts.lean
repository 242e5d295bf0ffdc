/-
  BoxedRuntime.Proofs.Startup.Scripts — operations that cannot read the log.

  The log is part of the session, so an operation could look at it. One that is a script
  cannot: it emits records, raises faults and allocates, one step at a time, and goes on by
  the ids that it gets and nothing else. What becomes of a record is then free to choose.
  A logger that drops some of them when they are made leaves the log that a filter would
  have left of the full one, and the operation gives the same and counts the same.

  Main statements:
  - `Script.runWith_showing`: dropping records as they come, or filtering them in the end.
  - `Op.Scripted.bind`, `Startup.Scripted.bind`: one script after the other.
  - `Runtime.scripted_boot`: a boot of modules whose callbacks are scripts.
-/
import Mathlib.Tactic.Choose
import BoxedRuntime.Proofs.Startup.Resolution
import BoxedRuntime.Proofs.Value.Construction

namespace BoxedRuntime

variable {α β C : Type}

/-! ## Scripts -/

inductive Script (α : Type) : Type where
  | done (a : α)
  | emit (r : LogRecord) (rest : Script α)
  /-- The fault is counted and logged; where it goes is for the rest to say. -/
  | raise (f : Fault) (rest : Script α)
  | allocate (rest : Nat → Script α)

/-- What is done with a record that is made in a session. -/
abbrev Logger := Session → LogRecord → Session

namespace Script

def runWith (logger : Logger) : Script α → Session → α × Session
  | done a, s => (a, s)
  | emit r rest, s => rest.runWith logger (logger s r)
  | raise f rest, s =>
    rest.runWith logger (logger { s with faults := s.faults + 1 } (Session.faultRecord (s.faults + 1) f))
  | allocate rest, s => (rest s.nextId).runWith logger { s with nextId := s.nextId + 1 }

/-- Every record is kept. -/
def run (p : Script α) : Session → α × Session := p.runWith Session.write

def bind : Script α → (α → Script β) → Script β
  | done a, k => k a
  | emit r rest, k => emit r (rest.bind k)
  | raise f rest, k => raise f (rest.bind k)
  | allocate rest, k => allocate fun id => (rest id).bind k

theorem runWith_bind (logger : Logger) (p : Script α) (k : α → Script β) :
    ∀ s, (p.bind k).runWith logger s = (k (p.runWith logger s).1).runWith logger (p.runWith logger s).2 := by
  induction p with
  | done a => exact fun _ => rfl
  | emit r rest ih => exact fun s => ih (logger s r)
  | raise f rest ih => exact fun s => ih (logger { s with faults := s.faults + 1 } _)
  | allocate rest ih => exact fun s => ih s.nextId { s with nextId := s.nextId + 1 }

theorem run_bind (p : Script α) (k : α → Script β) (s : Session) :
    (p.bind k).run s = (k (p.run s).1).run (p.run s).2 := runWith_bind Session.write p k s

/-- After a value it goes on; a fault is all there is. -/
def orFault (k : α → Script (Except Fault β)) : Except Fault α → Script (Except Fault β)
  | .ok a => k a
  | .error f => done (.error f)

/-- The same with a context that is being filled. -/
def orFaultIn (k : α → C → Script (Except Fault β × C)) : Except Fault α × C → Script (Except Fault β × C)
  | (.ok a, c) => k a c
  | (.error f, c) => done (.error f, c)

end Script

/-! ## Dropping records -/

/-- Only what is shown is written down. -/
def Logger.showing (shows : LogRecord → Bool) : Logger := fun s r => if shows r then s.write r else s

def Session.shown (shows : LogRecord → Bool) (s : Session) : Session := { s with log := s.log.filter shows }

theorem Session.shown_write (shows : LogRecord → Bool) (s : Session) (r : LogRecord) :
    (s.write r).shown shows = Logger.showing shows (s.shown shows) r := by
  unfold Session.shown Session.write Logger.showing
  rw [Array.filter_push]
  cases shows r <;> rfl

theorem Script.runWith_showing (shows : LogRecord → Bool) (p : Script α) :
    ∀ s, p.runWith (Logger.showing shows) (s.shown shows) = ((p.run s).1, (p.run s).2.shown shows) := by
  induction p with
  | done a => exact fun _ => rfl
  | emit r rest ih =>
    intro s
    have := ih (s.write r)
    rwa [Session.shown_write] at this
  | raise f rest ih =>
    intro s
    have := ih (s.raised f)
    rwa [Session.raised, Session.shown_write] at this
  | allocate rest ih => exact fun s => ih s.nextId { s with nextId := s.nextId + 1 }

/-! ## Operations that are scripts -/

def Op.Scripted (x : Op α) : Prop := ∃ p : Script (Except Fault α), ∀ s, p.run s = x s

namespace Op.Scripted

theorem pure (a : α) : Op.Scripted (Pure.pure a) := ⟨.done (.ok a), fun _ => rfl⟩

theorem emit (r : LogRecord) : (Op.emit r).Scripted := ⟨.emit r (.done (.ok ())), fun _ => rfl⟩

theorem raise (f : Fault) : (Op.raise f : Op α).Scripted := ⟨.raise f (.done (.error f)), fun _ => rfl⟩

theorem box (payload : Payload) : (Op.box payload).Scripted :=
  ⟨.allocate fun id => .done (.ok ⟨id, liveMagic, payload.tag, payload⟩), fun _ => rfl⟩

theorem bind {x : Op α} {k : α → Op β} (hx : x.Scripted) (hk : ∀ a, (k a).Scripted) : (x >>= k).Scripted := by
  obtain ⟨p, hp⟩ := hx
  choose q hq using hk
  refine ⟨p.bind (Script.orFault q), fun s => ?_⟩
  rw [Script.run_bind, hp s, Op.bind_apply]
  rcases x s with ⟨f | a, s'⟩
  · rfl
  · exact hq a s'

/-- Only what the first one gives has to be gone on with. -/
theorem bind_of_gives {x : Op α} {k : α → Op β} {a : α} (hx : x.Scripted) (ha : x.Gives a) (hk : (k a).Scripted) :
    (x >>= k).Scripted := by
  have heq : x >>= k = x >>= fun _ => k a := by
    funext s
    rw [Op.bind_apply, Op.bind_apply, ha.apply s]
  rw [heq]
  exact hx.bind fun _ => hk

theorem map {x : Op α} (hx : x.Scripted) (f : α → β) : (f <$> x).Scripted := by
  rw [map_eq_pure_bind]
  exact hx.bind fun a => .pure (f a)

theorem foldlM {f : β → α → Op β} {l : List α} (hf : ∀ a ∈ l, ∀ b, (f b a).Scripted) (b : β) :
    (l.foldlM f b).Scripted := by
  induction l generalizing b with
  | nil => exact .pure b
  | cons a l ih =>
    rw [List.foldlM_cons]
    exact (hf a List.mem_cons_self b).bind (ih fun a' ha' => hf a' (List.mem_cons_of_mem a ha'))

theorem of_settles {x : Op Handle} {o : Except Fault Payload} (h : x.Settles o) : x.Scripted := by
  cases o with
  | ok p => rw [show x = Op.box p from funext h]; exact .box p
  | error f => rw [show x = Op.raise f from funext h]; exact .raise f

end Op.Scripted

/-- In each context that is being filled, a script that goes on to fill it. -/
def Startup.Scripted (x : Startup C α) : Prop :=
  ∀ c, ∃ p : Script (Except Fault α × C), ∀ s, x (c, s) = ((p.run s).1.1, (p.run s).1.2, (p.run s).2)

namespace Startup.Scripted

theorem pure (a : α) : Startup.Scripted (Pure.pure a : Startup C α) := fun c => ⟨.done (.ok a, c), fun _ => rfl⟩

theorem reading {f : C → Op α} (hf : ∀ c, (f c).Scripted) : (Startup.reading f).Scripted := by
  intro c
  obtain ⟨p, hp⟩ := hf c
  refine ⟨p.bind fun r => .done (r, c), fun s => ?_⟩
  rw [Script.run_bind, hp s]
  rfl

theorem lift {x : Op α} (hx : x.Scripted) : (monadLift x : Startup C α).Scripted := reading fun _ => hx

theorem update (f : C → C) : (Startup.update f).Scripted := fun c => ⟨.done (.ok (), f c), fun _ => rfl⟩

theorem bind {x : Startup C α} {k : α → Startup C β} (hx : x.Scripted) (hk : ∀ a, (k a).Scripted) :
    (x >>= k).Scripted := by
  intro c
  obtain ⟨p, hp⟩ := hx c
  choose q hq using hk
  refine ⟨p.bind (Script.orFaultIn q), fun s => ?_⟩
  rw [Script.run_bind, Startup.bind_apply, hp s]
  rcases p.run s with ⟨⟨f | a, c'⟩, s'⟩
  · rfl
  · exact hq a c' s'

theorem forM {f : α → Startup C Unit} {l : List α} (hf : ∀ a ∈ l, (f a).Scripted) : (l.forM f).Scripted := by
  induction l with
  | nil => exact .pure ()
  | cons a l ih => exact (hf a List.mem_cons_self).bind fun _ => ih fun b hb => hf b (List.mem_cons_of_mem a hb)

theorem runFrom {x : Startup C α} (hx : x.Scripted) (c : C) : (x.runFrom c).Scripted := by
  obtain ⟨p, hp⟩ := hx c
  refine ⟨p.bind fun r => .done (r.1.map (·, r.2)), fun s => ?_⟩
  rw [Script.run_bind]
  unfold Startup.runFrom ExceptT.mk
  dsimp only
  rw [hp s]
  rcases p.run s with ⟨⟨f | a, c'⟩, s'⟩ <;> rfl

end Startup.Scripted

/-! ## Booting -/

/-- The callbacks of a module. -/
structure Initializer.Scripted (i : Initializer C) : Prop where
  register : i.register.Scripted
  query : ∀ c, (i.query c).Scripted

namespace Chain

theorem scripted_link (c : Chain C) (i : Initializer C) : (c.link i).Scripted := by
  unfold link
  split
  · exact (Op.Scripted.emit _).bind fun _ => (Op.Scripted.emit _).bind fun _ => .pure _
  · exact (Op.Scripted.emit _).bind fun _ => .pure _

theorem scripted_registerAll {is : List (Initializer C)} (h : ∀ i ∈ is, i.register.Scripted) :
    (registerAll is).Scripted :=
  .forM fun i hi => (Startup.Scripted.lift (.emit _)).bind fun _ => h i hi

theorem scripted_queryPass {is : List (Initializer C)} {context : C} (h : ∀ i ∈ is, (i.query context).Scripted) :
    (queryPass is context).Scripted := by
  refine Op.Scripted.foldlM (fun i hi report => (h i hi).bind fun verdict => ?_) _
  cases verdict with
  | ok _ => exact .pure _
  | error complaint => exact (Op.Scripted.emit _).bind fun _ => .pure _

theorem scripted_run {c : Chain C} (h : ∀ i ∈ c.walk, i.Scripted) : c.run.Scripted := by
  have hrun : c.run = registerAll c.walk >>= fun _ => Startup.reading (queryPass c.walk) := by
    simp only [run, registerPass, registerFrom_eq, List.nil_append, bind_assoc, pure_bind]
  rw [hrun]
  refine (scripted_registerAll fun i hi => (h i hi).register).bind fun _ => .reading fun context => ?_
  exact scripted_queryPass fun i hi => (h i hi).query context

end Chain

theorem Registry.scripted_register (name : String) (signature : Signature) (routine : Routine) :
    (register name signature routine).Scripted := by
  refine (Startup.Scripted.lift (.emit _)).bind fun _ => ?_
  refine (Startup.Scripted.reading fun r => .pure _).bind fun known => ?_
  refine (Startup.Scripted.update _).bind fun _ => ?_
  cases known with
  | true => exact .lift (.emit _)
  | false => exact .pure ()

theorem Builtin.scripted {m : Module} (hm : m ∈ Builtin.modules) : m.Scripted := by
  simp only [Builtin.modules, List.mem_cons, List.not_mem_nil, or_false] at hm
  rcases hm with rfl | rfl
  · exact ⟨.forM fun c _ => Registry.scripted_register c.name c.signature c.routine, fun _ => .pure _⟩
  · exact ⟨Registry.scripted_register _ _ _, fun _ => .pure _⟩

theorem Runtime.scripted_boot {extensions extra : List Module} (h : ∀ m ∈ extensions ++ extra, m.Scripted) :
    (boot extensions extra).Scripted := by
  have hlink : (Boot.linkModules extensions extra).Scripted :=
    Op.Scripted.foldlM (fun m _ chain => Chain.scripted_link chain m) _
  have hchain : (Boot.linkModules extensions extra).Gives
      ⟨(Boot.linkOrder extensions extra).reverse, (Boot.linkOrder extensions extra).length⟩ := by
    intro s
    rw [Boot.linkModules, Chain.linkAll_empty]
  have hwalk : ∀ m ∈ (Boot.linkOrder extensions extra).reverse, m.Scripted := by
    intro m hm
    rw [List.mem_reverse, mem_linkOrder] at hm
    exact hm.elim Builtin.scripted (h m)
  refine hlink.bind_of_gives hchain ?_
  refine (Op.Scripted.emit _).bind fun _ => ?_
  refine ((Chain.scripted_run hwalk).runFrom Registry.empty).bind fun _ => ?_
  exact (Op.Scripted.emit _).bind fun _ => .pure _

end BoxedRuntime
