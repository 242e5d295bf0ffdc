/-
  BoxedRuntime.Session — running operations.

  A session is what operations share: the number of faults raised so far, the log, and
  the next fresh object. An operation gives a value or ends in a fault, and in both
  cases leaves a session behind: what was counted, logged or allocated before a fault
  stays. `attempt` turns a fault into a value.

  Every object comes into being by `allocate`, with an `id` that no earlier object has.
-/
import BoxedRuntime.Fault
import BoxedRuntime.Log
import BoxedRuntime.Text.Numeral
import BoxedRuntime.Value.Basic

namespace BoxedRuntime

structure Session where
  faults : Nat := 0
  log : Array LogRecord := #[]
  nextId : Nat := 0

namespace Session

def write (s : Session) (r : LogRecord) : Session := { s with log := s.log.push r }

/-- The record of the `number`th fault. -/
def faultRecord (number : Nat) (f : Fault) : LogRecord :=
  ⟨.debug, "brisk_runtime::fault",
    "[fault #" ++ String.ofList (Numeral.padLeft 4 '0' (Numeral.decimal number)) ++ "] " ++ f.message⟩

/-- A raised fault is counted and logged. -/
def raised (s : Session) (f : Fault) : Session :=
  { s with faults := s.faults + 1 }.write (faultRecord (s.faults + 1) f)

end Session

abbrev Op := ExceptT Fault (StateM Session)

namespace Op

variable {α : Type}

def emit (r : LogRecord) : Op Unit := ExceptT.mk fun s => (.ok (), s.write r)

def raise (f : Fault) : Op α := ExceptT.mk fun s => (.error f, s.raised f)

/-- Run `x` and hand over its fault, if it ends in one, as a value. -/
def attempt (x : Op α) : Op (Except Fault α) := ExceptT.mk fun s =>
  match x s with
  | (r, s') => (.ok r, s')

def faultCount : Op Nat := ExceptT.mk fun s => (.ok s.faults, s)

/-- A new object with these header words. -/
def allocate (magic : UInt32) (tag : Tag) (payload : Payload) : Op Handle := ExceptT.mk fun s =>
  (.ok ⟨s.nextId, magic, tag, payload⟩, { s with nextId := s.nextId + 1 })

/-- A new object with the header its payload calls for. -/
def box (payload : Payload) : Op Handle := allocate liveMagic payload.tag payload

/-! ## Running step by step -/

theorem pure_apply (a : α) (s : Session) : (pure a : Op α) s = (.ok a, s) := rfl

theorem bind_apply {β : Type} (x : Op α) (f : α → Op β) (s : Session) :
    (x >>= f) s = match x s with
      | (.ok a, s') => f a s'
      | (.error e, s') => (.error e, s') := by
  show (ExceptT.bind x f) s = _
  simp only [ExceptT.bind, ExceptT.mk, bind, StateT.bind]
  rcases x s with ⟨_ | _, _⟩ <;> rfl

theorem emit_apply (r : LogRecord) (s : Session) : emit r s = (.ok (), s.write r) := rfl

theorem raise_apply (f : Fault) (s : Session) : (raise f : Op α) s = (.error f, s.raised f) := rfl

theorem attempt_apply (x : Op α) (s : Session) : attempt x s = (.ok (x s).1, (x s).2) := rfl

theorem box_apply (p : Payload) (s : Session) :
    box p s = (.ok ⟨s.nextId, liveMagic, p.tag, p⟩, { s with nextId := s.nextId + 1 }) := rfl

end Op

/-! ## Startup -/

/-- An operation on a context that is being filled; the context, like the session, keeps
    what was done before a fault. -/
abbrev Startup (C : Type) := ExceptT Fault (StateM (C × Session))

namespace Startup

variable {C α : Type}

instance : MonadLift Op (Startup C) where
  monadLift x := ExceptT.mk fun (c, s) =>
    match x s with
    | (r, s') => (r, c, s')

def update (f : C → C) : Startup C Unit := ExceptT.mk fun (c, s) => (.ok (), f c, s)

/-- An operation that reads the context. -/
def reading (f : C → Op α) : Startup C α := ExceptT.mk fun (c, s) =>
  match f c s with
  | (r, s') => (r, c, s')

theorem lift_apply (x : Op α) (c : C) (s : Session) :
    (monadLift x : Startup C α) (c, s) = ((x s).1, c, (x s).2) := rfl

theorem emit_apply (r : LogRecord) (c : C) (s : Session) :
    (liftM (Op.emit r) : Startup C Unit) (c, s) = (.ok (), c, s.write r) := rfl

theorem update_apply (f : C → C) (c : C) (s : Session) : update f (c, s) = (.ok (), f c, s) := rfl

theorem bind_apply {β : Type} (x : Startup C α) (f : α → Startup C β) (p : C × Session) :
    (x >>= f) p = match x p with
      | (.ok a, p') => f a p'
      | (.error e, p') => (.error e, p') := by
  show (ExceptT.bind x f) p = _
  simp only [ExceptT.bind, ExceptT.mk, bind, StateT.bind]
  rcases x p with ⟨_ | _, _⟩ <;> rfl

/-- Run from a context and give it back filled; after a fault it is lost. -/
def runFrom (x : Startup C α) (c : C) : Op (α × C) := ExceptT.mk fun s =>
  match x (c, s) with
  | (.ok a, c', s') => (.ok (a, c'), s')
  | (.error f, _, s') => (.error f, s')

end Startup
end BoxedRuntime
