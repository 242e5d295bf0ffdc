/-
  BoxedRuntime.Client — a run of compiled code, call by call.

  Compiled code makes, reads, passes on and gives back objects by the calls of
  `BoxedRuntime.Boundary`. A `Request` is one such call and what is passed with it, a
  `Reply` what comes back. A client keeps every pointer that it was handed and speaks of
  them by number, in the order in which they came. Two numbers may stand for pointers to
  one object, each with a reference of its own.

  A call that ends in a fault ends the run, with the status of the fault's kind.
-/
import BoxedRuntime.Boundary

namespace BoxedRuntime

/-! ## Requests and replies -/

/-- The same pointer with its object named in another way; a name that stands for nothing
    is the error. -/
def Pointer.rename {α β : Type} (f : α → Option β) : Pointer α → Except α (Pointer β)
  | stray address words => .ok (.stray address words)
  | object name =>
    match f name with
    | some b => .ok (.object b)
    | none => .error name

/-- A call of compiled code; `α` is how it names the object that it passes. -/
inductive Request (α : Type) where
  | boxNull
  | boxBool (b : Bool)
  | boxInt (n : Int64)
  | boxByte (raw : Int64)
  | boxChar (raw : Int64)
  | tagOf (p : Pointer α)
  | unboxScalar (p : Pointer α)
  | release (p : Pointer α)
  | call (name signature : ForeignText) (arg : Pointer α)

/-- What a call gives back; `α` is how the object handed over is named. -/
inductive Reply (α : Type) where
  | handle (name : α)
  | tag (raw : UInt32)
  | word (n : Int64)
  | done
  deriving DecidableEq, Repr

def Reply.handle? {α : Type} : Reply α → Option α
  | handle name => some name
  | _ => none

namespace Request

def rename {α β : Type} (f : α → Option β) : Request α → Except α (Request β)
  | boxNull => .ok .boxNull
  | boxBool b => .ok (.boxBool b)
  | boxInt n => .ok (.boxInt n)
  | boxByte raw => .ok (.boxByte raw)
  | boxChar raw => .ok (.boxChar raw)
  | tagOf p => (p.rename f).map .tagOf
  | unboxScalar p => (p.rename f).map .unboxScalar
  | release p => (p.rename f).map .release
  | call name signature arg => (arg.rename f).map (.call name signature)

/-- The call itself, on addresses. -/
def enter : Request Nat → Entry (Reply Nat)
  | boxNull => .handle <$> Entry.boxNull
  | boxBool b => .handle <$> Entry.boxBool b
  | boxInt n => .handle <$> Entry.boxInt n
  | boxByte raw => .handle <$> Entry.boxByte raw
  | boxChar raw => .handle <$> Entry.boxChar raw
  | tagOf p => .tag <$> Entry.tagOf p
  | unboxScalar p => .word <$> Entry.unboxScalar p
  | release p => do
    Entry.release p
    return .done
  | call name signature arg => .handle <$> Entry.call name signature arg

end Request

/-! ## Runs -/

/-- The replies that came, why there were no more if the run was cut short, and what it
    left behind. -/
structure Transcript (ρ σ : Type) where
  replies : List ρ
  stop : Option Stop
  last : σ

def Transcript.cons {ρ σ : Type} (r : ρ) (t : Transcript ρ σ) : Transcript ρ σ := { t with replies := r :: t.replies }

/-- One input after the other, up to the first that ends the run. -/
def transcript {σ ι ρ : Type} (step : σ → ι → Except Stop ρ × σ) (s : σ) : List ι → Transcript ρ σ
  | [] => ⟨[], none, s⟩
  | i :: is =>
    match step s i with
    | (.error e, s') => ⟨[], some e, s'⟩
    | (.ok r, s') => (transcript step s' is).cons r

structure Client where
  boundary : Boundary := {}
  session : Session := {}
  /-- Every pointer that it was handed, also those it has released. -/
  pointers : List Nat := []

namespace Client

/-- The object behind a handle. -/
def value? (c : Client) (n : Nat) : Option Handle := c.pointers[n]?.bind c.boundary.find?

/-- One call. Of a handle that was never handed out nothing is known. -/
def step (c : Client) (q : Request Nat) : Except Stop (Reply Nat) × Client :=
  match q.rename (c.pointers[·]?) with
  | .error n => (.error (.dangling n), c)
  | .ok q =>
    match q.enter (c.boundary, c.session) with
    | (.ok r, boundary, session) => (.ok r, ⟨boundary, session, c.pointers ++ r.handle?.toList⟩)
    | (.error e, boundary, session) => (.error e, ⟨boundary, session, c.pointers⟩)

def run (c : Client) (program : List (Request Nat)) : Transcript (Reply Nat) Client := transcript step c program

end Client

/-! ## Ends -/

/-- What is left to whoever started the run. -/
structure Exit where
  status : UInt32 := 0
  stderr : String := ""
  deriving DecidableEq, Repr

def Fault.exit (f : Fault) : Exit := ⟨f.kind.exitStatus, f.diagnostic⟩

/-- How the run ends; `none` after a pointer that stands for nothing. -/
def Transcript.exit? {ρ σ : Type} (t : Transcript ρ σ) : Option Exit :=
  match t.stop with
  | none => some {}
  | some (.fault f) => some f.exit
  | some (.dangling _) => none

end BoxedRuntime
