/-
  BoxedRuntime.Main — the command-line program.
-/
import BoxedRuntime.Command.Run
import Std.Time.DateTime

namespace BoxedRuntime

/-- The current time to the second, in UTC. -/
def currentTime : IO String := do
  let t := Std.Time.DateTime.ofTimestamp (← Std.Time.Timestamp.now) .UTC
  let digits (width : Nat) (n : Int) : String := String.ofList (Numeral.padLeft width '0' (Numeral.ofInt n))
  return s!"{digits 4 t.year}-{digits 2 t.month.val}-{digits 2 t.day.val}T" ++
    s!"{digits 2 t.hour.val}:{digits 2 t.minute.val}:{digits 2 t.second.val}Z"

end BoxedRuntime

open BoxedRuntime in
def main (arguments : List String) : IO UInt32 := do
  let env : Environment := { logSpec := ← IO.getEnv "RUST_LOG", time := ← currentTime }
  match runArguments arguments env with
  | some outcome =>
    IO.print outcome.stdout
    IO.eprint outcome.stderr
    return outcome.status
  | none =>
    IO.eprint Command.usage
    return 2
