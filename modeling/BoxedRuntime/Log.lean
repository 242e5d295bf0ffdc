/-
  BoxedRuntime.Log — log records.

  A record has a level, a target (the part of the program that speaks) and a message.
  What happens to records is for whoever runs the program to say; here they are kept in
  the order in which they were made.
-/

namespace BoxedRuntime

inductive Level where
  | error
  | warn
  | info
  | debug
  | trace
  deriving DecidableEq, Repr

namespace Level

def name : Level → String
  | error => "ERROR"
  | warn => "WARN"
  | info => "INFO"
  | debug => "DEBUG"
  | trace => "TRACE"

/-- One more than the place in the order from `error` to `trace`; zero is left for off. -/
def verbosity : Level → Nat
  | error => 1
  | warn => 2
  | info => 3
  | debug => 4
  | trace => 5

end Level

structure LogRecord where
  level : Level
  target : String
  message : String
  deriving DecidableEq, Repr

end BoxedRuntime
