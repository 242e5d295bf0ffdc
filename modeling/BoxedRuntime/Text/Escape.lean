/-
  BoxedRuntime.Text.Escape — text in the printed form of a value.

  Printable ASCII stands for itself, except the two quotes and the backslash; those and
  tab, line feed and carriage return have a two-character form; all other characters are
  written by code point. The result is printable ASCII only.
-/
import BoxedRuntime.Text.Numeral

namespace BoxedRuntime.Escape

/-- A character by its code point. -/
def codePoint (c : Char) : List Char := ['\\', 'u', '\x7b'] ++ Numeral.hex c.toNat ++ ['\x7d']

def char (c : Char) : List Char :=
  if c = '\t' then ['\\', 't']
  else if c = '\n' then ['\\', 'n']
  else if c = '\r' then ['\\', 'r']
  else if c = '\'' ∨ c = '"' ∨ c = '\\' then ['\\', c]
  else if ' ' ≤ c ∧ c ≤ '~' then [c]
  else codePoint c

def text (cs : List Char) : List Char := cs.flatMap char

end BoxedRuntime.Escape
