/-
  BoxedRuntime.Text.Quoted — names in diagnostics: a text between double quotes.

  Printable characters stand for themselves, the single quote included. NUL, tab, line
  feed, carriage return, the double quote and the backslash have two-character forms.
  What cannot be shown, or not on its own, is written by code point.
-/
import BoxedRuntime.Text.Escape
import BoxedRuntime.Text.Printable

namespace BoxedRuntime.Quoted

def char (c : Char) : List Char :=
  if c = '\x00' then ['\\', '0']
  else if c = '\t' then ['\\', 't']
  else if c = '\n' then ['\\', 'n']
  else if c = '\r' then ['\\', 'r']
  else if c = '"' ∨ c = '\\' then ['\\', c]
  else if Text.isPrintable c && !Text.isCombining c then [c]
  else Escape.codePoint c

def text (s : String) : String := String.ofList ('"' :: (s.toList.flatMap char ++ ['"']))

/-- A list of names, between brackets. -/
def list (names : List String) : String := "[" ++ ", ".intercalate (names.map text) ++ "]"

end BoxedRuntime.Quoted
