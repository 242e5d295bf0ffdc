/-
  BoxedRuntime.Value.Display — the printed form of a value.

  A byte is eight binary digits and a `b`, characters and strings are quoted and escaped,
  a list is bracketed, a record is its fields in braces with the keys as they are. The
  form depends on the payload alone; `debug` adds the tag of the header.
-/
import BoxedRuntime.Value.Basic
import BoxedRuntime.Binary64.Text
import BoxedRuntime.Text.Escape

namespace BoxedRuntime

mutual

def Handle.text : Handle → List Char
  | ⟨_, _, _, p⟩ => Payload.text p

def Payload.text : Payload → List Char
  | .null => ['n', 'u', 'l', 'l']
  | .bool true => ['t', 'r', 'u', 'e']
  | .bool false => ['f', 'a', 'l', 's', 'e']
  | .byte b => Numeral.padLeft 8 '0' (Numeral.binary b.toNat) ++ ['b']
  | .char c => '\'' :: (Escape.char c ++ ['\''])
  | .int n => Numeral.ofInt64 n
  | .real x => x.text
  | .string s => '"' :: (Escape.text s.toList ++ ['"'])
  | .list xs => '[' :: (itemsText xs ++ [']'])
  | .record fs => '\x7b' :: (fieldsText fs ++ ['\x7d'])

/-- The items, with a comma between any two. -/
def itemsText : List Handle → List Char
  | [] => []
  | [x] => x.text
  | x :: y :: r => x.text ++ ',' :: itemsText (y :: r)

/-- Key, colon and value of each field, with a comma between any two. -/
def fieldsText : List (String × Handle) → List Char
  | [] => []
  | [(k, x)] => k.toList ++ ':' :: x.text
  | (k, x) :: f :: r => k.toList ++ ':' :: (x.text ++ ',' :: fieldsText (f :: r))

end

def Handle.display (x : Handle) : String := String.ofList x.text

def Handle.debug (x : Handle) : String := x.tag.name ++ "(" ++ x.display ++ ")"

end BoxedRuntime
