/-
  BoxedRuntime.Literal — values as written on a command line.

  A literal is a tag name, a colon and a text, such as `int:42`, `char:A` or
  `string:a:b`, or the word `null`. Numerals of bytes and characters are read as machine
  words first: one that is no word is no literal, one outside the kind's domain is the
  fault of boxing it.
-/
import BoxedRuntime.Binary64.Reader
import BoxedRuntime.Boxing

namespace BoxedRuntime

inductive LiteralError where
  | missingTag (literal : String)
  | unknownTag (name : String)
  | badValue (tag : Tag) (text : String)
  | notWritable (tag : Tag)
  deriving DecidableEq, Repr

def LiteralError.message : LiteralError → String
  | missingTag literal => s!"expected <tag>:<value>, got `{literal}`"
  | unknownTag name => s!"unknown type tag `{name}`"
  | badValue tag text => s!"`{text}` is not a valid {tag.name} literal"
  | notWritable tag => s!"{tag.name} values cannot be written on the command line"

namespace Literal

/-- The texts before and after the first colon. -/
def splitTag? (cs : List Char) : Option (List Char × List Char) :=
  match cs.dropWhile (· ≠ ':') with
  | [] => none
  | _ :: text => some (cs.takeWhile (· ≠ ':'), text)

/-- A single character other than a digit is itself; anything else must be a code point. -/
def charWord? : List Char → Option Int64
  | [c] => if c.isDigit then Numeral.readInt64? [c] else some (Int64.ofNat c.toNat)
  | cs => Numeral.readInt64? cs

def readBool? (cs : List Char) : Option Bool :=
  if cs = "true".toList then some true else if cs = "false".toList then some false else none

/-- What a text denotes under a tag; `none` if it is no literal of it. -/
def value? (tag : Tag) (text : List Char) : Option (Op Handle) :=
  match tag with
  | .null => some Boxing.null
  | .bool => (readBool? text).map Boxing.bool
  | .byte => (Numeral.readInt64? text).map Boxing.byte
  | .char => (charWord? text).map Boxing.char
  | .int => (Numeral.readInt64? text).map Boxing.int
  | .real => (Binary64.read? text).map Boxing.real
  | .string => some (Boxing.string (String.ofList text))
  | .list | .record => none

def writable : Tag → Bool
  | .list | .record => false
  | _ => true

def read (literal : String) : Op (Except LiteralError Handle) :=
  if literal = "null" then .ok <$> Boxing.null
  else match splitTag? literal.toList with
    | none => return .error (.missingTag literal)
    | some (name, text) =>
      match Tag.ofName? (String.ofList name) with
      | none => return .error (.unknownTag (String.ofList name))
      | some tag =>
        if !writable tag then return .error (.notWritable tag)
        else match value? tag text with
          | none => return .error (.badValue tag (String.ofList text))
          | some make => .ok <$> make

end Literal
end BoxedRuntime
