/-
  BoxedRuntime.Proofs.Text.Unescaping — quoted text, read back as a whole.

  Between two quotes a text stands in escaped form. The reader goes through it character
  by character and knows only where it stands: between characters, behind a backslash,
  before the brace of a code point or among its digits, with their value so far. A
  backslash that opens none of the known forms is refused, and so is a number that is no
  character.

  Main statements:
  - `Escape.decode?_text`: reading inverts the escaping of a text.
  - `Escape.unquote?_quoted`: so it does between quotes.
-/
import BoxedRuntime.Proofs.Text.Decoding

namespace BoxedRuntime

/-- The value of a lower-case hexadecimal digit. -/
def Numeral.hexDigit? (c : Char) : Option Nat :=
  if c.isDigit ∨ ('a' ≤ c ∧ c ≤ 'f') then some (hexValue c) else none

theorem Numeral.hexDigit?_digitChar : ∀ d < 16, hexDigit? d.digitChar = some d ∧ d.digitChar ≠ '\x7d' := by decide

namespace Escape

/-! ## Reading -/

/-- Where the reader stands. -/
inductive Place where
  | between
  | backslash
  | brace
  | digits (value : Nat)
  deriving DecidableEq, Repr

/-- The character that a backslash and this one stand for. -/
def short? (c : Char) : Option Char :=
  if c = 't' then some '\t'
  else if c = 'n' then some '\n'
  else if c = 'r' then some '\r'
  else if c = '\'' ∨ c = '"' ∨ c = '\\' then some c
  else none

def decodeFrom? : Place → List Char → Option (List Char)
  | .between, [] => some []
  | .between, c :: r => if c = '\\' then decodeFrom? .backslash r else (decodeFrom? .between r).map (c :: ·)
  | .backslash, c :: r =>
    if c = 'u' then decodeFrom? .brace r
    else (short? c).bind fun d => (decodeFrom? .between r).map (d :: ·)
  | .brace, c :: r => if c = '\x7b' then decodeFrom? (.digits 0) r else none
  | .digits n, c :: r =>
    if c = '\x7d' then
      if n.isValidChar then (decodeFrom? .between r).map (Char.ofNat n :: ·) else none
    else (Numeral.hexDigit? c).bind fun d => decodeFrom? (.digits (16 * n + d)) r
  | _, [] => none

def decode? (cs : List Char) : Option (List Char) := decodeFrom? .between cs

/-- The text between two quotes, read back. -/
def unquote? (quote : Char) : List Char → Option (List Char)
  | [] => none
  | c :: r => if c = quote ∧ r.getLast? = some quote then decode? r.dropLast else none

/-! ## Reading inverts writing -/

theorem decodeFrom?_digits {ds : List Char} (hds : ∀ c ∈ ds, ∃ d < 16, c = d.digitChar) (r : List Char) :
    ∀ n, decodeFrom? (.digits n) (ds ++ r) =
      decodeFrom? (.digits (ds.foldl (fun n c => 16 * n + Numeral.hexValue c) n)) r := by
  induction ds with
  | nil => exact fun _ => rfl
  | cons c ds ih =>
    intro n
    obtain ⟨d, hd, rfl⟩ := hds c List.mem_cons_self
    obtain ⟨hdigit, hbrace⟩ := Numeral.hexDigit?_digitChar d hd
    rw [List.cons_append, decodeFrom?, if_neg hbrace, hdigit, List.foldl_cons, Numeral.hexValue_digitChar d hd]
    exact ih (fun e he => hds e (List.mem_cons_of_mem _ he)) _

theorem decode?_codePoint (c : Char) (r : List Char) : decode? (codePoint c ++ r) = (decode? r).map (c :: ·) := by
  have hdigits := decodeFrom?_digits (Numeral.mem_hex (n := c.toNat)) ('\x7d' :: r) 0
  have hvalue : (Numeral.hex c.toNat).foldl (fun n c => 16 * n + Numeral.hexValue c) 0 = c.toNat :=
    Numeral.ofHex_hex c.toNat
  rw [hvalue] at hdigits
  have hopen : decode? (codePoint c ++ r) = decodeFrom? (.digits 0) (Numeral.hex c.toNat ++ '\x7d' :: r) := by
    simp [decode?, codePoint, decodeFrom?]
  rw [hopen, hdigits, decodeFrom?, if_pos rfl, if_pos (show c.toNat.isValidChar from c.valid), Char.ofNat_toNat]
  rfl

theorem decode?_char (c : Char) (r : List Char) : decode? (char c ++ r) = (decode? r).map (c :: ·) := by
  unfold char
  split
  case isTrue h => subst h; rfl
  case isFalse =>
  split
  case isTrue h => subst h; rfl
  case isFalse =>
  split
  case isTrue h => subst h; rfl
  case isFalse =>
  split
  case isTrue h => rcases h with rfl | rfl | rfl <;> rfl
  case isFalse h =>
  split
  case isTrue =>
    have hc : c ≠ '\\' := fun hc => h (Or.inr (Or.inr hc))
    rw [List.singleton_append, decode?, decodeFrom?, if_neg hc]
    rfl
  case isFalse => exact decode?_codePoint c r

theorem decode?_text (cs : List Char) : decode? (text cs) = some cs := by
  induction cs with
  | nil => rfl
  | cons c cs ih =>
    rw [text, List.flatMap_cons, decode?_char]
    show (decode? (text cs)).map (c :: ·) = _
    rw [ih]
    rfl

theorem unquote?_quoted (quote : Char) (cs : List Char) : unquote? quote (quote :: (text cs ++ [quote])) = some cs := by
  rw [unquote?, List.getLast?_concat, if_pos ⟨rfl, rfl⟩, List.dropLast_concat, decode?_text]

/-- What looks like an escape is text, and a character beyond ASCII is one by its number. -/
example : decode? (text "\\u{41}\tλ".toList) = some "\\u{41}\tλ".toList := by decide

example : decode? "\\x41".toList = none := by decide

end Escape
end BoxedRuntime
