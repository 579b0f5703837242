import Reveille.Json.Value

/-!
# Writing JSON

`Value.compact` writes a value without blanks and `Value.pretty` with one item or member a
line, indented by two spaces for each bracket around it; an empty array or object stays on
its line. In strings only the quotation mark, the backslash and the control characters
below U+0020 are escaped. A real number is written as its shortest decimal, and an infinite
one as null.
-/

namespace Reveille.Json

/-! ## Strings -/

/-- A lower case hexadecimal digit. -/
def hexDigit (n : Nat) : Char :=
  if n < 10 then Char.ofNat (48 + n) else Char.ofNat (87 + n)

/-- A character within a JSON string. -/
def escapedChar (ch : Char) : List Char :=
  if ch = '"' then ['\\', '"']
  else if ch = '\\' then ['\\', '\\']
  else if ch = '\x08' then ['\\', 'b']
  else if ch = '\x0c' then ['\\', 'f']
  else if ch = '\n' then ['\\', 'n']
  else if ch = '\r' then ['\\', 'r']
  else if ch = '\t' then ['\\', 't']
  else if ch.toNat < 0x20 then
    ['\\', 'u', '0', '0', hexDigit (ch.toNat / 16), hexDigit (ch.toNat % 16)]
  else [ch]

/-- A text as a JSON string. -/
def stringText (s : String) : List Char := '"' :: s.toList.flatMap escapedChar ++ ['"']

/-! ## Values -/

/-- Where blanks stand in a text. -/
structure Style where
  /-- What stands before an item at a depth. -/
  lineBreak : Nat → List Char
  /-- What stands between a key and its value. -/
  colon : List Char

namespace Style

def compact : Style := ⟨fun _ => [], [':']⟩

def pretty : Style := ⟨fun depth => '\n' :: List.replicate (2 * depth) ' ', [':', ' ']⟩

/-- What stands between an item at a depth and the item or the bracket before it. -/
def separator (style : Style) (depth : Nat) (first : Bool) : List Char :=
  if first then style.lineBreak depth else ',' :: style.lineBreak depth

/-- The closing bracket of an array or an object at a depth. -/
def close (style : Style) (depth : Nat) (bracket : Char) (isEmpty : Bool) : List Char :=
  if isEmpty then [bracket] else style.lineBreak depth ++ [bracket]

end Style

/-- A number as its shortest decimal. -/
def realText (x : Binary Format.binary64) : List Char :=
  if x.isInfinite then ['n', 'u', 'l', 'l'] else x.text .json

mutual

/-- The text of a value that stands within `depth` brackets. -/
def Value.write (style : Style) (depth : Nat) : Value → List Char
  | .null => ['n', 'u', 'l', 'l']
  | .bool true => ['t', 'r', 'u', 'e']
  | .bool false => ['f', 'a', 'l', 's', 'e']
  | .integer n => Text.integer n
  | .real x => realText x
  | .string s => stringText s
  | .array items =>
    '[' :: writeItems style (depth + 1) true items ++ style.close depth ']' items.isEmpty
  | .object members =>
    '\x7b' :: writeMembers style (depth + 1) true members
      ++ style.close depth '\x7d' members.isEmpty

def Value.writeItems (style : Style) (depth : Nat) (first : Bool) : List Value → List Char
  | [] => []
  | v :: vs =>
    style.separator depth first ++ v.write style depth ++ writeItems style depth false vs

def Value.writeMembers (style : Style) (depth : Nat) (first : Bool) :
    List (String × Value) → List Char
  | [] => []
  | (name, v) :: rest =>
    style.separator depth first ++ stringText name ++ style.colon ++ v.write style depth
      ++ writeMembers style depth false rest

end

/-- The text of a value on one line. -/
def Value.compact (v : Value) : String := String.ofList (v.write .compact 0)

/-- The text of a value with a line for each item and member. -/
def Value.pretty (v : Value) : String := String.ofList (v.write .pretty 0)

end Reveille.Json
