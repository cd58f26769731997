import ChatBot.Json.Basic
import ChatBot.Number.Plain

/-!
# Writing JSON

The compact text of a JSON value: no blanks, fields in the order of their names, and in strings
only the quote, the backslash and the control characters escaped. A number that is not whole is
written with the fewest digits that read back, in plain notation from `10 ^ -5` up to `10 ^ 16`
and with a signed exponent outside; it always shows that it is not a whole number.
-/

set_option autoImplicit false

namespace ChatBot.Json

open ChatBot.Number

/-- A decimal with one digit before the point and a signed exponent. -/
def scientific (d : Decimal) : List Char :=
  let digits := decimalDigits d.digits
  let exponent := Int.ofNat digits.length - 1 + d.exponent
  let mark := if exponent < 0 then '-' else '+'
  let tail := 'e' :: mark :: decimalDigits exponent.natAbs
  match digits with
  | [] => tail
  | [c] => c :: tail
  | c :: rest => c :: '.' :: rest ++ tail

/-- The text of a number that is not held as a whole one. -/
def floatChars (x : Float) : List Char :=
  match Binary.ofFloat x with
  | .finite negative m q =>
    let d := shortest .even m q
    let top := Int.ofNat (decimalDigits d.digits).length - 1 + d.exponent
    let text := if -5 ≤ top && top < 16 then d.positional 1 else scientific d
    if negative then '-' :: text else text
  | _ => "null".toList

/-- A character inside a JSON string. -/
def escapedChar (c : Char) : List Char :=
  if c == '"' then ['\\', '"']
  else if c == '\\' then ['\\', '\\']
  else if c == '\n' then ['\\', 'n']
  else if c == '\r' then ['\\', 'r']
  else if c == '\t' then ['\\', 't']
  else if c == '\x08' then ['\\', 'b']
  else if c == '\x0c' then ['\\', 'f']
  else if c.toNat < 0x20 then
    ['\\', 'u', '0', '0', Text.hexDigit (c.toNat / 16), Text.hexDigit (c.toNat % 16)]
  else [c]

/-- A JSON string. -/
def stringChars (s : String) : List Char :=
  '"' :: s.toList.flatMap escapedChar ++ ['"']

mutual

/-- The text of a value. -/
def chars : Json → List Char
  | null => "null".toList
  | bool true => "true".toList
  | bool false => "false".toList
  | int n => (wholeText n).toList
  | float x => floatChars x
  | str s => stringChars s
  | arr items => '[' :: itemsChars items
  | obj fields => '\x7b' :: fieldsChars fields

/-- The text of the items of a list, with the closing bracket. -/
def itemsChars : List Json → List Char
  | [] => [']']
  | [v] => v.chars ++ [']']
  | v :: w :: rest => v.chars ++ ',' :: itemsChars (w :: rest)

/-- The text of the fields of an object, with the closing bracket. -/
def fieldsChars : List (String × Json) → List Char
  | [] => ['\x7d']
  | [(k, v)] => stringChars k ++ ':' :: v.chars ++ ['\x7d']
  | (k, v) :: f :: rest => stringChars k ++ ':' :: v.chars ++ ',' :: fieldsChars (f :: rest)

end

/-- The compact text of a value. -/
def render (v : Json) : String :=
  String.ofList v.chars

/-- A value inside other text: a string stands for itself, null for nothing. -/
def text : Json → String
  | str s => s
  | null => ""
  | v => v.render

end ChatBot.Json
