import ChatBot.Json.Basic
import ChatBot.Number.Reader
import ChatBot.Text.Search

/-!
# Reading JSON

Reads one JSON value from a text; blanks may surround it and nothing else may follow. At most 127
lists and objects may stand inside one another. A number with a fraction or an exponent, or one
that does not fit sixty-four bits, is worked out from its first digits, as many as fit, scaled by
one power of ten; numbers beyond the largest one are refused.
-/

set_option autoImplicit false

namespace ChatBot.Json

open ChatBot.Number ChatBot.Text

/-- The blanks that may stand between the parts of a JSON text. -/
def isSpace (c : Char) : Bool :=
  c == ' ' || c == '\n' || c == '\t' || c == '\r'

/-- The value of a hexadecimal digit. -/
def hexValue? (c : Char) : Option Nat :=
  let n := c.toNat
  if 0x30 ≤ n && n ≤ 0x39 then some (n - 0x30)
  else if 0x41 ≤ n && n ≤ 0x46 then some (n - 0x37)
  else if 0x61 ≤ n && n ≤ 0x66 then some (n - 0x57)
  else none

/-- The value of four hexadecimal digits. -/
def hexValue4? (a b c d : Char) : Option Nat :=
  match hexValue? a, hexValue? b, hexValue? c, hexValue? d with
  | some a, some b, some c, some d => some (((a * 16 + b) * 16 + c) * 16 + d)
  | _, _, _, _ => none

/-- The character of a one-letter escape. -/
def simpleEscape? (c : Char) : Option Char :=
  match c with
  | '"' => some '"'
  | '\\' => some '\\'
  | '/' => some '/'
  | 'b' => some '\x08'
  | 'f' => some '\x0c'
  | 'n' => some '\n'
  | 'r' => some '\r'
  | 't' => some '\t'
  | _ => none

/-- Reads the characters of a string up to the closing quote, and what follows it. -/
def readString? : List Char → Option (List Char × List Char)
  | [] => none
  | '"' :: rest => some ([], rest)
  | '\\' :: 'u' :: a :: b :: c :: d :: rest =>
    match hexValue4? a b c d with
    | none => none
    | some n =>
      if 0xdc00 ≤ n && n ≤ 0xdfff then none
      else if 0xd800 ≤ n && n ≤ 0xdbff then
        match rest with
        | '\\' :: 'u' :: e :: f :: g :: h :: rest =>
          match hexValue4? e f g h with
          | some m =>
            if 0xdc00 ≤ m && m ≤ 0xdfff then
              (readString? rest).map fun (cs, after) =>
                (Char.ofNat (0x10000 + (n - 0xd800) * 0x400 + (m - 0xdc00)) :: cs, after)
            else none
          | none => none
        | _ => none
      else (readString? rest).map fun (cs, after) => (Char.ofNat n :: cs, after)
  | '\\' :: c :: rest =>
    match simpleEscape? c with
    | some c => (readString? rest).map fun (cs, after) => (c :: cs, after)
    | none => none
  | c :: rest =>
    if c.toNat < 0x20 then none
    else (readString? rest).map fun (cs, after) => (c :: cs, after)

/-- The largest number that the digits of a number are gathered in. -/
def significandLimit : Nat := Number.wordLimit - 1

/-- Gathers digits while the number stays within the limit: the number, how many digits were
taken, and the rest. -/
def gather (significand taken : Nat) : List Char → Nat × Nat × List Char
  | [] => (significand, taken, [])
  | c :: cs =>
    if isAsciiDigit c && significand * 10 + (c.toNat - 0x30) ≤ significandLimit then
      gather (significand * 10 + (c.toNat - 0x30)) (taken + 1) cs
    else (significand, taken, c :: cs)

/-- The power of ten with a natural exponent, rounded to nearest. -/
def powerOfTen (e : Nat) : Float :=
  Float.ofScientific 1 false e

/-- Divides by `10 ^ 308` while the negative exponent is out of the table, then by what is left. -/
def scaleDown : Nat → Float → Nat → Float
  | 0, x, _ => x
  | fuel + 1, x, e =>
    if e ≤ 308 then x / powerOfTen e
    else if x == 0.0 then x
    else scaleDown fuel (x / 1e308) (e - 308)

/-- The number `significand · 10 ^ exponent`, scaled in one step; nothing when it is too large. -/
def scaled? (significand : Nat) (exponent : Int) : Option Float :=
  let x := Float.ofNat significand
  if exponent < 0 then some (scaleDown 8 x (-exponent).toNat)
  else if 308 < exponent then if significand == 0 then some x else none
  else
    let y := x * powerOfTen exponent.toNat
    if isFinite y then some y else none

/-- The number with a sign. -/
def withSign (negative : Bool) (x : Float) : Json :=
  float (if negative then -x else x)

/-- The largest exponent that is worked out. -/
def exponentLimit : Nat := Nat.pow 2 31 - 1

/-- Reads the exponent of a number, after its `e`, and finishes the number. -/
def readExponent (negative : Bool) (significand : Nat) (start : Int) (cs : List Char) :
    Option (Json × List Char) :=
  let (down, cs) := takeSign cs
  let digits := cs.takeWhile isAsciiDigit
  let rest := cs.dropWhile isAsciiDigit
  if digits.isEmpty then none
  else
    let e := digitsValue 0 digits
    if exponentLimit < e then
      if significand != 0 && !down then none
      else some (withSign negative 0.0, rest)
    else
      let e := if down then start - Int.ofNat e else start + Int.ofNat e
      (scaled? significand e).map fun x => (withSign negative x, rest)

/-- Finishes a number whose digits have been read: an exponent may follow. -/
def finishNumber (negative : Bool) (significand : Nat) (exponent : Int) (cs : List Char) :
    Option (Json × List Char) :=
  match cs with
  | c :: rest =>
    if c == 'e' || c == 'E' then readExponent negative significand exponent rest
    else (scaled? significand exponent).map fun x => (withSign negative x, cs)
  | [] => (scaled? significand exponent).map fun x => (withSign negative x, cs)

/-- Reads the digits after a point, of which there is at least one. -/
def readFraction (negative : Bool) (significand : Nat) (start : Int) (cs : List Char) :
    Option (Json × List Char) :=
  match cs with
  | c :: _ =>
    if isAsciiDigit c then
      let (significand, taken, rest) := gather significand 0 cs
      finishNumber negative significand (start - Int.ofNat taken) (rest.dropWhile isAsciiDigit)
    else none
  | [] => none

/-- A whole number, held as such when it fits. -/
def wholeNumber (negative : Bool) (n : Nat) : Json :=
  if !negative then int (Int.ofNat n)
  else if n == 0 || Number.signedLimit < n then float (-(Float.ofNat n))
  else int (-Int.ofNat n)

/-- Reads a number, after its sign. -/
def readNumber (negative : Bool) (cs : List Char) : Option (Json × List Char) :=
  match cs with
  | [] => none
  | c :: tail =>
    if !isAsciiDigit c then none
    else
      let (significand, _, rest) := if c == '0' then (0, 1, tail) else gather 0 0 cs
      match rest with
      | '.' :: after => readFraction negative significand 0 after
      | d :: after =>
        if d == 'e' || d == 'E' then readExponent negative significand 0 after
        else if isAsciiDigit d then
          if c == '0' then none
          else
            let extra := Int.ofNat (rest.takeWhile isAsciiDigit).length
            match rest.dropWhile isAsciiDigit with
            | '.' :: after => readFraction negative significand extra after
            | after => finishNumber negative significand extra after
        else some (wholeNumber negative significand, rest)
      | [] => some (wholeNumber negative significand, rest)

/-- Takes a fixed word off the front. -/
def takeWord (word : String) (value : Json) (cs : List Char) : Option (Json × List Char) :=
  (afterPiece? word.toList cs).map fun rest => (value, rest)

mutual

/-- Reads a value inside at most `depth` further lists and objects. -/
def readValue (depth : Nat) : Nat → List Char → Option (Json × List Char)
  | 0, _ => none
  | fuel + 1, cs =>
    match cs.dropWhile isSpace with
    | '"' :: rest => (readString? rest).map fun (s, after) => (str (String.ofList s), after)
    | '[' :: rest =>
      match depth with
      | 0 => none
      | depth + 1 =>
        match rest.dropWhile isSpace with
        | ']' :: after => some (arr [], after)
        | _ => (readItems depth fuel rest).map fun (vs, after) => (arr vs, after)
    | '\x7b' :: rest =>
      match depth with
      | 0 => none
      | depth + 1 =>
        match rest.dropWhile isSpace with
        | '\x7d' :: after => some (obj [], after)
        | _ => (readFields depth fuel rest).map fun (fs, after) => (ofFields fs, after)
    | 'n' :: rest => takeWord "null" null ('n' :: rest)
    | 't' :: rest => takeWord "true" (bool true) ('t' :: rest)
    | 'f' :: rest => takeWord "false" (bool false) ('f' :: rest)
    | '-' :: rest => readNumber true rest
    | rest => readNumber false rest

/-- Reads the items of a list up to its closing bracket. -/
def readItems (depth : Nat) : Nat → List Char → Option (List Json × List Char)
  | 0, _ => none
  | fuel + 1, cs =>
    match readValue depth fuel cs with
    | none => none
    | some (v, rest) =>
      match rest.dropWhile isSpace with
      | ',' :: rest => (readItems depth fuel rest).map fun (vs, after) => (v :: vs, after)
      | ']' :: after => some ([v], after)
      | _ => none

/-- Reads the fields of an object up to its closing bracket. -/
def readFields (depth : Nat) : Nat → List Char → Option (List (String × Json) × List Char)
  | 0, _ => none
  | fuel + 1, cs =>
    match cs.dropWhile isSpace with
    | '"' :: rest =>
      match readString? rest with
      | none => none
      | some (key, rest) =>
        match rest.dropWhile isSpace with
        | ':' :: rest =>
          match readValue depth fuel rest with
          | none => none
          | some (v, rest) =>
            let field := (String.ofList key, v)
            match rest.dropWhile isSpace with
            | ',' :: rest =>
              (readFields depth fuel rest).map fun (fs, after) => (field :: fs, after)
            | '\x7d' :: after => some ([field], after)
            | _ => none
        | _ => none
    | _ => none

end

/-- How many lists and objects may stand inside one another. -/
def maxDepth : Nat := 127

/-- Reads a text that is one JSON value. -/
def parse? (s : String) : Option Json :=
  let cs := s.toList
  match readValue maxDepth (2 * cs.length + 2) cs with
  | some (v, rest) => if rest.all isSpace then some v else none
  | none => none

end ChatBot.Json
