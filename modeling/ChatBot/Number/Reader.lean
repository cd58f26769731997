import ChatBot.Number.Binary
import ChatBot.Text.Letters

/-!
# Reading numbers

The number texts that are understood: whole numbers with an optional sign, and decimals with an
optional sign, point and exponent, or the words for the infinities and for the undefined.
-/

set_option autoImplicit false

namespace ChatBot.Number

open ChatBot.Text

/-- The value of a run of digits, the digits read before it being worth `start`. -/
def digitsValue (start : Nat) (digits : List Char) : Nat :=
  digits.foldl (fun n c => 10 * n + (c.toNat - 0x30)) start

/-- Takes a sign off the front: whether it is a minus, and the rest. -/
def takeSign : List Char → Bool × List Char
  | '-' :: cs => (true, cs)
  | '+' :: cs => (false, cs)
  | cs => (false, cs)

/-- Reads digits and nothing else; at least one is needed. -/
def readDigits? (cs : List Char) : Option Nat :=
  if !cs.isEmpty && cs.all isAsciiDigit then some (digitsValue 0 cs) else none

/-- Reads a whole number of sixty-four bits with an optional sign. -/
def readInt? (s : String) : Option Int :=
  let (negative, digits) := takeSign s.toList
  (readDigits? digits).bind fun n =>
    if negative then
      if n ≤ signedLimit then some (-Int.ofNat n) else none
    else if n < signedLimit then some (Int.ofNat n) else none

/-- Reads a natural number below `2 ^ 64`; a plus in front is accepted. -/
def readNat? (s : String) : Option Nat :=
  let digits := match s.toList with
    | '+' :: cs => cs
    | cs => cs
  (readDigits? digits).bind fun n => if n < wordLimit then some n else none

/-- The number nearest to `digits · 10 ^ exponent`, an infinity when it is out of range. -/
def ofDecimal (digits : Nat) (exponent : Int) : Float :=
  if digits == 0 then 0.0
  else
    let length := Int.ofNat (Nat.toDigits 10 digits).length + exponent
    if 400 < length then 1.0 / 0.0
    else if length < -400 then 0.0
    else if exponent < 0 then Float.ofScientific digits true (-exponent).toNat
    else Float.ofScientific digits false exponent.toNat

/-- Reads the exponent of a decimal, given what follows its digits. -/
def readExponent? : List Char → Option Int
  | [] => some 0
  | c :: cs =>
    if c == 'e' || c == 'E' then
      let (negative, digits) := takeSign cs
      (readDigits? digits).map fun n => if negative then -Int.ofNat n else Int.ofNat n
    else none

/-- Reads an unsigned decimal: digits with an optional point, at least one digit, and an optional
exponent. -/
def readDecimal? (cs : List Char) : Option Float :=
  let front := cs.takeWhile isAsciiDigit
  let rest := cs.dropWhile isAsciiDigit
  let (back, rest) := match rest with
    | '.' :: r => (r.takeWhile isAsciiDigit, r.dropWhile isAsciiDigit)
    | r => ([], r)
  if front.isEmpty && back.isEmpty then none
  else
    (readExponent? rest).map fun e =>
      ofDecimal (digitsValue 0 (front ++ back)) (e - Int.ofNat back.length)

/-- Whether a text is a word in any case. -/
def isWordIn (word : String) (cs : List Char) : Bool :=
  cs.map Char.toLower == word.toList

/-- Reads a number, which may be infinite or undefined. -/
def readFloat? (s : String) : Option Float :=
  let (negative, cs) := takeSign s.toList
  let value :=
    if isWordIn "inf" cs || isWordIn "infinity" cs then some (1.0 / 0.0)
    else if isWordIn "nan" cs then some (0.0 / 0.0)
    else readDecimal? cs
  value.map fun x => if negative then -x else x

end ChatBot.Number
