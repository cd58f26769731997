import ChatBot.Math.Arithmetic
import ChatBot.Text.Blank

/-!
# Arithmetic expressions

Evaluates an expression while reading it. Loosest binding first, the grammar is

```
sum     = product (('+' | '-') product)*
product = signed (('*' | '/' | '%') signed)*
signed  = ('-' | '+') signed | power
power   = primary ('^' signed)?
primary = number | '(' sum ')'
```

Sums and products group to the left. A parenthesis, a sign and an exponent each go one level
deeper, and there are sixty-four levels: a reader of one level is built from the reader of the
level below it, and the reader below the last level refuses everything.
-/

set_option autoImplicit false

namespace ChatBot.Math

/-- Why an expression has no value. -/
inductive MathError where
  /-- A character that cannot stand where it stands. -/
  | unexpectedChar (c : Char)
  /-- The text ends where something is missing. -/
  | unexpectedEnd
  /-- Digits and points that are no number. -/
  | invalidNumber (text : String)
  /-- More than sixty-four levels. -/
  | tooDeep
  /-- The value is infinite or undefined. -/
  | notFinite
  deriving DecidableEq

/-- The message of an error. -/
def MathError.message : MathError → String
  | unexpectedChar c => "Unexpected character '" ++ String.singleton c ++ "'"
  | unexpectedEnd => "Unexpected end of expression"
  | invalidNumber text => "Invalid number: " ++ text
  | tooDeep => "Expression nested too deeply"
  | notFinite => "Result is not a finite number"

/-- Reads a value off the front of a text. -/
abbrev Reader (α : Type) := List Char → Except MathError (α × List Char)

variable {α : Type}

/-- The characters of a number. -/
def isNumberChar (c : Char) : Bool :=
  Text.isAsciiDigit c || c == '.'

/-- The characters of a number are the ten digits and the point. -/
theorem isNumberChar_iff (c : Char) : isNumberChar c = true ↔ ('0' ≤ c ∧ c ≤ '9') ∨ c = '.' := by
  simp only [isNumberChar, Bool.or_eq_true, Text.isAsciiDigit_iff, beq_iff_eq]

/-- Reads more factors, at most `fuel` of them, onto the value of those before. -/
def productRest (A : Arithmetic α) (signed : Reader α) : Nat → α → Reader α
  | 0, value, cs => .ok (value, cs)
  | fuel + 1, value, cs =>
    match cs with
    | '*' :: rest =>
      match signed rest with
      | .ok (v, rest) => productRest A signed fuel (A.mul value v) rest
      | .error e => .error e
    | '/' :: rest =>
      match signed rest with
      | .ok (v, rest) => productRest A signed fuel (A.div value v) rest
      | .error e => .error e
    | '%' :: rest =>
      match signed rest with
      | .ok (v, rest) => productRest A signed fuel (A.rem value v) rest
      | .error e => .error e
    | cs => .ok (value, cs)

/-- Reads a product. -/
def product (A : Arithmetic α) (signed : Reader α) : Reader α := fun cs =>
  match signed cs with
  | .ok (v, rest) => productRest A signed rest.length v rest
  | .error e => .error e

/-- Reads more summands, at most `fuel` of them, onto the value of those before. -/
def sumRest (A : Arithmetic α) (signed : Reader α) : Nat → α → Reader α
  | 0, value, cs => .ok (value, cs)
  | fuel + 1, value, cs =>
    match cs with
    | '+' :: rest =>
      match product A signed rest with
      | .ok (v, rest) => sumRest A signed fuel (A.add value v) rest
      | .error e => .error e
    | '-' :: rest =>
      match product A signed rest with
      | .ok (v, rest) => sumRest A signed fuel (A.sub value v) rest
      | .error e => .error e
    | cs => .ok (value, cs)

/-- Reads a sum. -/
def sum (A : Arithmetic α) (signed : Reader α) : Reader α := fun cs =>
  match product A signed cs with
  | .ok (v, rest) => sumRest A signed rest.length v rest
  | .error e => .error e

/-- Reads a number or a sum in parentheses, where `deeper` reads what stands one level deeper. -/
def primary (A : Arithmetic α) (deeper : Reader α) : Reader α
  | [] => .error .unexpectedEnd
  | c :: cs =>
    if c = '(' then
      match sum A deeper cs with
      | .ok (v, ')' :: rest) => .ok (v, rest)
      | .ok (_, d :: _) => .error (.unexpectedChar d)
      | .ok (_, []) => .error .unexpectedEnd
      | .error e => .error e
    else if isNumberChar c then
      let digits := (c :: cs).takeWhile isNumberChar
      match A.read? digits with
      | some v => .ok (v, (c :: cs).dropWhile isNumberChar)
      | none => .error (.invalidNumber (String.ofList digits))
    else .error (.unexpectedChar c)

/-- Reads a primary with an optional exponent. -/
def power (A : Arithmetic α) (deeper : Reader α) : Reader α := fun cs =>
  match primary A deeper cs with
  | .ok (v, '^' :: rest) =>
    match deeper rest with
    | .ok (e, rest) => .ok (A.pow v e, rest)
    | .error e => .error e
  | .ok (v, rest) => .ok (v, rest)
  | .error e => .error e

/-- Reads a power behind any signs. -/
def signedOver (A : Arithmetic α) (deeper : Reader α) : Reader α
  | '-' :: cs =>
    match deeper cs with
    | .ok (v, rest) => .ok (A.neg v, rest)
    | .error e => .error e
  | '+' :: cs => deeper cs
  | cs => power A deeper cs

/-- Reads a signed power with `levels` levels below it. -/
def signed (A : Arithmetic α) : Nat → Reader α
  | 0 => signedOver A (fun _ => .error .tooDeep)
  | levels + 1 => signedOver A (signed A levels)

/-- How many levels an expression may have below its own. -/
def maxLevels : Nat := 64

/-- The value of an expression; blanks in it are ignored. -/
def evaluateIn (A : Arithmetic α) (text : String) : Except MathError α :=
  match sum A (signed A maxLevels) (text.toList.filter fun c => !Text.isBlank c) with
  | .ok (v, []) => if A.isFinite v then .ok v else .error .notFinite
  | .ok (_, c :: _) => .error (.unexpectedChar c)
  | .error e => .error e

/-- The value of an expression in double precision. -/
def evaluate (text : String) : Except MathError Float :=
  evaluateIn floating text

end ChatBot.Math
