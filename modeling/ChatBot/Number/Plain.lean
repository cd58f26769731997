import ChatBot.Number.Reader
import ChatBot.Number.Shortest
import ChatBot.Text.Blank

/-!
# Numbers as stored text

Number variables hold their value as text. `parse?` reads such a text and `format` writes one:
whole numbers without a fraction, all others rounded to ten decimal places. From `10 ^ 15` up a
number is written in full, since scaling it could overflow.
-/

set_option autoImplicit false

namespace ChatBot.Number

/-- Reads a finite number from a text, blanks around it being ignored. -/
def parse? (s : String) : Option Float :=
  (readFloat? (Text.trim s)).filter isFinite

/-- The size from which numbers are written in full. -/
def fullSize : Float := 1e15

/-- The scale of the last decimal place that is kept. -/
def placeScale : Float := 1e10

/-- Writes a whole number as text. -/
def wholeText (n : Int) : String :=
  match n with
  | .ofNat n => String.ofList (decimalDigits n)
  | .negSucc n => String.ofList ('-' :: decimalDigits (n + 1))

/-- Writes a number the way variables store it. -/
def format (x : Float) : String :=
  if x.abs ≥ fullSize then plain x
  else if isWhole x then
    match wholePart? x with
    | some n => wholeText n
    | none => plain x
  else plain (round (x * placeScale) / placeScale)

end ChatBot.Number
