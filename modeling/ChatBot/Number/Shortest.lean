import ChatBot.Number.Binary

/-!
# Shortest decimals

The decimal with the fewest digits that reads back as a given binary number, and of those the
nearest to it. The reals that read back as `m · 2 ^ q` form an interval around it, ends included
when `m` is even. For one, two, … seventeen digits the two neighbours of the number on that
decimal grid are tested; the first grid with a hit wins.
-/

set_option autoImplicit false

namespace ChatBot.Number

/-- A decimal: `digits · 10 ^ exponent`. -/
structure Decimal where
  digits : Nat
  /-- The power of ten of the last digit. -/
  exponent : Int
  deriving Repr, DecidableEq

/-- Which of two equally near decimals is taken. -/
inductive Tie where
  | up
  /-- The one with an even last digit. -/
  | even
  deriving Repr, DecidableEq

/-- A quotient `p / q` of natural numbers, by which a grid of decimals is measured. -/
structure Scale where
  /-- What a number is multiplied with. -/
  p : Nat
  /-- What it is divided by. -/
  q : Nat

/-- The scale that turns multiples of `2 ^ two` into multiples of `10 ^ ten`. -/
def Scale.between (two ten : Int) : Scale where
  p := Nat.pow 2 two.toNat * Nat.pow 10 (-ten).toNat
  q := Nat.pow 2 (-two).toNat * Nat.pow 10 ten.toNat

/-- The least `e` with `m · 2 ^ q < 10 ^ e`, for a positive `m`. -/
def decimalLength (m : Nat) (q : Int) : Int :=
  let guess := (Int.ofNat m.log2 + q) * 30103 / 100000
  let below (e : Int) : Bool :=
    let s := Scale.between q e
    m * s.p < s.q
  if below guess then guess
  else if below (guess + 1) then guess + 1
  else guess + 2

/-- The neighbour of `m · 2 ^ q` on the grid of multiples of `10 ^ ten` that reads back as that
number, if there is one; of two, the nearer. -/
def onGrid? (tie : Tie) (m : Nat) (q ten : Int) : Option Nat :=
  let s := Scale.between (q - 2) ten
  let value := 4 * m * s.p
  let low := (4 * m - (if m == leastMantissa && q != leastExponent then 1 else 2)) * s.p
  let high := (4 * m + 2) * s.p
  let closed := m % 2 == 0
  let reads (d : Nat) : Bool :=
    if closed then low ≤ d * s.q && d * s.q ≤ high else low < d * s.q && d * s.q < high
  let d := value / s.q
  match reads d, reads (d + 1) with
  | true, true =>
    match compare (2 * value) ((2 * d + 1) * s.q) with
    | .lt => some d
    | .gt => some (d + 1)
    | .eq =>
      match tie with
      | .up => some (d + 1)
      | .even => some (if d % 2 == 0 then d else d + 1)
  | true, false => some d
  | false, true => some (d + 1)
  | false, false => none

/-- A decimal without zeros at its end, at most `fuel` of them being dropped. -/
def Decimal.stripZeros : Nat → Decimal → Decimal
  | 0, d => d
  | fuel + 1, d =>
    if d.digits != 0 && d.digits % 10 == 0 then
      stripZeros fuel ⟨d.digits / 10, d.exponent + 1⟩
    else d

/-- The shortest decimal of `m · 2 ^ q`, tried with the digit counts `count`, `count + 1`, and so
on up to seventeen. -/
def shortestFrom (tie : Tie) (m : Nat) (q length : Int) : Nat → Nat → Decimal
  | 0, count => ⟨0, length - Int.ofNat count⟩
  | fuel + 1, count =>
    let ten := length - Int.ofNat count
    match onGrid? tie m q ten with
    | some d => Decimal.stripZeros 20 ⟨d, ten⟩
    | none => shortestFrom tie m q length fuel (count + 1)

/-- The shortest decimal that reads back as `m · 2 ^ q`. -/
def shortest (tie : Tie) (m : Nat) (q : Int) : Decimal :=
  if m == 0 then ⟨0, 0⟩ else shortestFrom tie m q (decimalLength m q) 17 1

/-- The digits of a natural number in base ten. -/
def decimalDigits (n : Nat) : List Char :=
  Nat.toDigits 10 n

/-- A decimal written without an exponent; at least `places` digits stand after the point, and no
point is written when none does. -/
def Decimal.positional (places : Nat) (d : Decimal) : List Char :=
  let digits := decimalDigits d.digits
  let whole := if 0 ≤ d.exponent then digits ++ List.replicate d.exponent.toNat '0' else digits
  let fractionLength := (-d.exponent).toNat
  let padded := List.replicate (fractionLength + 1 - whole.length) '0' ++ whole
  let front := padded.take (padded.length - fractionLength)
  let back := padded.drop (padded.length - fractionLength)
  let back := back ++ List.replicate (places - back.length) '0'
  if back.isEmpty then front else front ++ '.' :: back

/-- A number in plain notation: the shortest digits that read back, never an exponent, and no
point after whole numbers. -/
def plain (x : Float) : String :=
  match Binary.ofFloat x with
  | .finite negative m q =>
    let text := (shortest .up m q).positional 0
    String.ofList (if negative then '-' :: text else text)
  | .infinite negative => if negative then "-inf" else "inf"
  | .undefined => "NaN"

end ChatBot.Number
