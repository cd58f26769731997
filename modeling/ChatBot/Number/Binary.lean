/-!
# Binary numbers taken apart

A double-precision number is a sign and a whole number times a power of two, or an infinity, or
no number at all. `Binary.ofFloat` reads the three parts off the bits and `ofParts` puts them
together again. Truncation, rounding and remainders are worked out on the parts, in whole-number
arithmetic.
-/

set_option autoImplicit false

namespace ChatBot.Number

/-- A double-precision number taken apart. -/
inductive Binary where
  /-- `± mantissa · 2 ^ exponent`. -/
  | finite (negative : Bool) (mantissa : Nat) (exponent : Int)
  | infinite (negative : Bool)
  /-- The result of an undefined operation. -/
  | undefined
  deriving Repr, DecidableEq

/-- Natural numbers of sixty-four bits lie below this limit. -/
def wordLimit : Nat := Nat.pow 2 64

/-- Whole numbers of sixty-four bits with a sign lie below this limit. -/
def signedLimit : Nat := Nat.pow 2 63

/-- The mantissa of a number in full precision is at least this and less than twice this. -/
def leastMantissa : Nat := Nat.pow 2 52

/-- The exponent of the smallest positive number. -/
def leastExponent : Int := -1074

/-- The parts of a number. -/
def Binary.ofFloat (x : Float) : Binary :=
  let bits := x.toBits.toNat
  let negative := bits / signedLimit == 1
  let scale := bits / leastMantissa % 2048
  let fraction := bits % leastMantissa
  if scale == 2047 then
    if fraction == 0 then .infinite negative else .undefined
  else if scale == 0 then .finite negative fraction leastExponent
  else .finite negative (leastMantissa + fraction) (Int.ofNat scale - 1075)

/-- Zero with a sign. -/
def signedZero (negative : Bool) : Float :=
  if negative then -0.0 else 0.0

/-- The number `± mantissa · 2 ^ exponent`, when it is one. -/
def ofParts (negative : Bool) (mantissa : Nat) (exponent : Int) : Float :=
  if mantissa == 0 then signedZero negative
  else
    let sign : Nat := if negative then signedLimit else 0
    let top := Int.ofNat mantissa.log2 + exponent
    let bits :=
      if top < -1022 then mantissa * Nat.pow 2 (exponent - leastExponent).toNat
      else
        let significand :=
          mantissa * Nat.pow 2 (52 - mantissa.log2) / Nat.pow 2 (mantissa.log2 - 52)
        (top + 1023).toNat * leastMantissa + (significand - leastMantissa)
    Float.ofBits (UInt64.ofNat (sign + bits))

/-- Whether a number is neither infinite nor undefined. -/
def isFinite (x : Float) : Bool :=
  match Binary.ofFloat x with
  | .finite _ _ _ => true
  | _ => false

/-- The nearest whole number, halves away from zero. -/
def round (x : Float) : Float :=
  match Binary.ofFloat x with
  | .finite negative mantissa exponent =>
    if 0 ≤ exponent then x
    else
      let unit := Nat.pow 2 (-exponent).toNat
      ofParts negative ((2 * mantissa + unit) / (2 * unit)) 0
  | _ => x

/-- Whether a number is finite and has no fraction. -/
def isWhole (x : Float) : Bool :=
  match Binary.ofFloat x with
  | .finite _ mantissa exponent => 0 ≤ exponent || mantissa % Nat.pow 2 (-exponent).toNat == 0
  | _ => false

/-- The whole part of a number, toward zero; nothing for the infinities and the undefined. -/
def wholePart? (x : Float) : Option Int :=
  match Binary.ofFloat x with
  | .finite negative mantissa exponent =>
    let size := mantissa * Nat.pow 2 exponent.toNat / Nat.pow 2 (-exponent).toNat
    some (if negative then -Int.ofNat size else Int.ofNat size)
  | _ => none

/-- What is left of `x` after taking away `y` as often as it fits, with the sign of `x`. -/
def remainder (x y : Float) : Float :=
  match Binary.ofFloat x, Binary.ofFloat y with
  | .finite negative m e, .finite _ n f =>
    if n == 0 then 0.0 / 0.0
    else
      let low := min e f
      let a := m * Nat.pow 2 (e - low).toNat
      let b := n * Nat.pow 2 (f - low).toNat
      ofParts negative (a % b) low
  | .finite _ _ _, .infinite _ => x
  | _, _ => 0.0 / 0.0

end ChatBot.Number
