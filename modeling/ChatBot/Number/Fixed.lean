import ChatBot.Number.Shortest

/-!
# Fixed decimals

A number written with a given count of digits after the point. The exact value is rounded to the
nearest such decimal; a tie goes to the even last digit.
-/

set_option autoImplicit false

namespace ChatBot.Number

/-- The natural number nearest to `n / d`, a tie going to the even one. -/
def roundQuotient (n d : Nat) : Nat :=
  let below := n / d
  match compare (2 * (n % d)) d with
  | .lt => below
  | .gt => below + 1
  | .eq => if below % 2 == 0 then below else below + 1

/-- A number with exactly `places` digits after the point. -/
def fixed (places : Nat) (x : Float) : String :=
  match Binary.ofFloat x with
  | .finite negative m q =>
    let units := roundQuotient (m * Nat.pow 2 q.toNat * Nat.pow 10 places) (Nat.pow 2 (-q).toNat)
    let text := (Decimal.mk units (-Int.ofNat places)).positional places
    String.ofList (if negative then '-' :: text else text)
  | .infinite negative => if negative then "-inf" else "inf"
  | .undefined => "NaN"

end ChatBot.Number
