import ChatBot.Number.Binary
import ChatBot.Number.Reader

/-!
# Arithmetics

What an expression is computed in: a reading of number texts, the operations, and which results
count as numbers. Expressions are evaluated over any of them; `floating` is the one in use.
-/

set_option autoImplicit false

namespace ChatBot.Math

/-- The operations that an expression is made of. -/
structure Arithmetic (α : Type) where
  /-- Reads a run of digits and points. -/
  read? : List Char → Option α
  add : α → α → α
  sub : α → α → α
  mul : α → α → α
  div : α → α → α
  rem : α → α → α
  pow : α → α → α
  neg : α → α
  /-- Whether a result counts as a number. -/
  isFinite : α → Bool

/-- Double-precision arithmetic. -/
def floating : Arithmetic Float where
  read? := Number.readDecimal?
  add x y := x + y
  sub x y := x - y
  mul x y := x * y
  div x y := x / y
  rem := Number.remainder
  pow := Float.pow
  neg x := -x
  isFinite := Number.isFinite

end ChatBot.Math
