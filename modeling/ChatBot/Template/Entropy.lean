/-!
# Random numbers

Where the random numbers of a rendering come from: a source says what the n-th draw gives. A
source made from a seed scatters the multiples of an odd constant over all numbers of sixty-four
bits, so that neighbouring draws have nothing in common.
-/

set_option autoImplicit false

namespace ChatBot.Template

/-- Where random numbers come from, by the number of draws before. -/
abbrev Entropy := Nat → Nat

/-- Spreads the bits of a number over all of its sixty-four bits. -/
def scatter (x : UInt64) : UInt64 :=
  let x := (x ^^^ (x >>> 30)) * 0xbf58476d1ce4e5b9
  let x := (x ^^^ (x >>> 27)) * 0x94d049bb133111eb
  x ^^^ (x >>> 31)

/-- The source that belongs to a seed. -/
def Entropy.ofSeed (seed : UInt64) : Entropy := fun n =>
  (scatter (seed + (UInt64.ofNat n + 1) * 0x9e3779b97f4a7c15)).toNat

end ChatBot.Template
