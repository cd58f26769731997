import ChatBot.Text.LetterTable
import ChatBot.Text.LowerCase

/-!
# Letters and digits

The classes of characters that names and numbers are made of, and the digits of base sixteen.
-/

set_option autoImplicit false

namespace ChatBot.Text

/-- ASCII letters and digits. -/
def isAsciiAlnum (c : Char) : Bool :=
  let n := c.toNat
  (0x30 ≤ n && n ≤ 0x39) || (0x41 ≤ n && n ≤ 0x5a) || (0x61 ≤ n && n ≤ 0x7a)

/-- The ASCII letters and digits, as ranges. -/
theorem isAsciiAlnum_iff (c : Char) : isAsciiAlnum c = true ↔
    ('0' ≤ c ∧ c ≤ '9') ∨ ('A' ≤ c ∧ c ≤ 'Z') ∨ ('a' ≤ c ∧ c ≤ 'z') := by
  simp only [isAsciiAlnum, Bool.or_eq_true, Bool.and_eq_true, decide_eq_true_eq, or_assoc]
  exact Iff.rfl

/-- ASCII digits. -/
def isAsciiDigit (c : Char) : Bool :=
  let n := c.toNat
  0x30 ≤ n && n ≤ 0x39

/-- The ASCII digits, as a range. -/
theorem isAsciiDigit_iff (c : Char) : isAsciiDigit c = true ↔ '0' ≤ c ∧ c ≤ '9' := by
  simp only [isAsciiDigit, Bool.and_eq_true, decide_eq_true_eq]
  exact Iff.rfl

/-- Letters and numbers of any script. -/
def isLetterOrNumber (c : Char) : Bool :=
  if c.toNat < 0x80 then isAsciiAlnum c else inRanges LetterTable.ranges c.toNat

/-- The lower-case hexadecimal digit of a number below sixteen. -/
def hexDigit (n : Nat) : Char :=
  if n < 10 then Char.ofNat (0x30 + n) else Char.ofNat (0x57 + n)

end ChatBot.Text
