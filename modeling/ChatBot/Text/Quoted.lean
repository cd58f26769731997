import ChatBot.Text.HiddenTable
import ChatBot.Text.Letters

/-!
# Quoted texts

How a text is shown between double quotes in a diagnostic: a backslash stands before quotes and
backslashes, the common controls have letters of their own, and every character that would not
show, or that would change the one before it, is written as its code point.
-/

set_option autoImplicit false

namespace ChatBot.Text

/-- Whether a character shows when it stands alone. -/
def isVisible (c : Char) : Bool :=
  let n := c.toNat
  if n < 0x80 then 0x20 ≤ n && n < 0x7f
  else !(inRanges HiddenTable.hiddenRanges n || inRanges HiddenTable.extendingRanges n)

/-- A character inside quotes. -/
def quotedChar (c : Char) : List Char :=
  if c == '\x00' then ['\\', '0']
  else if c == '\t' then ['\\', 't']
  else if c == '\n' then ['\\', 'n']
  else if c == '\r' then ['\\', 'r']
  else if c == '"' || c == '\\' then ['\\', c]
  else if isVisible c then [c]
  else ['\\', 'u', '\x7b'] ++ Nat.toDigits 16 c.toNat ++ ['\x7d']

/-- A text between double quotes. -/
def quoted (s : String) : String :=
  String.ofList ('"' :: s.toList.flatMap quotedChar ++ ['"'])

end ChatBot.Text
