import ChatBot.Text.CapitalTable
import ChatBot.Text.LowerCase

/-!
# Upper case

Full upper-casing of a text: each letter becomes its capital, which for a few letters is written
with several characters.
-/

set_option autoImplicit false

namespace ChatBot.Text

/-- The upper-case form of a character. -/
def upperChar (c : Char) : List Char :=
  let n := c.toNat
  if n < 0x80 then
    if 0x61 ≤ n && n ≤ 0x7a then [Char.ofNat (n - 0x20)] else [c]
  else
    match CapitalTable.expansions.lookup n with
    | some ms => ms.map Char.ofNat
    | none =>
      match casePartner CapitalTable.upperRuns n with
      | some m => [Char.ofNat m]
      | none => [c]

/-- A text in upper case. -/
def upper (s : String) : String :=
  String.ofList (s.toList.flatMap upperChar)

end ChatBot.Text
