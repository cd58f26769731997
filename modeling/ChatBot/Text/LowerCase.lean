import ChatBot.Text.CaseTable

/-!
# Lower case

Full lower-casing of a text. Each upper-case letter becomes its lower-case partner, with two
exceptions of the standard: the dotted capital I becomes `i` and a combining dot, and a capital
sigma becomes the final form where a word ends, that is, where a cased letter comes before it and
none after it, characters without case of their own being looked through.
-/

set_option autoImplicit false

namespace ChatBot.Text

/-- Whether a code point lies in one of the ranges. -/
def inRanges (ranges : List (Nat × Nat)) (n : Nat) : Bool :=
  ranges.any fun r => r.1 ≤ n && n ≤ r.2

/-- The partner of a code point in runs of letters at a fixed distance, if it has one. -/
def casePartner (runs : List (Nat × Nat × Nat × Int)) (n : Nat) : Option Nat :=
  (runs.find? fun r => r.1 ≤ n && n ≤ r.2.1 && (n - r.1) % r.2.2.1 == 0).map
    fun r => (Int.ofNat n + r.2.2.2).toNat

/-- The lower-case form of a character, without regard to its neighbours. -/
def lowerChar (c : Char) : List Char :=
  let n := c.toNat
  if n < 0x80 then
    if 0x41 ≤ n && n ≤ 0x5a then [Char.ofNat (n + 0x20)] else [c]
  else if n == 0x130 then ['i', '\u0307']
  else
    match casePartner CaseTable.lowerRuns n with
    | some m => [Char.ofNat m]
    | none => [c]

/-- Cased letters, those that are case-ignorable left out. -/
def isCasedLetter (c : Char) : Bool :=
  let n := c.toNat
  if n < 0x80 then (0x41 ≤ n && n ≤ 0x5a) || (0x61 ≤ n && n ≤ 0x7a)
  else inRanges CaseTable.casedRanges n

/-- Characters that are looked through on the way to the next letter. -/
def isCaseIgnorable (c : Char) : Bool :=
  let n := c.toNat
  if n < 0x80 then n == 0x27 || n == 0x2e || n == 0x3a || n == 0x5e || n == 0x60
  else inRanges CaseTable.ignorableRanges n

/-- Whether the first character that is not looked through is a cased letter. -/
def startsCased (cs : List Char) : Bool :=
  match cs.dropWhile isCaseIgnorable with
  | c :: _ => isCasedLetter c
  | [] => false

/-- Lower-cases `cs`, where `before` holds the characters in front of it, nearest first. -/
def lowerFrom (before : List Char) : List Char → List Char
  | [] => []
  | c :: cs =>
    let here :=
      if c == 'Σ' then
        if startsCased before && !startsCased cs then ['ς'] else ['σ']
      else lowerChar c
    here ++ lowerFrom (c :: before) cs

/-- A text in lower case. -/
def lower (s : String) : String :=
  String.ofList (lowerFrom [] s.toList)

end ChatBot.Text
