import ChatBot.Text.Blank
import ChatBot.Text.Search

/-!
# Conditions

The condition of a choice compares two texts. The comparison is the first `==` or `!=` that
stands in the literal text of the condition outside quotes; a quote that is opened in one piece of
literal text stays open until it is closed in this or a later one. What other nodes render to
never counts as a comparison or as a quote.
-/

set_option autoImplicit false

namespace ChatBot.Template

/-- What looking for a comparison in a piece of literal text finds. -/
inductive Scan where
  /-- A comparison, of equality or not, with the text before and after it. -/
  | found (before : List Char) (equality : Bool) (after : List Char)
  /-- None; at the end this quote is open. -/
  | missing (quote : Option Char)
  deriving DecidableEq

/-- The finding with one more character in front of the text. -/
def Scan.cons (c : Char) : Scan → Scan
  | found before equality after => found (c :: before) equality after
  | missing quote => missing quote

/-- Whether a character opens or closes quotes. -/
def isQuote (c : Char) : Bool :=
  c == '\'' || c == '"'

/-- Looks for a comparison, where `quote` is the quote that is open. -/
def scan (quote : Option Char) : List Char → Scan
  | [] => .missing quote
  | c :: cs =>
    match quote with
    | some q => (scan (if c = q then none else some q) cs).cons c
    | none =>
      if isQuote c then (scan (some c) cs).cons c
      else
        match cs with
        | '=' :: rest =>
          if c = '=' then .found [] true rest
          else if c = '!' then .found [] false rest
          else (scan none cs).cons c
        | _ => (scan none cs).cons c

/-- A condition read so far. -/
structure Condition where
  left : String := ""
  right : String := ""
  /-- The comparison, once it has been found: whether it is one of equality. -/
  equality : Option Bool := none
  /-- The quote that is open, as long as no comparison has been found. -/
  quote : Option Char := none
  deriving DecidableEq

namespace Condition

/-- Adds text in which nothing is looked for. -/
def addText (c : Condition) (text : String) : Condition :=
  match c.equality with
  | none => { c with left := c.left ++ text }
  | some _ => { c with right := c.right ++ text }

/-- Adds a piece of literal text. -/
def addLiteral (c : Condition) (text : List Char) : Condition :=
  match c.equality with
  | some _ => c.addText (String.ofList text)
  | none =>
    match scan c.quote text with
    | .found before equality after =>
      { left := c.left ++ String.ofList before, right := String.ofList after
        equality := some equality, quote := none }
    | .missing quote => { c with left := c.left ++ String.ofList text, quote }

end Condition

/-- A text without a pair of equal quotes around it. -/
def stripQuotes (cs : List Char) : List Char :=
  match cs with
  | [] => cs
  | first :: rest =>
    match rest.getLast? with
    | some last => if isQuote first && last == first then rest.dropLast else cs
    | none => cs

/-- A side of a comparison as it is compared: blanks and then one pair of quotes are taken off. -/
def comparand (side : String) : List Char :=
  stripQuotes (Text.trimChars side.toList)

/-- Whether the comparison holds. -/
def Condition.holds (c : Condition) (equality : Bool) : Bool :=
  (comparand c.left == comparand c.right) == equality

end ChatBot.Template
