import ChatBot.Text.Letters

/-!
# Template tokens

A template text is read from left to right as tokens. A backslash in front of a structural
character makes it plain text; any other backslash is plain text itself. A dollar sign with an
identifier behind it is a reference, where an exclamation mark and an underscore may stand in
between. The tokens lose nothing: the raw texts of all tokens together are the template.
-/

set_option autoImplicit false

namespace ChatBot.Template

/-- A token of a template text. -/
inductive Token where
  /-- A plain character, `escaped` if a backslash stands in front of it. -/
  | char (c : Char) (escaped : Bool)
  /-- A reference by its two marks and its identifier. -/
  | reference (silent persisted : Bool) (identifier : List Char)
  | opening
  | closing
  | bar
  deriving DecidableEq

namespace Token

/-- The text of a reference. -/
def referenceText (silent persisted : Bool) (identifier : List Char) : List Char :=
  '$' :: ((if silent then ['!'] else []) ++ ((if persisted then ['_'] else []) ++ identifier))

/-- The raw text of a token. -/
def raw : Token → List Char
  | char c escaped => if escaped then ['\\', c] else [c]
  | reference silent persisted identifier => referenceText silent persisted identifier
  | opening => ['(']
  | closing => [')']
  | bar => ['|']

/-- The text of a token that turns out to be plain text. -/
def plain : Token → List Char
  | char c _ => [c]
  | t => t.raw

/-- As plain text a token is what it is written as, less the backslash of an escape. -/
theorem raw_eq (t : Token) :
    t.raw = t.plain ∨ ∃ c, t = .char c true ∧ t.raw = '\\' :: t.plain := by
  cases t with
  | char c escaped =>
    cases escaped with
    | true => exact .inr ⟨c, rfl, rfl⟩
    | false => exact .inl rfl
  | reference | opening | closing | bar => exact .inl rfl

end Token

/-- The characters that a backslash makes plain text. -/
def isEscapable (c : Char) : Bool :=
  c == '(' || c == ')' || c == '$' || c == '|' || c == '\\'

/-- The characters of identifiers. -/
def isIdentifierChar (c : Char) : Bool :=
  Text.isAsciiAlnum c || c == '_'

/-- The characters of identifiers are the ASCII letters and digits and the underscore. -/
theorem isIdentifierChar_iff (c : Char) : isIdentifierChar c = true ↔
    ('0' ≤ c ∧ c ≤ '9') ∨ ('A' ≤ c ∧ c ≤ 'Z') ∨ ('a' ≤ c ∧ c ≤ 'z') ∨ c = '_' := by
  simp only [isIdentifierChar, Bool.or_eq_true, Text.isAsciiAlnum_iff, beq_iff_eq, or_assoc]

/-- Takes a character off the front if it is there, and says whether it was. -/
def takeChar (c : Char) : List Char → Bool × List Char
  | d :: cs => if d = c then (true, cs) else (false, d :: cs)
  | [] => (false, [])

/-- The reference that starts behind a dollar sign, if there is one. -/
def referenceAt? (cs : List Char) : Option Token :=
  let (silent, cs) := takeChar '!' cs
  let (persisted, cs) := takeChar '_' cs
  let identifier := cs.takeWhile isIdentifierChar
  if identifier.isEmpty then none else some (.reference silent persisted identifier)

/-- The tokens of a text, whose first `skip` characters belong to a token already read. -/
def tokensFrom : Nat → List Char → List Token
  | _, [] => []
  | skip + 1, _ :: cs => tokensFrom skip cs
  | 0, c :: cs =>
    if c = '\\' then
      match cs with
      | d :: _ =>
        if isEscapable d then .char d true :: tokensFrom 1 cs
        else .char c false :: tokensFrom 0 cs
      | [] => [.char c false]
    else if c = '(' then .opening :: tokensFrom 0 cs
    else if c = ')' then .closing :: tokensFrom 0 cs
    else if c = '|' then .bar :: tokensFrom 0 cs
    else if c = '$' then
      match referenceAt? cs with
      | some t => t :: tokensFrom (t.raw.length - 1) cs
      | none => .char c false :: tokensFrom 0 cs
    else .char c false :: tokensFrom 0 cs

/-- The tokens of a text. -/
def tokens (cs : List Char) : List Token :=
  tokensFrom 0 cs

end ChatBot.Template
