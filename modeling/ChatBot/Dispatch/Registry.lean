import ChatBot.Commands.Words
import ChatBot.Dispatch.Rollback

/-!
# Handlers and their registry

A handler is registered with what it is meant for: lines that start with certain command words, or
every line. Handlers are ordered in four tiers of priority. For a line, each tier in turn gives
the handlers of the longest registered command that the line starts with, and after them the
handlers of every line.
-/

set_option autoImplicit false

namespace ChatBot

/-- What a handler says about a line. -/
inductive Verdict where
  /-- The line may go on; these are the responses. -/
  | allowed (responses : List OutboundMessage)
  /-- The line is stopped; these are the responses. -/
  | denied (responses : List OutboundMessage)
  | error
  | panic

/-- A handler of lines. -/
abbrev Handler (ε : Type) := Invocation → Undoable ε Verdict

/-- The tiers of handlers. -/
inductive Priority where
  | low
  | normal
  | high
  | highest
  deriving DecidableEq

namespace Priority

/-- The tiers in the order in which they run. -/
def descending : List Priority := [highest, high, normal, low]

/-- The name of a priority. -/
def name : Priority → String
  | low => "low"
  | normal => "normal"
  | high => "high"
  | highest => "highest"

/-- Decodes a priority. -/
def ofJson? : Json → Option Priority :=
  Json.decodeChoice (descending.map fun p => (p.name, p))

end Priority

/-- Whether a dispatch waits for a handler. -/
inductive ExecutionMode where
  /-- It waits, and the handler may stop it. -/
  | awaited
  /-- It does not, and the handler runs in the detached queue. -/
  | fireAndForget
  deriving DecidableEq

namespace ExecutionMode

/-- The name of a mode. -/
def name : ExecutionMode → String
  | awaited => "awaited"
  | fireAndForget => "fire_and_forget"

/-- Decodes a mode. -/
def ofJson? : Json → Option ExecutionMode :=
  Json.decodeChoice [(awaited.name, awaited), (fireAndForget.name, fireAndForget)]

end ExecutionMode

/-- Which lines a handler is meant for. -/
inductive CommandPattern where
  /-- Lines that start with these words, given in lower case. -/
  | command (words : List String)
  | any
  deriving DecidableEq

namespace CommandPattern

/-- The pattern of a command in any case and spacing. -/
def ofCommand (text : String) : CommandPattern :=
  .command (lowerWords text)

/-- A pattern in diagnostics. -/
def describe : CommandPattern → String
  | command words => spaced words
  | any => "*"

/-- How many words of a line the pattern takes, if the line starts with them; a pattern without
words takes none. -/
def matchLength? (tokens : List String) : CommandPattern → Option Nat
  | command words => if !words.isEmpty && words.isPrefixOf tokens then some words.length else none
  | any => none

end CommandPattern

/-- A handler and what it is meant for. -/
structure Registration (ε : Type) where
  name : String
  /-- Which lines it is meant for. -/
  pattern : CommandPattern
  priority : Priority := .normal
  /-- The standing that a sender needs. -/
  permission : Tier := .viewer
  /-- Whether a dispatch waits for it. -/
  mode : ExecutionMode := .awaited
  /-- Whether casters and moderators may skip it. -/
  skippable : Bool := false
  handler : Handler ε

/-- The registered handlers in the order of their registration. -/
abbrev Registry (ε : Type) := List (Registration ε)

/-- A handler that is to run for a line. -/
structure Planned (ε : Type) where
  /-- Its number in the registry. -/
  index : Nat
  registration : Registration ε
  /-- The words it was found by, with single spaces between them. -/
  command : String
  /-- The rest of the line, with single spaces between its words. -/
  param : String

namespace Registry

variable {ε : Type}

/-- The handlers that a tier gives for a line, whose words are given as they are and in lower
case. -/
def planTier (numbered : List (Registration ε × Nat)) (written tokens : List String)
    (priority : Priority) : List (Planned ε) :=
  let tier := numbered.filter fun r => r.1.priority = priority
  let longest := (tier.filterMap fun r => r.1.pattern.matchLength? tokens).max?
  let commands := match longest with
    | none => []
    | some n =>
      (tier.filter fun r => r.1.pattern.matchLength? tokens = some n).map fun r =>
        ⟨r.2, r.1, spaced (tokens.take n), spaced (written.drop n)⟩
  let others := (tier.filter fun r => r.1.pattern = .any).map fun r =>
    ⟨r.2, r.1, "", spaced written⟩
  commands ++ others

/-- The handlers that are to run for a line, in order. -/
def plan (r : Registry ε) (line : String) : List (Planned ε) :=
  let written := Text.words line
  Priority.descending.flatMap (planTier r.zipIdx written (lowerWords line))

end Registry

end ChatBot
