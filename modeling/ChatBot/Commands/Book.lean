import ChatBot.Commands.Words
import ChatBot.NameMap
import ChatBot.Number.Plain
import ChatBot.Permission
import ChatBot.Text.Letters

/-!
# The book of custom commands

Custom commands by the normal form of their words. A command is made of words of letters,
numbers, underscores and hyphens, with an optional exclamation mark in front, and holds a list of
responses. Commands that are not enabled are kept but not found.

The id of a command and the times at which it was made and last changed (`id`, `created_at` and
`updated_at`) are left out: nothing looks a command up by them, and no answer depends on them.
-/

set_option autoImplicit false

namespace ChatBot

/-- A response of a custom command. -/
structure CustomResponse where
  text : String
  /-- The tier from which it is given. -/
  permission : Tier := .viewer
  /-- Ends the run when it was given. -/
  stopIfExecuted : Bool := false
  deriving DecidableEq

namespace CustomResponse

/-- Decodes a response. -/
def ofJson? (j : Json) : Option CustomResponse := do
  let fs ← j.fields? ["text", "permission", "stop_if_executed"]
  let text ← fs.required "text" Json.decodeString
  let permission ← fs.orDefault "permission" .viewer Tier.ofJson?
  let stopIfExecuted ← fs.orDefault "stop_if_executed" false Json.decodeBool
  pure { text, permission, stopIfExecuted }

/-- Encodes a response. -/
def toJson (r : CustomResponse) : Json :=
  Json.ofFields [
    ("text", .str r.text), ("permission", .str r.permission.name),
    ("stop_if_executed", .bool r.stopIfExecuted)]

end CustomResponse

/-- A custom command. -/
structure CustomCommand where
  /-- The normal form of its words. -/
  command : String
  enabled : Bool := true
  responses : List CustomResponse := []
  deriving DecidableEq

/-- Encodes a command. -/
def CustomCommand.toJson (c : CustomCommand) : Json :=
  Json.ofFields [
    ("command", .str c.command), ("enabled", .bool c.enabled),
    ("responses", .arr (c.responses.map CustomResponse.toJson))]

/-- Why an operation on the book failed. -/
inductive CommandError where
  | invalidCommand (text : String)
  /-- There is such a command already. -/
  | alreadyExists (command : String)
  | notFound (command : String)
  /-- The command has no response of that number. -/
  | responseIndex (command : String) (index : Nat)
  deriving DecidableEq

/-- The message of an error. -/
def CommandError.message : CommandError → String
  | invalidCommand text => "Invalid command: " ++ text
  | alreadyExists command => "Command already exists: " ++ command
  | notFound command => "Command not found: " ++ command
  | responseIndex command index =>
    "Response " ++ Number.wholeText index ++ " out of range for " ++ command

/-- The characters of a command word. -/
def isCommandChar (c : Char) : Bool :=
  c == '_' || c == '-' || Text.isLetterOrNumber c

/-- Whether a text in normal form names a command. -/
def isCommandName (name : String) : Bool :=
  let cs := match name.toList with
    | '!' :: cs => cs
    | cs => cs
  (Text.splitAt ' ' cs).all fun word => !word.isEmpty && word.all isCommandChar

/-- The custom commands by their normal form. -/
structure CommandBook where
  commands : NameMap CustomCommand := ∅

namespace CommandBook

/-- The command of that name, in any case and spacing. -/
def get? (b : CommandBook) (command : String) : Option CustomCommand :=
  b.commands[normalForm command]?

/-- All commands in the order of their names. -/
def list (b : CommandBook) : List CustomCommand :=
  b.commands.values

/-- Adds a command, enabled. -/
def create (b : CommandBook) (command : String) (responses : List CustomResponse) :
    Except CommandError (CustomCommand × CommandBook) :=
  let key := normalForm command
  if !isCommandName key then .error (.invalidCommand command)
  else
    match b.commands[key]? with
    | some _ => .error (.alreadyExists key)
    | none =>
      let created : CustomCommand := { command := key, responses }
      .ok (created, ⟨b.commands.insert key created⟩)

/-- Removes a command. -/
def delete (b : CommandBook) (command : String) :
    Except CommandError (CustomCommand × CommandBook) :=
  let key := normalForm command
  match b.commands[key]? with
  | some removed => .ok (removed, ⟨b.commands.erase key⟩)
  | none => .error (.notFound key)

/-- Changes a command. -/
def modify (b : CommandBook) (command : String)
    (f : CustomCommand → Except CommandError CustomCommand) : Except CommandError CommandBook :=
  let key := normalForm command
  match b.commands[key]? with
  | none => .error (.notFound key)
  | some c =>
    match f c with
    | .ok c => .ok ⟨b.commands.insert key c⟩
    | .error e => .error e

/-- Enables or disables a command. -/
def setEnabled (b : CommandBook) (command : String) (enabled : Bool) :
    Except CommandError CommandBook :=
  b.modify command fun c => .ok { c with enabled }

/-- Adds a response to a command. -/
def addResponse (b : CommandBook) (command : String) (response : CustomResponse) :
    Except CommandError CommandBook :=
  b.modify command fun c => .ok { c with responses := c.responses ++ [response] }

/-- Replaces a response of a command. -/
def updateResponse (b : CommandBook) (command : String) (index : Nat)
    (response : CustomResponse) : Except CommandError CommandBook :=
  b.modify command fun c =>
    if index < c.responses.length then .ok { c with responses := c.responses.set index response }
    else .error (.responseIndex c.command index)

/-- Removes a response of a command, and gives it. -/
def removeResponse (b : CommandBook) (command : String) (index : Nat) :
    Except CommandError (CustomResponse × CommandBook) :=
  let key := normalForm command
  match b.commands[key]? with
  | none => .error (.notFound key)
  | some c =>
    match c.responses[index]? with
    | none => .error (.responseIndex c.command index)
    | some removed =>
      .ok (removed, ⟨b.commands.insert key { c with responses := c.responses.eraseIdx index }⟩)

/-- The longest enabled command that a line starts with, and the rest of the line with single
spaces between its words. -/
def find? (b : CommandBook) (line : String) : Option (CustomCommand × String) :=
  let written := Text.words line
  let tokens := lowerWords line
  longestBeginning (fun n =>
    match b.commands[spaced (tokens.take n)]? with
    | some c => if c.enabled then some (c, spaced (written.drop n)) else none
    | none => none) tokens.length

end CommandBook

end ChatBot
