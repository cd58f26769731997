import ChatBot.Commands.Responder
import ChatBot.Dispatch.Dispatcher
import ChatBot.Points.PriceGate
import ChatBot.Settings.Layers

/-!
# The bot on a console

A bot that reads chat lines of the form `name: text` and prints what it has to say. It knows two
commands, one of which costs points, and whoever speaks for the first time is entered into the
directory and given points to spend. `Console.start` is the bot before the first line, and
`Console.answer` takes it through one line.
-/

set_option autoImplicit false

namespace ChatBot

open ChatBot.Template

/-- Why a bot cannot start. -/
inductive StartFailure where
  /-- Reports are to be sent to what is no address. -/
  | endpoint
  /-- The name under which fetches are made cannot be sent. -/
  | userAgent
  deriving DecidableEq

/-- What a bot finds around it when it starts: which texts in its settings can be used, and what
makes its fetches. -/
structure Surroundings where
  /-- Whether variables can be held behind an address. -/
  isServerUrl : String → Bool
  /-- Whether reports can be sent to an address. -/
  isEndpoint : String → Bool
  /-- Whether fetches can be made under a name. -/
  isAgent : String → Bool
  client : Http.Client

/-- A bot on a console: what lines are dispatched with, and the state that they work on. -/
structure Console where
  dispatcher : Dispatcher Unit
  world : World Unit

namespace Console

/-- The points of whoever speaks for the first time. -/
def startingPoints : Int64 := 100

/-- The commands that the bot knows, each with the template of its answer. -/
def commands : List (String × String) := [
  ("!hug", "$sender hugs $touser (random.number-1-to-100)% hard!"),
  ("!points", "$sender, try !hug for 10 points")]

/-- The book of those commands. -/
def book : CommandBook :=
  commands.foldl (fun b command =>
    match b.create command.1 [{ text := command.2 }] with
    | .ok (_, b) => b
    | .error _ => b) {}

/-- What those commands cost. -/
def prices : PriceTable :=
  ({} : PriceTable).set "!hug" 10

/-- The dispatcher of an engine: prices are paid first, then commands are answered. -/
def dispatcherOf (engine : Engine) (owners : Owners) : Dispatcher Unit where
  registry := [
    Points.gateRegistration Locale.english Points.noOutage,
    Commands.responderRegistration engine owners Locale.english]
  owners := owners

/-- The bot before the first line. -/
def start (around : Surroundings) (settings : Settings) (entropy : Entropy) :
    Except StartFailure Console :=
  if settings.telemetry.enabled && !around.isEndpoint settings.telemetry.endpoint then
    .error .endpoint
  else
    match Engine.ofConfig? around.isAgent settings.engine {} with
    | none => .error .userAgent
    | some engine =>
      let engine := { engine with entropy, client := around.client }
      .ok {
        dispatcher := dispatcherOf engine (Owners.ofNames settings.owners)
        world := {
          store := settings.storage.store around.isServerUrl
          prices
          commands := book
          extra := () } }

/-- A line without the line break at its end. -/
def withoutBreak (line : String) : String :=
  match line.toList.reverse with
  | '\n' :: '\r' :: cs => String.ofList cs.reverse
  | '\n' :: cs => String.ofList cs.reverse
  | _ => line

/-- The lines of a text, each with its line break; nothing follows the last line break. -/
def linesOf (text : String) : List String :=
  let pieces := Text.splitOn text '\n'
  let last := pieces.drop (pieces.length - 1)
  (pieces.dropLast.map fun line => line ++ "\n") ++ last.filter (· ≠ "")

/-- The message that a line stands for: what comes before the first colon is the name of the
sender, who is known by that name in lower case. A line without a colon is none. -/
def message? (line : String) : Option ChatMessage :=
  (Text.splitOnce (withoutBreak line) ":").map fun (name, text) =>
    let username := Text.trim name
    { sender := ⟨Text.lower username, username⟩, text := Text.trim text }

/-- Enters a sender into the directory. -/
def enter (s : Sender) : Activity Unit Unit :=
  .change fun w =>
    { w with
      directory := w.directory.upsert { id := s.id, username := s.username, isOnline := true } }

/-- Gives a sender the points to start with. -/
def fund (s : Sender) : Activity Unit Unit :=
  .change fun w => { w with ledger := w.ledger.setBalance s.id startingPoints }

/-- Enters whoever speaks for the first time into the directory, and gives points to spend. -/
def welcome (s : Sender) : Activity Unit Unit := do
  match ← World.findUser s.id with
  | some _ => return ()
  | none =>
    enter s
    fund s

/-- Takes a line through the bot. -/
def handle (d : Dispatcher Unit) (line : String) : Activity Unit Unit := do
  match message? line with
  | none => return ()
  | some m =>
    welcome m.sender
    let _ ← d.dispatch m

/-- How a message is printed: behind its kind in brackets, if it has one. -/
def printed (m : OutboundMessage) : String :=
  match m.attrs["kind"]? with
  | some kind => "[" ++ kind ++ "] " ++ m.text
  | none => m.text

/-- What the bot prints for a line, and the bot afterwards. -/
def answer (c : Console) (line : String) : List String × Console :=
  let world := ((handle c.dispatcher line).run c.world).2
  (world.delivered.map printed, { c with world := { world with delivered := [] } })

/-- What the bot prints for lines in a row. -/
def answerAll (c : Console) : List String → List String
  | [] => []
  | line :: rest =>
    let (lines, c) := c.answer line
    lines ++ c.answerAll rest

/-- What the bot prints for a whole input. -/
def transcript (c : Console) (input : String) : List String :=
  c.answerAll (linesOf input)

end Console

end ChatBot
