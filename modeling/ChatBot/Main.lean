import ChatBot.CommandLine
import ChatBot.Text.UpperCase

/-!
# The bot on a command line

Runs the bot on standard input and output. Settings come from the files `config/default.json` and
`config/<mode>.json`, as far as they are there, and from the environment. The exit code is one
when the settings cannot be used.
-/

set_option autoImplicit false

namespace ChatBot.Console

/-- The variables of the environment that hold a setting, in upper and in lower case. -/
def environmentNames : List String :=
  let names := Settings.paths.map fun path => Text.replaceAll path "." "__"
  names.map Text.upper ++ names

/-- Reads the environment. -/
def readEnvironment : IO (List (String × String)) := do
  let mut found := []
  for name in "RUN_MODE" :: environmentNames do
    match ← IO.getEnv name with
    | some text => found := found ++ [(name, text)]
    | none => pure ()
  return found

/-- Reads a file of settings, if it is there; a text that is no JSON value counts as null. -/
def readFile (name : String) : IO (List (String × Json)) := do
  try
    let text ← IO.FS.readFile ("config/" ++ name ++ ".json")
    return [(name, (Json.parse? text).getD .null)]
  catch _ =>
    return []

/-- Answers the lines of standard input up to its end. -/
partial def serve (input output : IO.FS.Stream) (c : Console) : IO Unit := do
  let line ← input.getLine
  if line.isEmpty then return ()
  let (lines, c) := c.answer line
  for text in lines do
    output.putStrLn text
  output.flush
  serve input output c

end ChatBot.Console

open ChatBot in
/-- Runs the bot. -/
def main : IO UInt32 := do
  let environment ← Console.readEnvironment
  let mode := Settings.runMode environment
  let files := (← Console.readFile "default") ++ (← Console.readFile mode)
  match Settings.load? environment files with
  | none =>
    IO.eprintln "Error: the settings cannot be read"
    return 1
  | some settings =>
    let seed ← IO.rand 0 (Number.wordLimit - 1)
    match Console.start CommandLine.surroundings settings (.ofSeed (UInt64.ofNat seed)) with
    | .error .endpoint =>
      IO.eprintln "Error: the telemetry endpoint is no address"
      return 1
    | .error .userAgent =>
      IO.eprintln "Error: the user agent cannot be sent"
      return 1
    | .ok console =>
      Console.serve (← IO.getStdin) (← IO.getStdout) console
      return 0
