import ChatBot.Json.Parser
import ChatBot.Settings.Basic

/-!
# Layers of settings

Settings are laid over one another: the file `default`, the file of the run mode, and the
environment. Sections are merged, and of two values for one setting the later one counts. The
values of the environment are texts, so a value is turned into what its setting asks for wherever
that makes sense: the text of a number is a number, and `yes`, `on` and `true` are one truth.
-/

set_option autoImplicit false

namespace ChatBot.Settings

/-- The fields of an object; any other value has none. -/
def fieldsOf : Json → List (String × Json)
  | .obj fields => fields
  | _ => []

mutual

/-- Lays a value over what stands under a name: objects are merged, all else is replaced. -/
def assign (key : String) (root : Json) : Json → Json
  | .obj incoming =>
    let target := ((fieldsOf root).lookup key).getD (.obj [])
    .obj (Json.insertField key (assignAll target incoming) (fieldsOf root))
  | value => .obj (Json.insertField key value (fieldsOf root))

/-- Lays named values over what stands under their names. -/
def assignAll (root : Json) : List (String × Json) → Json
  | [] => root
  | (key, value) :: rest => assignAll (assign key root value) rest

end

/-- Lays a value over what stands under a path of names. -/
def assignAt (value : Json) : List String → Json → Json
  | [], root => root
  | [key], root => assign key root value
  | key :: rest, root =>
    let inner := ((fieldsOf root).lookup key).getD (.obj [])
    .obj (Json.insertField key (assignAt value rest inner) (fieldsOf root))

/-- The characters of the names in a path. -/
def isPathChar (c : Char) : Bool :=
  Text.isAsciiAlnum c || c == ' ' || c == '_' || c == '-'

/-- The names of a path that is written with dots; what is no path is one name. -/
def pathOf (key : String) : List String :=
  let parts := Text.splitOn key '.'
  if parts.all fun part => !part.isEmpty && part.toList.all isPathChar then parts else [key]

/-- Lays named values over settings, names with dots being paths. -/
def overlay (root : Json) (values : List (String × Json)) : Json :=
  values.foldl (fun root entry => assignAt entry.2 (pathOf entry.1) root) root

/-- The path under which the list of owners stands. -/
def ownersPath : String := "permissions.owners"

/-- The value that a text of the environment stands for: a truth value, a number or the text; the
owners are a list of texts with commas between them. -/
def environmentValue (path text : String) : Json :=
  match Text.lower text with
  | "true" => .bool true
  | "false" => .bool false
  | _ =>
    match Number.readInt? text with
    | some n => .int n
    | none =>
      match Number.readFloat? text with
      | some x => .float x
      | none =>
        if path = ownersPath then .arr ((Text.splitOn text ',').map .str) else .str text

/-- The path and the value of a variable of the environment. -/
def environmentEntry (entry : String × String) : String × Json :=
  let path := Text.replaceAll (Text.lower entry.1) "__" "."
  (path, environmentValue path entry.2)

/-- The words for truth and falsehood. -/
def truthWord? (text : String) : Option Bool :=
  match Text.lower text with
  | "true" => some true
  | "on" => some true
  | "yes" => some true
  | "false" => some false
  | "off" => some false
  | "no" => some false
  | _ => none

/-- The natural number nearest to a number, from zero up to the largest of sixty-four bits. -/
def clampedNat (x : Float) : Nat :=
  match Number.Binary.ofFloat x with
  | .infinite false => Number.wordLimit - 1
  | _ =>
    match Number.wholePart? (Number.round x) with
    | some n => min n.toNat (Number.wordLimit - 1)
    | none => 0

/-- Turns a value into a whole number. -/
def lenientNat : Json → Option Nat
  | .int n =>
    if n < 0 then none
    else if n < Int.ofNat Number.signedLimit then some n.toNat
    else some (clampedNat (Float.ofInt n))
  | .bool b => some (if b then 1 else 0)
  | .float x => some (clampedNat x)
  | .str s =>
    match truthWord? s with
    | some b => some (if b then 1 else 0)
    | none => Number.readNat? s
  | _ => none

/-- Turns a value into a truth value. -/
def lenientBool : Json → Option Bool
  | .bool b => some b
  | .int n => some (n != 0)
  | .float x => some (x != 0.0)
  | .str s => if s = "1" then some true else if s = "0" then some false else truthWord? s
  | _ => none

/-- Turns a value into a number. -/
def lenientFloat : Json → Option Float
  | .float x => some x
  | .int n => some (Float.ofInt n)
  | .bool b => some (if b then 1.0 else 0.0)
  | .str s =>
    match truthWord? s with
    | some b => some (if b then 1.0 else 0.0)
    | none => Number.readFloat? s
  | _ => none

/-- Turns a value into a text. -/
def lenientString : Json → Option String
  | .str s => some s
  | .bool b => some (if b then "true" else "false")
  | .int n =>
    if n < Int.ofNat Number.signedLimit then some (Number.wholeText n)
    else some (Number.plain (Float.ofInt n))
  | .float x => some (Number.plain x)
  | _ => none

/-- Every value is turned into what its setting asks for. -/
def lenientDecoders : SettingDecoders where
  string := lenientString
  bool := lenientBool
  float := lenientFloat
  nat := lenientNat

/-- The run mode when none is set. -/
def defaultRunMode : String := "development"

/-- The run mode of an environment. -/
def runMode (environment : List (String × String)) : String :=
  (environment.lookup "RUN_MODE").getD defaultRunMode

/-- The settings of an environment and of files given by name. There are none when a file does not
hold an object or when a value cannot be turned into what its setting asks for. -/
def load? (environment : List (String × String)) (files : List (String × Json)) :
    Option Settings := do
  let base ← fileLayer "default" (.obj [])
  let base ← fileLayer (runMode environment) base
  decode? lenientDecoders (overlay base (environment.map environmentEntry))
where
  /-- Lays a file over settings, if there is such a file. -/
  fileLayer (name : String) (root : Json) : Option Json :=
    match files.lookup name with
    | none => some root
    | some (.obj fields) => some (overlay root fields)
    | some _ => none

end ChatBot.Settings
