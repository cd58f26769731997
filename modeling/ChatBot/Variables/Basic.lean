import ChatBot.Json.Decode
import ChatBot.Number.Plain
import ChatBot.Permission
import ChatBot.Text.Search

/-!
# Custom variables

A custom variable has a name that starts with `$_`, a text as its value, and rules about who may
change it and how a change is made known. The value of a number variable is the text of a finite
number, and its step, by which `+` and `-` change it, is finite and not zero.

When a variable was made (`created_at`) and when it was last written (`updated_at`) is left out,
here and in the encoding: these two times are written and never read.
-/

set_option autoImplicit false

namespace ChatBot

/-- What the value of a variable is. -/
inductive VariableKind where
  | number
  | text
  /-- A value worked out elsewhere, which templates never change. -/
  | eval
  deriving DecidableEq

namespace VariableKind

/-- The name of a kind. -/
def name : VariableKind → String
  | number => "number"
  | text => "text"
  | eval => "eval"

/-- Decodes a kind. -/
def ofJson? : Json → Option VariableKind :=
  Json.decodeChoice [("number", number), ("text", text), ("eval", eval)]

end VariableKind

/-- How a change made by a template shows. -/
inductive ResponseType where
  /-- The new value stands in the text. -/
  | inline
  /-- The old value stands in the text, and the usual notification is sent. -/
  | announce
  /-- The old value stands in the text, and this notification is sent. -/
  | custom (text : String)
  deriving DecidableEq

namespace ResponseType

/-- Encodes a response type as its mode, with the text if it has one. -/
def toJson : ResponseType → Json
  | inline => Json.ofFields [("mode", .str "inline")]
  | announce => Json.ofFields [("mode", .str "announce")]
  | custom text => Json.ofFields [("mode", .str "custom"), ("text", .str text)]

/-- The response type of a mode and its text. -/
def ofParts? (mode : Json) (text : Option Json) : Option ResponseType :=
  match Json.decodeChoice [("inline", 0), ("announce", 1), ("custom", 2)] mode, text with
  | some 0, none => some inline
  | some 0, some .null => some inline
  | some 1, none => some announce
  | some 1, some .null => some announce
  | some 2, some (.str s) => some (custom s)
  | _, _ => none

/-- Decodes a response type from an object or from the list of its mode and text. -/
def ofJson? : Json → Option ResponseType
  | .obj fields => (fields.lookup "mode").bind fun mode => ofParts? mode (fields.lookup "text")
  | .arr [mode, text] => ofParts? mode (some text)
  | _ => none

end ResponseType

/-- What every variable name starts with. -/
def variableMark : String := "$_"

/-- The greatest length of a variable name after the mark. -/
def maxNameLength : Nat := 64

/-- What is wrong with a variable name. -/
inductive NameFault where
  /-- It does not start with the mark. -/
  | unmarked (name : String)
  /-- It is empty or too long after the mark. -/
  | length
  /-- It holds a character that is neither an ASCII letter or digit nor an underscore. -/
  | characters
  deriving DecidableEq

/-- The message of a fault. -/
def NameFault.message : NameFault → String
  | unmarked name => name ++ " must start with " ++ variableMark
  | length => "Name must have 1-64 characters after " ++ variableMark
  | characters => "Name must contain only alphanumeric characters or underscore"

/-- What is wrong with the value or the step of a number variable. -/
inductive ValueFault where
  /-- The text is not that of a finite number. -/
  | notNumeric (text : String)
  /-- The step is zero or not finite. -/
  | step
  deriving DecidableEq

/-- The message of a fault. -/
def ValueFault.message : ValueFault → String
  | notNumeric text => text ++ " is not a number"
  | step => "Step must be a finite, non-zero number"

/-- Why a backend could not answer. -/
inductive BackendError where
  /-- The stored value or the sum is not a finite number. -/
  | notNumeric (text : String)
  /-- The backend is out of order. -/
  | unavailable (text : String)
  /-- The server of the backend cannot be reached. -/
  | unreachable
  deriving DecidableEq

/-- The message of an error. -/
def BackendError.message : BackendError → String
  | notNumeric text => "Not a finite number: " ++ text
  | unavailable text => "Backend unavailable: " ++ text
  | unreachable => "Redis error: server unreachable"

/-- Why an operation on a variable failed. -/
inductive VariableError where
  /-- There is no variable of that name. -/
  | notFound (name : String)
  | alreadyExists (name : String)
  /-- The name is no variable name. -/
  | invalidName (fault : NameFault)
  /-- The value does not fit the kind. -/
  | invalidValue (fault : ValueFault)
  | backend (cause : BackendError)
  deriving DecidableEq

/-- The message of an error. -/
def VariableError.message : VariableError → String
  | notFound name => "Variable not found: " ++ name
  | alreadyExists name => "Variable already exists: " ++ name
  | invalidName fault => "Invalid variable name: " ++ fault.message
  | invalidValue fault => "Invalid variable value: " ++ fault.message
  | backend cause => "Variable backend error: " ++ cause.message

/-- A custom variable. -/
structure CustomVariable where
  /-- The name, with its mark. -/
  name : String
  kind : VariableKind := .text
  value : String := ""
  /-- What `+` adds and `-` takes away. -/
  step : Float := 1.0
  /-- The tier from which templates may change the variable. -/
  permission : Tier := .viewer
  /-- Keeps templates from changing the variable. -/
  readOnly : Bool := false
  responseType : ResponseType := .announce
  description : Option String := none

/-- What is wrong with a name, if anything; the mark is looked at first, then the length in bytes,
then the characters. -/
def nameFault? (name : String) : Option NameFault :=
  match Text.after? name variableMark with
  | none => some (.unmarked name)
  | some rest =>
    if rest.isEmpty || maxNameLength < rest.utf8ByteSize then some .length
    else if rest.toList.all fun c => Text.isAsciiAlnum c || c == '_' then none
    else some .characters

namespace CustomVariable

/-- The fields of a variable in their order. -/
def fieldNames : List String :=
  ["name", "kind", "current_value", "step", "permission", "read_only", "response_type",
    "description"]

/-- Decodes a variable. -/
def ofJson? (j : Json) : Option CustomVariable := do
  let fs ← j.fields? fieldNames
  let name ← fs.required "name" Json.decodeString
  let kind ← fs.orDefault "kind" .text VariableKind.ofJson?
  let value ← fs.orDefault "current_value" "" Json.decodeString
  let step ← fs.orDefault "step" 1.0 Json.decodeFloat
  let permission ← fs.orDefault "permission" .viewer Tier.ofJson?
  let readOnly ← fs.orDefault "read_only" false Json.decodeBool
  let responseType ← fs.orDefault "response_type" .announce ResponseType.ofJson?
  let description ← fs.optional "description" Json.decodeString
  pure { name, kind, value, step, permission, readOnly, responseType, description }

/-- Encodes a variable; without a description there is no field for it. -/
def toJson (v : CustomVariable) : Json :=
  let description := match v.description with
    | some text => [("description", Json.str text)]
    | none => []
  Json.ofFields ([
    ("name", .str v.name), ("kind", .str v.kind.name), ("current_value", .str v.value),
    ("step", Json.ofFloat v.step), ("permission", .str v.permission.name),
    ("read_only", .bool v.readOnly), ("response_type", v.responseType.toJson)] ++ description)

/-- Whether a step may be added over and over. -/
def isStep (x : Float) : Bool :=
  Number.isFinite x && x != 0.0

/-- What is wrong with a variable, if anything. -/
def fault? (v : CustomVariable) : Option VariableError :=
  match nameFault? v.name with
  | some fault => some (.invalidName fault)
  | none =>
    if v.kind = .number then
      if (Number.parse? v.value).isNone then some (.invalidValue (.notNumeric v.value))
      else if !isStep v.step then some (.invalidValue .step)
      else none
    else none

end CustomVariable

/-- What a new variable is to be. -/
structure CreateVariable where
  /-- The name, with its mark. -/
  name : String
  kind : VariableKind := .text
  /-- The value, if one is given. -/
  value : Option String := none
  /-- The step, if one is given. -/
  step : Option Float := none
  /-- The tier from which templates may change the variable. -/
  permission : Tier := .viewer
  /-- Keeps templates from changing the variable. -/
  readOnly : Bool := false
  responseType : ResponseType := .announce
  description : Option String := none

namespace CreateVariable

/-- Decodes the wish for a variable. -/
def ofJson? (j : Json) : Option CreateVariable := do
  let fs ← j.fields? CustomVariable.fieldNames
  let name ← fs.required "name" Json.decodeString
  let kind ← fs.orDefault "kind" .text VariableKind.ofJson?
  let value ← fs.optional "current_value" Json.decodeString
  let step ← fs.optional "step" Json.decodeFloat
  let permission ← fs.orDefault "permission" .viewer Tier.ofJson?
  let readOnly ← fs.orDefault "read_only" false Json.decodeBool
  let responseType ← fs.orDefault "response_type" .announce ResponseType.ofJson?
  let description ← fs.optional "description" Json.decodeString
  pure { name, kind, value, step, permission, readOnly, responseType, description }

/-- The value of a variable that is not given one: zero for numbers, else nothing. -/
def defaultValue : VariableKind → String
  | .number => "0"
  | _ => ""

/-- The variable that is wished for. -/
def variableOf (r : CreateVariable) : CustomVariable where
  name := r.name
  kind := r.kind
  value := r.value.getD (defaultValue r.kind)
  step := r.step.getD 1.0
  permission := r.permission
  readOnly := r.readOnly
  responseType := r.responseType
  description := r.description

end CreateVariable

/-- What is to change about a variable; what is not given stays. -/
structure UpdateVariable where
  kind : Option VariableKind := none
  value : Option String := none
  step : Option Float := none
  /-- The tier from which templates may change the variable. -/
  permission : Option Tier := none
  /-- Whether templates are kept from changing the variable. -/
  readOnly : Option Bool := none
  responseType : Option ResponseType := none
  /-- What the variable is for, where it may also be taken away. -/
  description : Option (Option String) := none

namespace UpdateVariable

/-- Decodes the wish for a change. -/
def ofJson? (j : Json) : Option UpdateVariable := do
  let fs ← j.fields? ["kind", "current_value", "step", "permission", "read_only",
    "response_type", "description"]
  let kind ← fs.optional "kind" VariableKind.ofJson?
  let value ← fs.optional "current_value" Json.decodeString
  let step ← fs.optional "step" Json.decodeFloat
  let permission ← fs.optional "permission" Tier.ofJson?
  let readOnly ← fs.optional "read_only" Json.decodeBool
  let responseType ← fs.optional "response_type" ResponseType.ofJson?
  let description ← fs.optional "description" Json.decodeString
  pure { kind, value, step, permission, readOnly, responseType,
         description := description.map some }

/-- The variable after the change. -/
def apply (u : UpdateVariable) (v : CustomVariable) : CustomVariable where
  name := v.name
  kind := u.kind.getD v.kind
  value := u.value.getD v.value
  step := u.step.getD v.step
  permission := u.permission.getD v.permission
  readOnly := u.readOnly.getD v.readOnly
  responseType := u.responseType.getD v.responseType
  description := u.description.getD v.description

end UpdateVariable

/-- A change of a variable's value. -/
structure VariableChange where
  oldValue : String
  newValue : String
  deriving DecidableEq

/-- Encodes a change. -/
def VariableChange.toJson (c : VariableChange) : Json :=
  Json.ofFields [("old_value", .str c.oldValue), ("new_value", .str c.newValue)]

/-- The notice that a variable has changed. -/
structure VariableNotification where
  variableName : String
  oldValue : String
  newValue : String
  text : String
  deriving DecidableEq

/-- Encodes a notice. -/
def VariableNotification.toJson (n : VariableNotification) : Json :=
  Json.ofFields [
    ("variable", .str n.variableName), ("old_value", .str n.oldValue),
    ("new_value", .str n.newValue), ("text", .str n.text)]

/-- What a reference to a variable comes to. -/
structure Resolution where
  display : String
  /-- The notice of a change, if there is one. -/
  notification : Option VariableNotification := none
  deriving DecidableEq

/-- Encodes a resolution. -/
def Resolution.toJson (r : Resolution) : Json :=
  Json.ofFields [
    ("display", .str r.display),
    ("notification", (r.notification.map VariableNotification.toJson).getD .null)]

/-- How an attempt to change a variable through a template went. -/
inductive MutationResult where
  | applied
  /-- The operand does not fit the variable. -/
  | invalid
  /-- The variable may not be changed by this sender. -/
  | rejected
  deriving DecidableEq

/-- The name of a result. -/
def MutationResult.name : MutationResult → String
  | applied => "applied"
  | invalid => "invalid"
  | rejected => "rejected"

end ChatBot
