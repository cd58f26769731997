import ChatBot.Json.Printer
import ChatBot.Number.Reader
import ChatBot.Text.Search

/-!
# Paths into by-products

A path is a list of keys with dots between them. Each key picks a field of an object or, as a
whole number, an item of a list. The path `_response` stands for the whole value.
-/

set_option autoImplicit false

namespace ChatBot.Template

/-- What a key picks. -/
def stepInto? (v : Json) (key : String) : Option Json :=
  match v with
  | .obj fields => fields.lookup key
  | .arr items => (Number.readNat? key).bind fun n => items[n]?
  | _ => none

/-- What keys pick one after the other. -/
def follow? : Json → List String → Option Json
  | v, [] => some v
  | v, key :: rest => (stepInto? v key).bind fun next => follow? next rest

/-- The text of a whole value: a text stands for itself. -/
def wholeText : Json → String
  | .str s => s
  | v => v.render

/-- The text of what a path leads to; nothing when it leads nowhere. -/
def lookupPath (v : Json) (path : String) : String :=
  if path = "_response" then wholeText v
  else
    match follow? v (Text.splitOn path '.') with
    | some found => found.text
    | none => ""

end ChatBot.Template
