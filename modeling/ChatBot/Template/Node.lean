/-!
# Templates as trees

A template is a list of nodes: literal text, references to parameters and variables, and filters,
whose segments are templates again. Every node knows the raw text that it was read from.
-/

set_option autoImplicit false

namespace ChatBot.Template

/-- A node of a template. -/
inductive Node where
  /-- Plain text, with escapes applied. -/
  | literal (text : String)
  /-- A reference: `$name` to a parameter, `$_name` to a custom variable, which is `persisted`; the
  exclamation mark of `$!name` makes it silent. A variable's name has its mark. -/
  | reference (name : String) (silent persisted : Bool) (source : String)
  /-- A filter `(name|argument|…)`: the name region first, then the arguments. -/
  | filter (segments : List (List Node)) (source : String)
  deriving Inhabited

namespace Node

/-- The text that a node was read from; for plain text, the text itself. -/
def source : Node → String
  | literal text => text
  | reference _ _ _ source => source
  | filter _ source => source

/-- Whether a node is plain text. -/
def isLiteral : Node → Bool
  | literal _ => true
  | _ => false

/-- Whether a node is a filter. -/
def isFilter : Node → Bool
  | filter _ _ => true
  | _ => false

end Node

/-- The raw text of nodes in a row. -/
def sourceOf (nodes : List Node) : String :=
  nodes.foldr (fun n rest => n.source ++ rest) ""

end ChatBot.Template
