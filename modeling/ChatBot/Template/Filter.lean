import ChatBot.Number.Plain
import ChatBot.Template.Context
import ChatBot.Text.Quoted
import ChatBot.Text.Search

/-!
# Filters

What the name of a filter means. The first part of a name, up to its first dot, decides whether it
belongs to one of the six built-in families; any other name may be registered for a filter of
one's own. A registered filter can leave a by-product, which is addressed by the filter's name,
a dot and a path.
-/

set_option autoImplicit false

namespace ChatBot.Template

/-- The rendered name and arguments of a filter. -/
structure FilterArgs where
  name : String
  args : List String
  deriving DecidableEq

/-- All arguments with bars between them. -/
def FilterArgs.joined (a : FilterArgs) : String :=
  Text.joinWith "|" a.args

/-- What a filter of one's own gives: a text, and something for others to look up. -/
structure FilterOutput where
  /-- What stands in the text, if anything. -/
  text : Option String := none
  /-- What is kept under the filter's name, if anything. -/
  byProduct : Option Json := none

/-- A filter of one's own: a function of its arguments and the context. -/
abbrev CustomFilter := FilterArgs → RenderContext → FilterOutput

/-- Among whom a user is drawn. -/
inductive RandomScope where
  | viewer
  | onlineViewer
  | follower
  | onlineFollower
  | subscriber
  | onlineSubscriber
  deriving DecidableEq

namespace RandomScope

/-- The filter on users that a scope stands for. -/
def userFilter : RandomScope → UserFilter
  | viewer => {}
  | onlineViewer => { onlineOnly := true }
  | follower => { followersOnly := true }
  | onlineFollower => { onlineOnly := true, followersOnly := true }
  | subscriber => { subscribersOnly := true }
  | onlineSubscriber => { onlineOnly := true, subscribersOnly := true }

/-- The name of a scope in diagnostics. -/
def name : RandomScope → String
  | viewer => "Viewer"
  | onlineViewer => "OnlineViewer"
  | follower => "Follower"
  | onlineFollower => "OnlineFollower"
  | subscriber => "Subscriber"
  | onlineSubscriber => "OnlineSubscriber"

/-- The scopes as they are written behind `random.`. -/
def byName : List (String × RandomScope) := [
  ("viewer", viewer), ("online.viewer", onlineViewer), ("follower", follower),
  ("online.follower", onlineFollower), ("subscriber", subscriber),
  ("online.subscriber", onlineSubscriber)]

end RandomScope

/-- What a filter does. -/
inductive FilterKind where
  /-- A choice between branches, when it is written as one. -/
  | choice
  | randomUser (scope : RandomScope)
  /-- Draws a whole number between two bounds. -/
  | randomNumber (low high : Int) (ordered : low ≤ high)
  | randomBool
  | api
  | byProduct (key path : String)
  /-- Evaluates an expression, which is the arguments unless it is given here. -/
  | math (expression : Option String)
  /-- Writes a share as a percentage. -/
  | toPercent
  /-- Writes a number with fixed decimals. -/
  | toFloat
  | custom (filter : CustomFilter)
  | unknown

namespace FilterKind

/-- The label under which evaluations are counted. -/
def label : FilterKind → String
  | choice => "if"
  | randomUser _ => "random_user"
  | randomNumber _ _ _ => "random_number"
  | randomBool => "random_true_or_false"
  | api => "api"
  | byProduct _ _ => "by_product"
  | math _ => "math"
  | toPercent => "to_percent"
  | toFloat => "to_float"
  | custom _ => "custom"
  | unknown => "unknown"

/-- A filter's kind in diagnostics. -/
def describe : FilterKind → String
  | randomUser scope => "RandomUser(" ++ scope.name ++ ")"
  | randomNumber low high _ =>
    "RandomNumber \x7b min: " ++ Number.wholeText low ++ ", max: " ++ Number.wholeText high ++
      " \x7d"
  | byProduct key path =>
    "ByProduct \x7b key: " ++ Text.quoted key ++ ", path: " ++ Text.quoted path ++ " \x7d"
  | math none => "Math(None)"
  | math (some expression) => "Math(Some(" ++ Text.quoted expression ++ "))"
  | kind => kind.label

end FilterKind

/-- The part of a name before its first dot. -/
def firstPart (name : String) : String :=
  String.ofList (name.toList.takeWhile (· != '.'))

/-- A range of random numbers, written `number-<a>-to-<b>` with the bounds in either order. -/
def randomRange? (text : String) : Option FilterKind := do
  let bounds ← Text.after? text "number-"
  let (a, b) ← Text.splitOnce bounds "-to-"
  let a ← Number.readInt? (Text.trim a)
  let b ← Number.readInt? (Text.trim b)
  pure (.randomNumber (min a b) (max a b) (by omega))

/-- The kind of a name of the `random` family. -/
def classifyRandom (name : String) : Option FilterKind :=
  (Text.after? name "random.").bind fun rest =>
    match RandomScope.byName.lookup rest with
    | some scope => some (.randomUser scope)
    | none => if rest = "true-or-false" then some .randomBool else randomRange? rest

/-- The kind of a name of the `api` family. -/
def classifyApi (name : String) : Option FilterKind :=
  if name = "api" then some .api
  else
    (Text.after? name "api.").bind fun path =>
      if path.isEmpty then none else some (.byProduct "api" path)

/-- The kind of a name of the `math` family. -/
def classifyMath (name : String) : Option FilterKind :=
  if name = "math" then some (.math none)
  else (Text.after? name "math.").map fun expression => .math (some expression)

/-- The first parts of the built-in families. -/
def builtinParts : List String := ["if", "random", "api", "math", "toPercent", "toFloat"]

/-- Whether a name belongs to a built-in family. -/
def isBuiltin (name : String) : Bool :=
  builtinParts.contains (firstPart name)

/-- The kind of a name of a built-in family, if the name is one of the family's. -/
def classifyBuiltin (name : String) : Option FilterKind :=
  match firstPart name with
  | "if" => if name = "if" then some .choice else none
  | "random" => classifyRandom name
  | "api" => classifyApi name
  | "math" => classifyMath name
  | "toPercent" => if name = "toPercent" then some .toPercent else none
  | "toFloat" => if name = "toFloat" then some .toFloat else none
  | _ => none

/-- Why a filter was not registered. -/
inductive FilterError where
  /-- The name belongs to a built-in family. -/
  | builtinClash (name : String)
  | alreadyRegistered (name : String)
  /-- The name is empty or holds other characters than ASCII letters, digits, dots, underscores
  and hyphens. -/
  | invalidName (name : String)
  deriving DecidableEq

/-- The message of an error. -/
def FilterError.message : FilterError → String
  | builtinClash name => "Filter name clashes with built-in filter: " ++ name
  | alreadyRegistered name => "Filter already registered: " ++ name
  | invalidName name => "Invalid filter name: " ++ name

/-- The characters of filter names. -/
def isFilterNameChar (c : Char) : Bool :=
  Text.isAsciiAlnum c || c == '.' || c == '_' || c == '-'

/-- The registered filters by name. -/
structure FilterRegistry where
  custom : NameMap CustomFilter := ∅

namespace FilterRegistry

/-- Registers a filter under a name. -/
def register (r : FilterRegistry) (name : String) (filter : CustomFilter) :
    Except FilterError FilterRegistry :=
  if name.isEmpty || !name.toList.all isFilterNameChar then .error (.invalidName name)
  else if isBuiltin name then .error (.builtinClash name)
  else
    match r.custom[name]? with
    | some _ => .error (.alreadyRegistered name)
    | none => .ok ⟨r.custom.insert name filter⟩

/-- Whether a name is registered or belongs to a built-in family. -/
def isRegistered (r : FilterRegistry) (name : String) : Bool :=
  r.custom.contains name || isBuiltin name

/-- The kind of a name without blanks around it. A name that is registered stands for its filter;
otherwise what comes before the first dot may be registered, and the rest is a path. -/
def classifyTrimmed (r : FilterRegistry) (name : String) : FilterKind :=
  match classifyBuiltin name with
  | some kind => kind
  | none =>
    match r.custom[name]? with
    | some filter => .custom filter
    | none =>
      match Text.splitOnce name "." with
      | some (key, path) =>
        if r.custom.contains key && !path.isEmpty then .byProduct key path else .unknown
      | none => .unknown

/-- The kind of a rendered name. -/
def classify (r : FilterRegistry) (name : String) : FilterKind :=
  r.classifyTrimmed (Text.trim name)

end FilterRegistry

end ChatBot.Template
