import ChatBot.Http.Fetching
import ChatBot.Json.Parser
import ChatBot.Math.Expression
import ChatBot.Number.Fixed
import ChatBot.Template.Builder
import ChatBot.Template.Condition
import ChatBot.Template.Engine
import ChatBot.Template.Lookup
import ChatBot.Variables.Operations

/-!
# Rendering templates

Rendering goes from left to right and from the inside out, and never fails: what cannot be
evaluated stays as text. A filter renders its name and its arguments and is then evaluated by its
name; a choice renders its condition and then one branch only. Filters that stand too deep inside
others are not evaluated at all.
-/

set_option autoImplicit false

namespace ChatBot.Template

variable {ε : Type}

/-- A rendering: it works on a context and on the shared state. -/
abbrev Render (ε : Type) := StateT RenderContext (Activity ε)

/-- A filter written out again from its rendered name and arguments. -/
def writtenOut (a : FilterArgs) : String :=
  "(" ++ Text.joinWith "|" (a.name :: a.args) ++ ")"

/-- Renders a reference to a parameter; without a value it stays as it is written. -/
def renderParam (name source : String) : Render ε String := do
  let c ← get
  return (c.params[name]?).getD source

/-- Renders a reference to a custom variable, which changes it if there is an operand. It stays as
it is written when there is no such variable or its backend fails. -/
def renderVariable (e : Engine) (name : String) (silent : Bool) (source : String) :
    Render ε String := do
  let c ← get
  match ← StateT.lift (Variables.resolve e.disturbances name c.operand c.capabilities silent) with
  | .ok (some r) =>
    match r.notification with
    | some n => modify fun c => { c with notifications := c.notifications ++ [n] }
    | none => pure ()
    return r.display
  | _ => return source

/-- The names of the users among those with the given ids who are known and not ignored. -/
def eligible : List String → Activity ε (List String)
  | [] => return []
  | id :: rest => do
    match ← World.findUser id with
    | none => eligible rest
    | some u =>
      let ignored ← World.isIgnored ⟨u.id, u.username⟩
      let others ← eligible rest
      return if ignored then others else u.username :: others

/-- Draws a user of a scope. -/
def drawUser (e : Engine) (scope : RandomScope) : Activity ε String := do
  let pool ← eligible (← World.listUsers scope.userFilter)
  if h : 0 < pool.length then
    let i ← e.drawBelow pool.length h
    return pool[i]
  else return e.config.unknownUser

/-- Draws a whole number between two bounds. -/
def drawNumber (e : Engine) (low high : Int) : Activity ε Int := do
  let i ← e.drawBelow ((high - low).toNat + 1) (Nat.succ_pos _)
  return low + Int.ofNat i.val

/-- The value of a body: what it is as JSON, or else the text itself. -/
def bodyValue (body : String) : Json :=
  (Json.parse? body).getD (.str body)

/-- Fetches an address for later filters to look into. What an earlier fetch has left is dropped
even when this one fails. -/
def renderApi (e : Engine) (address : String) : Render ε String := do
  match ← StateT.lift (Http.fetch e.client e.config.apiUserAgent address) with
  | some body => modify fun c => { c with byProducts := c.byProducts.insert "api" (bodyValue body) }
  | none =>
    StateT.lift (World.count .fetchFailure)
    modify fun c => { c with byProducts := c.byProducts.erase "api" }
  return ""

/-- The greatest number of decimals that can be asked for. -/
def maxDecimals : Nat := 20

/-- Reads a number of decimals. -/
def readDecimals? (text : String) : Option Nat :=
  (Number.readNat? (Text.trim text)).filter (· ≤ maxDecimals)

/-- A number, scaled and with fixed decimals; how many may be given in front of the number. -/
def scaled? (args : List String) (decimals : Nat) (factor : Float) : Option String :=
  match args with
  | [number] => (Number.parse? number).map fun x => Number.fixed decimals (x * factor)
  | [places, number] =>
    (readDecimals? places).bind fun places =>
      (Number.parse? number).map fun x => Number.fixed places (x * factor)
  | _ => none

/-- Evaluates a filter of a kind. -/
def evaluate (e : Engine) (a : FilterArgs) : FilterKind → Render ε String
  | .choice => return writtenOut a
  | .unknown => return writtenOut a
  | .randomUser scope => StateT.lift (drawUser e scope)
  | .randomNumber low high _ => do
    return Number.wholeText (← StateT.lift (drawNumber e low high))
  | .randomBool => do
    let i ← StateT.lift (e.drawBelow 2 (by omega))
    return if i.val = 0 then "true" else "false"
  | .api => renderApi e (Text.trim a.joined)
  | .byProduct key path => do
    let c ← get
    return match c.byProducts[key]? with
      | some v => lookupPath v path
      | none => ""
  | .math expression =>
    return match Math.evaluate (expression.getD a.joined) with
      | .ok v => Number.format v
      | .error _ => writtenOut a
  | .toPercent => return (scaled? a.args 0 100.0).getD (writtenOut a)
  | .toFloat => return (scaled? a.args 2 1.0).getD (writtenOut a)
  | .custom filter => do
    let out := filter a (← get)
    match out.byProduct with
    | some v => modify fun c => { c with byProducts := c.byProducts.insert (Text.trim a.name) v }
    | none => pure ()
    return out.text.getD ""

/-- Counts and evaluates a filter by its rendered name. -/
def evaluateNamed (e : Engine) (a : FilterArgs) : Render ε String := do
  let kind := e.filters.classify a.name
  StateT.lift (World.count (.filterEvaluation kind.label))
  evaluate e a kind

/-- Whether the name region of a filter makes it a choice: its first node is literal text that
starts with `if` and a blank or a quote. -/
def startsChoice (head : List Node) : Bool :=
  match head with
  | .literal text :: _ =>
    match text.toList with
    | 'i' :: 'f' :: c :: _ => Text.isBlank c || isQuote c
    | _ => false
  | _ => false

/-- The condition of a choice when nothing has been read of it. -/
def emptyCondition : Condition := {}

/-- The literal text of a condition's node, the first one without its `if`. -/
def conditionText (first : Bool) (text : String) : List Char :=
  if first then text.toList.drop 2 else text.toList

mutual

/-- Renders a node that stands inside `depth` filters. -/
def renderNode (e : Engine) (depth : Nat) : Node → Render ε String
  | .literal text => return text
  | .reference name silent persisted source =>
    if persisted then renderVariable e name silent source else renderParam name source
  | .filter segments source =>
    if e.config.maxRenderDepth ≤ depth then return source
    else
      match segments with
      | [] => evaluateNamed e ⟨"", []⟩
      | head :: rest =>
        if startsChoice head then do
          StateT.lift (World.count (.filterEvaluation FilterKind.choice.label))
          let c ← renderCondition e (depth + 1) true emptyCondition head
          match c.equality with
          | none => return source
          | some equality =>
            match rest with
            | [] => return ""
            | branch :: others =>
              if c.holds equality then renderNodes e (depth + 1) branch
              else return Text.joinWith "|" (← renderSegments e (depth + 1) others)
        else do
          let name ← renderNodes e (depth + 1) head
          let args ← renderSegments e (depth + 1) rest
          evaluateNamed e ⟨name, args⟩

/-- Renders nodes one after the other. -/
def renderNodes (e : Engine) (depth : Nat) : List Node → Render ε String
  | [] => return ""
  | n :: rest => do
    let text ← renderNode e depth n
    let more ← renderNodes e depth rest
    return text ++ more

/-- Renders segments one after the other. -/
def renderSegments (e : Engine) (depth : Nat) : List (List Node) → Render ε (List String)
  | [] => return []
  | segment :: rest => do
    let text ← renderNodes e depth segment
    let more ← renderSegments e depth rest
    return text :: more

/-- Renders the nodes of a condition, where `first` says that none has been read yet. -/
def renderCondition (e : Engine) (depth : Nat) (first : Bool) (c : Condition) :
    List Node → Render ε Condition
  | [] => return c
  | .literal text :: rest =>
    renderCondition e depth false (c.addLiteral (conditionText first text)) rest
  | n :: rest => do
    let text ← renderNode e depth n
    renderCondition e depth false (c.addText text) rest

end

/-- Renders a template. The notices gathered go into the output and leave the context. -/
def render (e : Engine) (nodes : List Node) : Render ε RenderOutput := do
  let text ← renderNodes e 0 nodes
  StateT.lift (World.count .render)
  let c ← get
  set { c with notifications := [] }
  return { text, notifications := c.notifications }

/-- Reads and renders a template text. -/
def renderText (e : Engine) (template : String) : Render ε RenderOutput :=
  render e (parse template)

end ChatBot.Template
