import ChatBot.Locale
import ChatBot.World

/-!
# Operations on custom variables

Creating, reading, changing and deleting variables, and resolving the references to them that
templates hold. Each operation is a program whose steps are the calls to the backend, the notes in
the history and the counts.

A reference changes its variable when it comes with an operand: for a number `+` and `-` add and
take away the step, a number with a sign is added, and a number without one replaces the value;
for a text any operand but a bare sign replaces the value.
-/

set_option autoImplicit false

namespace ChatBot.Variables

variable {ε : Type}

/-- One call to the backend. -/
def call {α : Type} (d : Disturbances) (c : BackendCall) (nothing : α)
    (f : VariableTable → Except BackendError α × VariableTable) :
    Activity ε (Except BackendError α) :=
  .act fun w =>
    let (answer, store) := w.store.call d c nothing f
    (answer, { w with store })

/-- Reads a variable. -/
def fetch (d : Disturbances) (name : String) :
    Activity ε (Except BackendError (Option CustomVariable)) :=
  call d (.get name) none fun t => (.ok (t.get? name), t)

/-- Swaps a value. -/
def swap (d : Disturbances) (name value : String) :
    Activity ε (Except BackendError (Option String)) :=
  call d (.setValue name) none fun t =>
    let (previous, t) := t.setValue name value
    (.ok previous, t)

/-- Adds to a value. -/
def increment (d : Disturbances) (name : String) (delta : Float) :
    Activity ε (Except BackendError (Option Float)) :=
  call d (.increment name) none fun t => t.increment name delta

/-- Notes a change in the history. -/
def note (name actor : String) (change : VariableChange) : Activity ε Unit :=
  .change fun w =>
    { w with store :=
        { w.store with history := w.store.history.record name actor change w.clock } }

/-- The changes of a variable that count, oldest first. -/
def history (name : String) : Activity ε (List (ChangeEntry VariableChange)) :=
  .read fun w => w.store.history.entries name w.clock

/-- Creates a variable. -/
def create (d : Disturbances) (request : CreateVariable) :
    Activity ε (Except VariableError CustomVariable) := do
  let v := request.variableOf
  match v.fault? with
  | some fault => return .error fault
  | none =>
    match ← call d (.insert v.name) false fun t => let (b, t) := t.insert v; (.ok b, t) with
    | .error e => return .error (.backend e)
    | .ok false => return .error (.alreadyExists v.name)
    | .ok true => return .ok v

/-- Reads a variable that must exist. -/
def get (d : Disturbances) (name : String) : Activity ε (Except VariableError CustomVariable) := do
  match ← fetch d name with
  | .error e => return .error (.backend e)
  | .ok none => return .error (.notFound name)
  | .ok (some v) => return .ok v

/-- Lists all variables in the order of their names. -/
def list (d : Disturbances) : Activity ε (Except VariableError (List CustomVariable)) := do
  match ← call d .list [] fun t => (.ok t.list, t) with
  | .error e => return .error (.backend e)
  | .ok vs => return .ok vs

/-- Changes the definition of a variable, its value included. -/
def update (d : Disturbances) (name : String) (request : UpdateVariable) :
    Activity ε (Except VariableError CustomVariable) := do
  match ← get d name with
  | .error e => return .error e
  | .ok v =>
    let v := request.apply v
    match v.fault? with
    | some fault => return .error fault
    | none =>
      match ← call d (.replace v.name) false fun t => let (b, t) := t.replace v; (.ok b, t) with
      | .error e => return .error (.backend e)
      | .ok false => return .error (.notFound name)
      | .ok true => return .ok v

/-- The text under which a value is stored, if the kind admits it. -/
def storedText? (kind : VariableKind) (value : String) : Option String :=
  match kind with
  | .number => (Number.parse? value).map Number.format
  | _ => some value

/-- Sets the value of a variable on behalf of an administrator, whom neither the tier nor the
protection of the variable binds. -/
def setValue (d : Disturbances) (name value actor : String) :
    Activity ε (Except VariableError CustomVariable) := do
  match ← get d name with
  | .error e => return .error e
  | .ok v =>
    match storedText? v.kind value with
    | none => return .error (.invalidValue (.notNumeric value))
    | some text =>
      match ← swap d name text with
      | .error e => return .error (.backend e)
      | .ok none => return .error (.notFound name)
      | .ok (some previous) =>
        note name actor ⟨previous, text⟩
        get d name

/-- Deletes a variable and its history. -/
def delete (d : Disturbances) (name : String) : Activity ε (Except VariableError Unit) := do
  match ← call d (.delete name) false fun t => let (b, t) := t.delete name; (.ok b, t) with
  | .error e => return .error (.backend e)
  | .ok false => return .error (.notFound name)
  | .ok true =>
    Stepwise.change fun w =>
      { w with store := { w.store with history := w.store.history.clear name } }
    return .ok ()

/-- How an operand changes a variable. -/
inductive Mutation where
  | add (delta : Float)
  | set (value : String)

/-- The addition of a number, when the sum is finite. -/
def addition? (v : CustomVariable) (delta : Float) : Option Mutation :=
  (Number.parse? v.value).bind fun current =>
    if Number.isFinite (current + delta) then some (.add delta) else none

/-- Whether a text starts with a sign. -/
def startsSigned (s : String) : Bool :=
  match s.toList with
  | c :: _ => c == '+' || c == '-'
  | [] => false

/-- How an operand without blanks around it changes a variable, if it does. -/
def mutation? (v : CustomVariable) (operand : String) : Option Mutation :=
  match v.kind with
  | .number =>
    if operand = "+" then addition? v v.step
    else if operand = "-" then addition? v (-v.step)
    else if startsSigned operand then (Number.parse? operand).bind (addition? v)
    else (Number.parse? operand).map fun x => .set (Number.format x)
  | .text => if operand = "+" || operand = "-" then none else some (.set operand)
  | .eval => none

/-- Writes a mutation, and says what changed. -/
def write (d : Disturbances) (name : String) :
    Mutation → Activity ε (Except BackendError (Option VariableChange))
  | .add delta => do
    match ← increment d name delta with
    | .error e => return .error e
    | .ok next =>
      return .ok (next.map fun x => ⟨Number.format (x - delta), Number.format x⟩)
  | .set value => do
    match ← swap d name value with
    | .error e => return .error e
    | .ok previous => return .ok (previous.map fun old => ⟨old, value⟩)

/-- The notice of a change in the given wording. -/
def notification (name wording : String) (change : VariableChange) (c : Capabilities) :
    VariableNotification where
  variableName := name
  oldValue := change.oldValue
  newValue := change.newValue
  text := Locale.fillPlaces wording (NameMap.ofList [
    ("sender", .str c.username), ("variable", .str name), ("value", .str change.newValue),
    ("old_value", .str change.oldValue)])

/-- What stands in the text, and which notice is sent, after a change. -/
def shown (v : CustomVariable) (announcement : String) (change : VariableChange)
    (c : Capabilities) (silent : Bool) : Resolution :=
  match v.responseType with
  | .inline => { display := change.newValue }
  | .announce =>
    { display := change.oldValue
      notification :=
        if silent then none else some (notification v.name announcement change c) }
  | .custom wording =>
    { display := change.oldValue
      notification := if silent then none else some (notification v.name wording change c) }

/-- The operand without the blanks around it, if anything is left. -/
def trimmedOperand (operand : Option String) : Option String :=
  (operand.map Text.trim).filter fun s => !s.isEmpty

/-- Whether a variable may be changed by a sender through a template. -/
def isWritable (v : CustomVariable) (c : Capabilities) : Bool :=
  !v.readOnly && v.kind ≠ .eval && c.satisfies v.permission

/-- Counts an attempt to change a variable. -/
def countMutation (r : MutationResult) : Activity ε Unit :=
  World.count (.variableMutation r)

/-- Resolves a reference to a variable, changing it when there is an operand. There is no
resolution when the variable does not exist or vanishes before it is written. -/
def resolve (d : Disturbances) (name : String) (operand : Option String) (c : Capabilities)
    (silent : Bool) : Activity ε (Except VariableError (Option Resolution)) := do
  match ← fetch d name with
  | .error e => return .error (.backend e)
  | .ok none => return .ok none
  | .ok (some v) =>
    let unchanged : Resolution := { display := v.value }
    match trimmedOperand operand with
    | none => return .ok (some unchanged)
    | some operand =>
      if !isWritable v c then
        countMutation .rejected
        return .ok (some unchanged)
      else
        match mutation? v operand with
        | none =>
          countMutation .invalid
          return .ok (some unchanged)
        | some m =>
          match ← write d name m with
          | .error (.notNumeric text) =>
            match m with
            | .add _ =>
              countMutation .invalid
              return .ok (some unchanged)
            | .set _ => return .error (.backend (.notNumeric text))
          | .error e => return .error (.backend e)
          | .ok none => return .ok none
          | .ok (some change) =>
            note name c.username change
            countMutation .applied
            let announcement ← Stepwise.read fun w => w.store.announcement
            return .ok (some (shown { v with name } announcement change c silent))

end ChatBot.Variables
