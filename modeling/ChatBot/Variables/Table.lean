import ChatBot.NameMap
import ChatBot.Variables.Basic

/-!
# The table of variables

Variables by name, held in memory. Every operation is a single step: it answers and leaves the
table behind, and nothing happens in between.
-/

set_option autoImplicit false

namespace ChatBot

/-- The variables by name. -/
structure VariableTable where
  rows : NameMap CustomVariable := ∅

namespace VariableTable

/-- The variable of a name. -/
def get? (t : VariableTable) (name : String) : Option CustomVariable :=
  t.rows[name]?

/-- All variables in the order of their names. -/
def list (t : VariableTable) : List CustomVariable :=
  t.rows.values

/-- Adds a variable unless its name is taken, and says whether it was added. -/
def insert (t : VariableTable) (v : CustomVariable) : Bool × VariableTable :=
  match t.get? v.name with
  | some _ => (false, t)
  | none => (true, ⟨t.rows.insert v.name v⟩)

/-- Replaces the variable of the same name, and says whether there was one. -/
def replace (t : VariableTable) (v : CustomVariable) : Bool × VariableTable :=
  match t.get? v.name with
  | some _ => (true, ⟨t.rows.insert v.name v⟩)
  | none => (false, t)

/-- Removes a variable, and says whether there was one. -/
def delete (t : VariableTable) (name : String) : Bool × VariableTable :=
  match t.get? name with
  | some _ => (true, ⟨t.rows.erase name⟩)
  | none => (false, t)

/-- Swaps the value of a variable, and gives the one before. -/
def setValue (t : VariableTable) (name value : String) : Option String × VariableTable :=
  match t.get? name with
  | some v => (some v.value, ⟨t.rows.insert name { v with value }⟩)
  | none => (none, t)

/-- Adds to the value of a variable, and gives the sum. The table stays as it is when the value or
the sum is not a finite number. -/
def increment (t : VariableTable) (name : String) (delta : Float) :
    Except BackendError (Option Float) × VariableTable :=
  match t.get? name with
  | none => (.ok none, t)
  | some v =>
    match Number.parse? v.value with
    | none => (.error (.notNumeric v.value), t)
    | some current =>
      let next := current + delta
      if Number.isFinite next then
        (.ok (some next), ⟨t.rows.insert name { v with value := Number.format next }⟩)
      else (.error (.notNumeric (v.value ++ " + " ++ Number.plain delta)), t)

end VariableTable

end ChatBot
