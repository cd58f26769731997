import ChatBot.Number.Binary

/-!
# JSON values

A JSON value as the engine holds it. Whole numbers within sixty-four bits are kept apart from the
other numbers, and the fields of an object stand in the order of their names, each name once.
-/

set_option autoImplicit false

namespace ChatBot

/-- A JSON value. -/
inductive Json : Type where
  | null
  | bool (value : Bool)
  /-- A whole number between `-2 ^ 63` and `2 ^ 64 - 1`. -/
  | int (value : Int)
  /-- Any other number. -/
  | float (value : Float)
  | str (value : String)
  | arr (items : List Json)
  /-- Named values, in increasing order of the names. -/
  | obj (fields : List (String × Json))
  deriving Inhabited

namespace Json

/-- Adds a named value to fields in increasing order; a value of that name is replaced. -/
def insertField {α : Type} (key : String) (value : α) : List (String × α) → List (String × α)
  | [] => [(key, value)]
  | (k, v) :: rest =>
    match compare key k with
    | .lt => (key, value) :: (k, v) :: rest
    | .eq => (key, value) :: rest
    | .gt => (k, v) :: insertField key value rest

/-- An object of the given named values; of several values of one name the last one counts. -/
def ofFields (fields : List (String × Json)) : Json :=
  obj (fields.foldl (fun acc field => insertField field.1 field.2 acc) [])

/-- A number as a value; there is no value but null for the infinities and the undefined. -/
def ofFloat (x : Float) : Json :=
  if Number.isFinite x then float x else null

/-- The value of that name in an object. -/
def field? (name : String) : Json → Option Json
  | obj fields => fields.lookup name
  | _ => none

/-- The text that a value is. -/
def asString? : Json → Option String
  | str s => some s
  | _ => none

end Json

end ChatBot
