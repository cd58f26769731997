import ChatBot.Changelog
import ChatBot.Variables.Table

/-!
# The variable store as a state

What the store of custom variables consists of: the backend that holds them, the history of their
changes, and the usual wording of a notification. A backend is a table in memory or a server, and
any single call to it may fail: a schedule of disturbances says which.
-/

set_option autoImplicit false

namespace ChatBot

/-- Where variables are held. -/
inductive BackendKind where
  | memory
  /-- On a server, which cannot be reached. -/
  | redis
  deriving DecidableEq

/-- The name of a kind of backend. -/
def BackendKind.name : BackendKind → String
  | memory => "memory"
  | redis => "redis"

/-- The calls that a backend answers. -/
inductive BackendCall where
  | get (name : String)
  | list
  | insert (name : String)
  | replace (name : String)
  | delete (name : String)
  | setValue (name : String)
  | increment (name : String)
  deriving DecidableEq

/-- What may go wrong with a call; in no case is anything changed. -/
inductive Disturbance where
  | fails (error : BackendError)
  | findsNothing
  deriving DecidableEq

/-- Which calls go wrong, by the number of calls before. -/
abbrev Disturbances := Nat → BackendCall → Option Disturbance

/-- Every call is answered. -/
def undisturbed : Disturbances := fun _ _ => none

/-- The backend, the history and the wording of notifications. -/
structure VariableStore where
  kind : BackendKind := .memory
  table : VariableTable := {}
  /-- How many calls the backend has had. -/
  calls : Nat := 0
  history : Changelog VariableChange := ⟨{}, ∅⟩
  /-- The usual wording of a notification. -/
  announcement : String := ""

namespace VariableStore

/-- One call to the backend. `nothing` is the answer of a call that finds nothing. -/
def call {α : Type} (disturbances : Disturbances) (c : BackendCall) (nothing : α)
    (f : VariableTable → Except BackendError α × VariableTable) (s : VariableStore) :
    Except BackendError α × VariableStore :=
  let counted := { s with calls := s.calls + 1 }
  match s.kind, disturbances s.calls c with
  | .redis, _ => (.error .unreachable, counted)
  | .memory, some (.fails e) => (.error e, counted)
  | .memory, some .findsNothing => (.ok nothing, counted)
  | .memory, none =>
    let (answer, table) := f s.table
    (answer, { counted with table })

end VariableStore

end ChatBot
