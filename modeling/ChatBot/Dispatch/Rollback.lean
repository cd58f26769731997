import ChatBot.Points.Ledger
import ChatBot.Text.Quoted
import ChatBot.World

/-!
# Taking back

A handler that takes something in advance registers how to give it back. The log of a dispatch
keeps one such compensation for each resource, the last one registered, in the order of those
registrations. When a later handler stops the dispatch, all of them are carried out, the latest
first; otherwise they are dropped.
-/

set_option autoImplicit false

namespace ChatBot

/-- How to give back what a handler has taken. -/
structure RollbackEntry (ε : Type) where
  resource : String
  owner : String
  amount : Int64
  /-- Gives it back, and says whether that worked. -/
  compensation : Activity ε Bool

/-- An entry in diagnostics. -/
def RollbackEntry.describe {ε : Type} (e : RollbackEntry ε) : String :=
  "RollbackEntry \x7b resource: " ++ Text.quoted e.resource ++ ", amount: " ++
    amountText e.amount ++ ", owner: " ++ Text.quoted e.owner ++ ", .. \x7d"

/-- Encodes what an entry would give back. -/
def RollbackEntry.toJson {ε : Type} (e : RollbackEntry ε) : Json :=
  Json.ofFields [
    ("resource", .str e.resource), ("amount", .int e.amount.toInt), ("owner", .str e.owner)]

/-- The compensations of a dispatch, in the order of their registration. -/
structure RollbackLog (ε : Type) where
  entries : List (RollbackEntry ε) := []

/-- A program of a dispatch: it works on the log of the dispatch and on the shared state. -/
abbrev Undoable (ε : Type) := StateT (RollbackLog ε) (Activity ε)

namespace RollbackLog

variable {ε : Type}

/-- The log with one more compensation; an earlier one for the same resource is dropped. -/
def add (l : RollbackLog ε) (e : RollbackEntry ε) : RollbackLog ε :=
  ⟨l.entries.filter (fun f => f.resource != e.resource) ++ [e]⟩

/-- Registers a compensation. -/
def register (e : RollbackEntry ε) : Undoable ε Unit :=
  modify fun l => l.add e

/-- The pending compensations. -/
def pending : Undoable ε (List (RollbackEntry ε)) := do
  return (← get).entries

/-- Carries out compensations in a row, and counts those that work. -/
def carryOut : List (RollbackEntry ε) → Activity ε Unit
  | [] => return ()
  | e :: rest => do
    if ← e.compensation then World.count .rollbackReplayed
    carryOut rest

/-- Carries out all pending compensations, the latest first, and gives their number. -/
def replay : Undoable ε Nat := do
  let l ← get
  set ({} : RollbackLog ε)
  StateT.lift (carryOut l.entries.reverse)
  return l.entries.length

/-- Drops all pending compensations, and gives their number. -/
def discard : Undoable ε Nat := do
  let l ← get
  set ({} : RollbackLog ε)
  return l.entries.length

end RollbackLog

end ChatBot
