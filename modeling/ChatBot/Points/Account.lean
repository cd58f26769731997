import ChatBot.World

/-!
# Operations on points

Charging, crediting and undoing as programs over the shared state. The balance and the history
are changed in separate steps. Crediting and undoing panic when the balance would become what is no
amount; a charge takes only what is covered, so it never does.
-/

set_option autoImplicit false

namespace ChatBot.Points

variable {ε : Type}

/-- The operations that may be out of order. -/
inductive LedgerCall where
  | charge
  | credit
  deriving DecidableEq

/-- Which operations are out of order, and what is said about it. -/
abbrev Outages := LedgerCall → Option String

/-- Every operation is in order. -/
def noOutage : Outages := fun _ => none

/-- How a call ends that may panic. -/
inductive Ending (α : Type) where
  | returned (answer : α)
  | panicked
  deriving DecidableEq

/-- Notes a change in the history of a user. -/
def note (user actor : String) (delta : Int64) : Activity ε Unit :=
  .change fun w => { w with ledger := w.ledger.note user actor delta w.clock }

/-- Takes an amount off a user's balance if it covers the amount, and says whether it did. -/
def charge (outages : Outages) (user : String) (amount : Int64) (actor : String) :
    Activity ε (Except PointsError Bool) := do
  match outages .charge with
  | some text => return .error (.unavailable text)
  | none =>
    if amount < 0 then return .error (.invalidAmount amount)
    else
      let charged ← Stepwise.act fun w =>
        let (charged, ledger) := w.ledger.withdraw user amount
        (charged, { w with ledger })
      if charged then
        note user actor (-amount)
        return .ok true
      else return .ok false

/-- Adds an amount to a user's balance, and gives the new balance. A sum that is no amount is not
noted: the call panics before. -/
def credit (outages : Outages) (user : String) (amount : Int64) (actor : String) :
    Activity ε (Ending (Except PointsError Int64)) := do
  match outages .credit with
  | some text => return .returned (.error (.unavailable text))
  | none =>
    if amount < 0 then return .returned (.error (.invalidAmount amount))
    else
      let sum ← Stepwise.act fun w =>
        let (sum, ledger) := w.ledger.deposit user amount
        (sum, { w with ledger })
      match sum with
      | none => return .panicked
      | some sum =>
        note user actor amount
        return .returned (.ok sum)

/-- Takes back the latest change of a user that counts, and gives its delta. The change is out of
the history also when the call panics. -/
def undoLast (user : String) : Activity ε (Ending (Option Int64)) := do
  let delta ← Stepwise.act fun w =>
    let (delta, ledger) := w.ledger.popChange user w.clock
    (delta, { w with ledger })
  match delta with
  | none => return .returned none
  | some delta =>
    let reverted ← Stepwise.act fun w =>
      let (reverted, ledger) := w.ledger.revert user delta
      (reverted, { w with ledger })
    match reverted with
    | true => return .returned (some delta)
    | false => return .panicked

end ChatBot.Points
