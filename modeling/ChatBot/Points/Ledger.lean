import ChatBot.Changelog
import ChatBot.Number.Plain

/-!
# The points ledger

Every user has a balance of points, zero to begin with, and a history of charges and credits.
Amounts are whole numbers of sixty-four bits, and no balance is ever changed to what is no amount.
The operations here are the single steps that charging, crediting and undoing are made of.
-/

set_option autoImplicit false

namespace ChatBot

/-- Why the ledger refused. -/
inductive PointsError where
  | invalidAmount (amount : Int64)
  /-- The ledger is out of order. -/
  | unavailable (text : String)
  deriving DecidableEq

/-- An amount as text. -/
def amountText (amount : Int64) : String :=
  Number.wholeText amount.toInt

/-- A whole number as an amount, if it is one. -/
def amount? (n : Int) : Option Int64 :=
  if Int64.minValue.toInt ≤ n ∧ n ≤ Int64.maxValue.toInt then some (Int64.ofInt n) else none

/-- A whole number is an amount if there is an amount with that value, and then it is this one. -/
theorem amount?_eq_some_iff {n : Int} {a : Int64} : amount? n = some a ↔ a.toInt = n := by
  unfold amount?
  constructor
  · intro h
    split at h
    · next hfits =>
      obtain rfl := Option.some.inj h
      exact Int64.toInt_ofInt_of_le (Int.le_trans (by decide) hfits.1)
        (Int.lt_of_le_of_lt hfits.2 (by decide))
    · cases h
  · rintro rfl
    rw [if_pos ⟨a.le_toInt, Int.le_of_lt_add_one a.toInt_lt⟩, Int64.ofInt_toInt]

/-- The whole numbers that are no amounts are those below the least and above the greatest one. -/
theorem amount?_eq_none_iff {n : Int} :
    amount? n = none ↔ n < Int64.minValue.toInt ∨ Int64.maxValue.toInt < n := by
  rw [amount?, ite_eq_right_iff]
  simp only [reduceCtorEq, imp_false]
  omega

/-- The message of an error. -/
def PointsError.message : PointsError → String
  | invalidAmount amount => "Invalid amount: " ++ amountText amount
  | unavailable text => "Ledger unavailable: " ++ text

/-- Balances and their changes. -/
structure PointsLedger where
  /-- The balances by user id. -/
  balances : NameMap Int64 := ∅
  /-- The charges and credits of each user. -/
  history : Changelog Int64 := ⟨{}, ∅⟩

namespace PointsLedger

/-- The balance of a user. -/
def balance (l : PointsLedger) (user : String) : Int64 :=
  l.balances[user]?.getD 0

/-- Sets the balance of a user. -/
def setBalance (l : PointsLedger) (user : String) (amount : Int64) : PointsLedger :=
  { l with balances := l.balances.insert user amount }

/-- Takes an amount off a balance that covers it, and says whether it did. -/
def withdraw (l : PointsLedger) (user : String) (amount : Int64) : Bool × PointsLedger :=
  if l.balance user < amount then (false, l)
  else (true, l.setBalance user (l.balance user - amount))

/-- Adds an amount to a balance, and gives the new balance; nothing is added if that is
no amount. -/
def deposit (l : PointsLedger) (user : String) (amount : Int64) : Option Int64 × PointsLedger :=
  match amount? ((l.balance user).toInt + amount.toInt) with
  | some sum => (some sum, l.setBalance user sum)
  | none => (none, l)

/-- Notes a change in the history of a user. -/
def note (l : PointsLedger) (user actor : String) (delta : Int64) (now : Nat) : PointsLedger :=
  { l with history := l.history.record user actor delta now }

/-- The changes of a user that count, oldest first. -/
def changes (l : PointsLedger) (user : String) (now : Nat) : List (ChangeEntry Int64) :=
  l.history.entries user now

/-- Takes the latest change of a user out of the history, if it counts. -/
def popChange (l : PointsLedger) (user : String) (now : Nat) : Option Int64 × PointsLedger :=
  let (entry, history) := l.history.popLast user now
  (entry.map (·.change), { l with history })

/-- Takes a delta back off a balance, unless that leaves what is no amount, and says whether it
did. -/
def revert (l : PointsLedger) (user : String) (delta : Int64) : Bool × PointsLedger :=
  match amount? ((l.balance user).toInt - delta.toInt) with
  | some rest => (true, l.setBalance user rest)
  | none => (false, l)

/-- A delta that leaves an amount is taken off. -/
theorem revert_of_some {l : PointsLedger} {user : String} {delta rest : Int64}
    (h : amount? ((l.balance user).toInt - delta.toInt) = some rest) :
    l.revert user delta = (true, l.setBalance user rest) := by
  rw [revert, h]

/-- A delta that leaves what is no amount is not taken off. -/
theorem revert_of_none {l : PointsLedger} {user : String} {delta : Int64}
    (h : amount? ((l.balance user).toInt - delta.toInt) = none) :
    l.revert user delta = (false, l) := by
  rw [revert, h]

end PointsLedger

end ChatBot
