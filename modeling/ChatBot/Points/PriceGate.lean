import ChatBot.Dispatch.Registry
import ChatBot.Locale
import ChatBot.Points.Account

/-!
# The price gate

A handler that runs for every line before the normal ones. When the line starts with a priced
command, the sender pays at once; a sender who cannot pay is told so, and the line is stopped. If
a later handler stops the dispatch, the price is given back.
-/

set_option autoImplicit false

namespace ChatBot.Points

variable {ε : Type}

/-- The resource under which prices are given back. -/
def resource : String := "points"

/-- The reply to a sender who cannot pay. -/
def notEnough (t : Locale.Translator) (i : Invocation) (command : String) (price : Int64) :
    OutboundMessage :=
  i.reply (t.localize Locale.notEnoughPoints (NameMap.ofList [
    ("sender", .str i.message.sender.username), ("amount", .int price.toInt),
    ("command", .str command)]))

/-- How a price is given back. To have given it back the credit must return a balance. -/
def refund (outages : Outages) (user : String) (price : Int64) : RollbackEntry ε where
  resource := resource
  owner := user
  amount := price
  compensation := do
    match ← credit outages user price "rollback" with
    | .returned (.ok _) => return true
    | _ => return false

/-- The price gate. -/
def gate (t : Locale.Translator) (outages : Outages) : Handler ε := fun i => do
  match ← StateT.lift (Stepwise.read fun w => w.prices.match? i.param) with
  | none => return .allowed []
  | some (command, price) =>
    let user := i.message.sender.id
    match ← StateT.lift (charge outages user price "price") with
    | .error _ => return .error
    | .ok false => return .denied [notEnough t i command price]
    | .ok true =>
      RollbackLog.register (refund outages user price)
      return .allowed []

/-- The registration of the price gate. -/
def gateRegistration (t : Locale.Translator) (outages : Outages) : Registration ε where
  name := "price"
  pattern := .any
  priority := .high
  skippable := true
  handler := gate t outages

end ChatBot.Points
