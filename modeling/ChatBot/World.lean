import ChatBot.Commands.Book
import ChatBot.Dispatch.Invocation
import ChatBot.Http.Client
import ChatBot.Metrics
import ChatBot.Moderation
import ChatBot.PermissionCache
import ChatBot.Points.Ledger
import ChatBot.Points.Prices
import ChatBot.Stepwise
import ChatBot.Variables.Store

/-!
# The shared state of the bot

Everything that the handling of a chat line may read or change. Handlers from outside the engine
may keep a state of their own in it, of type `ε`. Lines are handled by programs over this state.
-/

set_option autoImplicit false

namespace ChatBot

/-- The state that all parts of the bot share. -/
structure World (ε : Type) where
  directory : Directory := {}
  /-- How often the record of an id was asked for. -/
  lookups : Nat := 0
  moderation : Moderation := {}
  store : VariableStore := {}
  ledger : PointsLedger := {}
  prices : PriceTable := {}
  commands : CommandBook := {}
  metrics : Metrics := {}
  /-- What was delivered to the chat, oldest first. -/
  delivered : List OutboundMessage := []
  stats : DispatchStats := {}
  /-- The totals of the detached queue. -/
  detached : DetachedStats := {}
  /-- The permission caches of all dispatches, oldest first. -/
  caches : List PermissionCache := []
  /-- The handlers that wait in the detached queue, oldest first. -/
  queue : List DetachedJob := []
  /-- Whether the detached queue still takes handlers. -/
  queueOpen : Bool := true
  /-- The time in milliseconds. -/
  clock : Nat := 0
  /-- How many random numbers have been drawn. -/
  draws : Nat := 0
  /-- How many fetches have been made. -/
  fetches : Nat := 0
  /-- The requests that have arrived, oldest first. -/
  requests : List Http.Request := []
  /-- The state of handlers from outside. -/
  extra : ε

/-- A program over the shared state. -/
abbrev Activity (ε : Type) := Stepwise (World ε)

namespace World

variable {ε : Type}

/-- Counts one more. -/
def count (c : Counter) : Activity ε Unit :=
  .change fun w => { w with metrics := w.metrics.bump c }

/-- Asks the directory for the record of an id. -/
def findUser (id : String) : Activity ε (Option UserRecord) :=
  .act fun w => (w.directory.find? id, { w with lookups := w.lookups + 1 })

/-- Asks the directory for the ids of the users that meet a filter. -/
def listUsers (f : UserFilter) : Activity ε (List String) :=
  .read fun w => w.directory.list f

/-- Asks whether a sender is ignored. -/
def isIgnored (s : Sender) : Activity ε Bool :=
  .read fun w => w.moderation.ignores s

/-- Asks whether a line contains a blocked phrase. -/
def isModerated (m : ChatMessage) : Activity ε Bool :=
  .read fun w => w.moderation.stops m

/-- Delivers a message to the chat. -/
def deliver (m : OutboundMessage) : Activity ε Unit :=
  .change fun w => { w with delivered := w.delivered ++ [m] }

/-- Opens a permission cache, and gives its number. -/
def openCache (p : PermissionCache) : Activity ε Nat :=
  .act fun w => (w.caches.length, { w with caches := w.caches ++ [p] })

/-- Reads a permission cache. -/
def readCache (n : Nat) : Activity ε PermissionCache :=
  .read fun w => w.caches[n]?.getD {}

/-- Changes a permission cache. -/
def changeCache (n : Nat) (f : PermissionCache → PermissionCache) : Activity ε Unit :=
  .change fun w => { w with caches := w.caches.modify n f }

end World

/-- Whether a user may do what a tier may do, as the cache of that number remembers it; a user who
is not in the cache yet is looked up. -/
def checkPermission {ε : Type} (owners : Owners) (cache : Nat) (user : String) (required : Tier) :
    Activity ε Bool := do
  let p ← World.readCache cache
  match p.decision? user required with
  | some allowed => return allowed
  | none =>
    let caps ← match p.known[user]? with
      | some caps => pure caps
      | none => do
        let caps := owners.capabilitiesOf (← World.findUser user)
        World.changeCache cache (·.learn user caps)
        pure caps
    let allowed := Owners.permits caps required
    World.changeCache cache (·.decide user required allowed)
    return allowed

/-- Whether a user may do what a tier may do; anybody may do what a viewer may. -/
def checkUncached {ε : Type} (owners : Owners) (user : String) (required : Tier) :
    Activity ε Bool := do
  if required = .viewer then return true
  else return Owners.permits (owners.capabilitiesOf (← World.findUser user)) required

end ChatBot
