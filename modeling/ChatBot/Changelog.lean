import ChatBot.Json.Basic
import ChatBot.NameMap

/-!
# Changelogs

A changelog keeps, for each resource, the changes made to it, oldest first. A retention policy
bounds it: a change that is older than `maxAge` no longer counts, and when `maxEntries` is
positive no more than that many changes are kept. Changes are dropped when another is recorded
and when the log is pruned; times are in milliseconds.
-/

set_option autoImplicit false

namespace ChatBot

/-- How long and how many changes are kept. -/
structure Retention where
  /-- The age in milliseconds beyond which a change no longer counts. -/
  maxAge : Nat := 86400000
  /-- How many changes are kept for a resource; zero sets no bound. -/
  maxEntries : Nat := 50
  deriving DecidableEq

/-- A recorded change. -/
structure ChangeEntry (α : Type) where
  change : α
  actor : String
  recordedAt : Nat

/-- Encodes a recorded change. Its time (`recorded_at`) decides how long it counts, and is not part
of what is shown of it. -/
def ChangeEntry.toJson {α : Type} (change : α → Json) (e : ChangeEntry α) : Json :=
  Json.ofFields [("change", change e.change), ("actor", .str e.actor)]

/-- Whether a change is too old to count. -/
def ChangeEntry.isExpired {α : Type} (maxAge now : Nat) (e : ChangeEntry α) : Bool :=
  maxAge < now - e.recordedAt

/-- The changes of each resource. -/
structure Changelog (α : Type) where
  retention : Retention
  /-- The changes by resource, oldest first. -/
  logs : NameMap (List (ChangeEntry α)) := ∅

namespace Changelog

variable {α : Type}

/-- Everything held for a resource, expired changes included. -/
def held (l : Changelog α) (resource : String) : List (ChangeEntry α) :=
  l.logs[resource]?.getD []

/-- What stays of the changes of a resource when another is recorded: expired changes at the
front go, and then the oldest one if the log is full. -/
def trimmed (r : Retention) (now : Nat) (entries : List (ChangeEntry α)) : List (ChangeEntry α) :=
  let live := entries.dropWhile (·.isExpired r.maxAge now)
  if 0 < r.maxEntries && r.maxEntries ≤ live.length then live.drop 1 else live

/-- Records a change. -/
def record (l : Changelog α) (resource actor : String) (change : α) (now : Nat) : Changelog α :=
  let kept := trimmed l.retention now (l.held resource)
  { l with logs := l.logs.insert resource (kept ++ [⟨change, actor, now⟩]) }

/-- The changes of a resource that count, oldest first. -/
def entries (l : Changelog α) (resource : String) (now : Nat) : List (ChangeEntry α) :=
  (l.held resource).filter fun e => !e.isExpired l.retention.maxAge now

/-- The latest change of a resource, if it counts. -/
def last? (l : Changelog α) (resource : String) (now : Nat) : Option (ChangeEntry α) :=
  (l.held resource).getLast?.filter fun e => !e.isExpired l.retention.maxAge now

/-- Takes out the latest change of a resource, if it counts. -/
def popLast (l : Changelog α) (resource : String) (now : Nat) :
    Option (ChangeEntry α) × Changelog α :=
  match l.last? resource now with
  | some e => (some e, { l with logs := l.logs.insert resource (l.held resource).dropLast })
  | none => (none, l)

/-- Drops every expired change, and says how many there were. -/
def prune (l : Changelog α) (now : Nat) : Nat × Changelog α :=
  let expired := l.logs.values.flatMap fun log => log.filter (·.isExpired l.retention.maxAge now)
  let live := l.logs.toList.map fun log =>
    (log.1, log.2.filter fun e => !e.isExpired l.retention.maxAge now)
  (expired.length, { l with logs := NameMap.ofList (live.filter fun log => !log.2.isEmpty) })

/-- Forgets the changes of a resource. -/
def clear (l : Changelog α) (resource : String) : Changelog α :=
  { l with logs := l.logs.erase resource }

end Changelog

end ChatBot
