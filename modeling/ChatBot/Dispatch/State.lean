import ChatBot.Json.Basic

/-!
# How dispatches end

The five ways in which the handling of a chat line ends, the reasons for which a handler stops
it, and the totals kept over all dispatches.
-/

set_option autoImplicit false

namespace ChatBot

/-- How the handling of a chat line has ended. -/
inductive DispatchState where
  | ignored
  /-- The line contains a blocked phrase. -/
  | moderated
  /-- Every awaited handler allowed the line. -/
  | delivered
  /-- An awaited handler stopped it, and there was nothing to take back. -/
  | vetoed
  /-- An awaited handler stopped it, and what earlier ones had taken was given back. -/
  | rolledBack
  deriving DecidableEq

/-- The name of a state. -/
def DispatchState.name : DispatchState → String
  | ignored => "ignored"
  | moderated => "moderated"
  | delivered => "delivered"
  | vetoed => "vetoed"
  | rolledBack => "rolled_back"

/-- Why a handler did not allow a line. -/
inductive FailureReason where
  | permission
  | denied
  /-- The handler failed with an error. -/
  | error
  | panic
  deriving DecidableEq

/-- The name of a reason. -/
def FailureReason.name : FailureReason → String
  | permission => "permission"
  | denied => "denied"
  | error => "error"
  | panic => "panic"

/-- The totals of a dispatcher. -/
structure DispatchStats where
  dispatched : Nat := 0
  ignored : Nat := 0
  moderated : Nat := 0
  delivered : Nat := 0
  vetoed : Nat := 0
  /-- Those that ended as rolled back. -/
  rolledBack : Nat := 0
  /-- Awaited handlers that failed with an error or broke down. -/
  handlerFailures : Nat := 0
  /-- Responses of awaited handlers that were delivered. -/
  responsesDelivered : Nat := 0
  deriving DecidableEq

namespace DispatchStats

/-- Counts one more dispatch. -/
def record (s : DispatchStats) (state : DispatchState) : DispatchStats :=
  let s := { s with dispatched := s.dispatched + 1 }
  match state with
  | .ignored => { s with ignored := s.ignored + 1 }
  | .moderated => { s with moderated := s.moderated + 1 }
  | .delivered => { s with delivered := s.delivered + 1 }
  | .vetoed => { s with vetoed := s.vetoed + 1 }
  | .rolledBack => { s with rolledBack := s.rolledBack + 1 }

/-- Encodes the totals. -/
def toJson (s : DispatchStats) : Json :=
  Json.ofFields [
    ("total_dispatched", .int s.dispatched), ("total_ignored", .int s.ignored),
    ("total_moderated", .int s.moderated), ("total_delivered", .int s.delivered),
    ("total_vetoed", .int s.vetoed), ("total_rolled_back", .int s.rolledBack),
    ("handler_failures", .int s.handlerFailures),
    ("responses_delivered", .int s.responsesDelivered)]

/-- The total of a state. -/
def total (s : DispatchStats) : DispatchState → Nat
  | .ignored => s.ignored
  | .moderated => s.moderated
  | .delivered => s.delivered
  | .vetoed => s.vetoed
  | .rolledBack => s.rolledBack

end DispatchStats

/-- The totals of the queue of handlers that nobody waits for. -/
structure DetachedStats where
  queued : Nat := 0
  /-- Handlers that ended without an error. -/
  completed : Nat := 0
  /-- Handlers that failed with an error or broke down. -/
  failed : Nat := 0
  deriving DecidableEq

/-- Encodes the totals. -/
def DetachedStats.toJson (s : DetachedStats) : Json :=
  Json.ofFields [
    ("queued", .int s.queued), ("completed", .int s.completed), ("failed", .int s.failed)]

end ChatBot
