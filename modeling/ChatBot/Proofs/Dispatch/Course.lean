import ChatBot.Dispatch.Dispatcher
import ChatBot.Proofs.Dispatch.Scene

/-!
# The course of a dispatch

What a dispatch does, told without its program. The planned handlers that are due get their turn
one after the other. A turn has a *fate*: a detached handler is queued or passed over, an awaited
one allows the line or fails for one of four reasons. A failure is the last turn of all
(`Dispatcher.Course`). Then the pending compensations are carried out, the latest first
(`Repayment`), and the responses are those of all turns, or only those of the failing handler when
something was given back (`Ending`). `Dispatcher.Handling` puts this together with the two
questions that moderation asks first.

Every clause says what the shared state is afterwards, so the relation fixes the whole state and
not only the answer.
-/

set_option autoImplicit false

namespace ChatBot

/-! ## What the dispatcher itself does to the shared state -/

namespace World

variable {ε : Type}

/-- The permission cache of a new dispatch is opened for its sender, who is looked up for it. -/
def opened (w : World ε) (owners : Owners) (sender : Sender) : World ε :=
  { w with
    lookups := w.lookups + 1
    caches := w.caches ++
      [.ofSender (owners.capabilities (w.directory.find? sender.id) sender)] }

/-- A handler is put into the detached queue, unless that is closed. -/
def offered (w : World ε) (job : DetachedJob) : World ε :=
  if w.queueOpen then
    { w with
      queue := w.queue ++ [job]
      detached := { w.detached with queued := w.detached.queued + 1 }
      metrics := w.metrics.bump .detachedTask }
  else w

/-- A failure is counted by its reason, and in the totals if the handler did not answer. -/
def failing (w : World ε) (reason : FailureReason) : World ε :=
  { w with
    stats := { w.stats with
      handlerFailures := w.stats.handlerFailures +
        if reason = .error ∨ reason = .panic then 1 else 0 }
    metrics := w.metrics.bump (.handlerFailure reason) }

/-- A compensation that worked is counted. -/
def repaid (w : World ε) (worked : Bool) : World ε :=
  if worked then { w with metrics := w.metrics.bump .rollbackReplayed } else w

/-- Responses are delivered in order and counted. -/
def answered (w : World ε) (responses : List OutboundMessage) : World ε :=
  { w with
    delivered := w.delivered ++ responses
    stats := { w.stats with
      responsesDelivered := w.stats.responsesDelivered + responses.length } }

/-- The end of a dispatch is counted. -/
def concluded (w : World ε) (state : DispatchState) : World ε :=
  { w with
    stats := w.stats.record state
    metrics := w.metrics.bump (.dispatchOutcome state) }

end World

/-! ## Turns -/

/-- What becomes of a planned handler whose turn has come. -/
inductive Fate where
  /-- Nobody waits for it, and the sender may not use it. -/
  | passedOver
  /-- Nobody waits for it, and it is handed to the detached queue. -/
  | queued
  /-- It was awaited, and the line may go on. -/
  | allowed (own : List OutboundMessage)
  /-- It was awaited, and it stops the line. -/
  | failed (reason : FailureReason) (own : List OutboundMessage)

namespace Fate

/-- What the verdict of an awaited handler means for it. -/
def ofVerdict : Verdict → Fate
  | .allowed own => .allowed own
  | .denied own => .failed .denied own
  | .error => .failed .error []
  | .panic => .failed .panic []

/-- Whether the line goes on to the next handler. -/
def GoesOn : Fate → Prop
  | failed _ _ => False
  | _ => True

/-- What a handler that lets the line go on has responded. -/
def responses : Fate → List OutboundMessage
  | allowed own => own
  | _ => []

end Fate

/-- The turn of a planned handler. -/
structure Turn (ε : Type) where
  planned : Planned ε
  /-- The scene once the permission has been checked; an awaited handler starts from here. -/
  start : Scene ε
  fate : Fate
  left : Scene ε

namespace Dispatcher

variable {ε : Type} (d : Dispatcher ε) (m : ChatMessage)

/-- The capabilities of a sender: those that the directory and the owners give, or a viewer's if
the record found is that of another id. -/
def standing (w : World ε) : Capabilities :=
  let caps := d.owners.capabilities (w.directory.find? m.sender.id) m.sender
  if caps.userId = m.sender.id then caps else .viewer m.sender

/-- Whether a line asks to skip handlers and comes from a caster or a moderator. -/
def HonoursSkip (w : World ε) : Prop :=
  m.skip = true ∧ ((d.standing m w).isCaster = true ∨ (d.standing m w).isModerator = true)

instance (w : World ε) : Decidable (d.HonoursSkip m w) := inferInstanceAs (Decidable (_ ∧ _))

/-- The handlers that are due for a line: the planned ones, without those that may be skipped if
the line may skip them. -/
def due (w : World ε) : List (Planned ε) :=
  if d.HonoursSkip m w then
    (d.registry.plan m.text).filter fun p => !p.registration.skippable
  else d.registry.plan m.text

/-- Asks the cache of the dispatch whether the sender may use a handler. -/
def permission (cache : Nat) (p : Planned ε) (w : World ε) : Bool × World ε :=
  (checkPermission d.owners cache m.sender.id p.registration.permission).run w

/-- The turn of a planned handler that begins in a scene. -/
inductive TakesTurn (caps : Capabilities) (cache : Nat) (s : Scene ε) : Turn ε → Prop where
  /-- A detached handler that the sender may not use is passed over, and nothing fails. -/
  | passedOver {p : Planned ε} {w : World ε} (mode : p.registration.mode = .fireAndForget)
      (permitted : d.permission m cache p s.world = (false, w)) :
      TakesTurn caps cache s ⟨p, ⟨w, s.log⟩, .passedOver, ⟨w, s.log⟩⟩
  /-- A detached handler that the sender may use is queued and not run. -/
  | queued {p : Planned ε} {w : World ε} (mode : p.registration.mode = .fireAndForget)
      (permitted : d.permission m cache p s.world = (true, w)) :
      TakesTurn caps cache s ⟨p, ⟨w, s.log⟩, .queued,
        ⟨w.offered ⟨p.index, invocation m caps cache p, m.quiet⟩, s.log⟩⟩
  /-- An awaited handler that the sender may not use is not run, and fails. -/
  | lacking {p : Planned ε} {w : World ε} (mode : p.registration.mode = .awaited)
      (permitted : d.permission m cache p s.world = (false, w)) :
      TakesTurn caps cache s ⟨p, ⟨w, s.log⟩, .failed .permission [], ⟨w, s.log⟩⟩
  /-- An awaited handler that the sender may use is run, once. -/
  | ran {p : Planned ε} {w : World ε} {v : Verdict} {s' : Scene ε}
      (mode : p.registration.mode = .awaited)
      (permitted : d.permission m cache p s.world = (true, w))
      (run : Scene.play ⟨w, s.log⟩ (p.registration.handler (invocation m caps cache p)) =
        (v, s')) :
      TakesTurn caps cache s ⟨p, ⟨w, s.log⟩, .ofVerdict v, s'⟩

/-- Handlers take their turns in order until one fails; those after it have none. -/
inductive Course (caps : Capabilities) (cache : Nat) :
    List (Planned ε) → Scene ε → List (Turn ε) → Scene ε → Prop where
  | finished (s : Scene ε) : Course caps cache [] s [] s
  | goesOn {s s' : Scene ε} {t : Turn ε} {rest : List (Planned ε)} {turns : List (Turn ε)}
      (turn : d.TakesTurn m caps cache s t) (going : t.fate.GoesOn)
      (course : Course caps cache rest t.left turns s') :
      Course caps cache (t.planned :: rest) s (t :: turns) s'
  | stops {s : Scene ε} {t : Turn ε} {rest : List (Planned ε)}
      (turn : d.TakesTurn m caps cache s t) (stops : ¬ t.fate.GoesOn) :
      Course caps cache (t.planned :: rest) s [t] t.left

end Dispatcher

/-! ## Endings -/

/-- Compensations are carried out in order, each once, whether or not the ones before it worked;
every one is listed with whether it worked. -/
inductive Repayment {ε : Type} :
    List (RollbackEntry ε) → World ε → List (RollbackEntry ε × Bool) → World ε → Prop where
  | finished (w : World ε) : Repayment [] w [] w
  | next {e : RollbackEntry ε} {rest : List (RollbackEntry ε)} {w w' w'' : World ε}
      {worked : Bool} {repaid : List (RollbackEntry ε × Bool)}
      (run : e.compensation.run w = (worked, w'))
      (course : Repayment rest (w'.repaid worked) repaid w'') :
      Repayment (e :: rest) w ((e, worked) :: repaid) w''

/-- How the turns of a dispatch end: the state, the responses, what is given back, and the shared
state before the responses are delivered. -/
inductive Ending {ε : Type} (turns : List (Turn ε)) (s : Scene ε) :
    List (RollbackEntry ε × Bool) → DispatchState → List OutboundMessage → World ε → Prop where
  /-- Nobody failed: nothing is given back, and all responses count. -/
  | delivered (going : ∀ t ∈ turns, t.fate.GoesOn) :
      Ending turns s [] .delivered (turns.flatMap fun t => t.fate.responses) s.world
  /-- Somebody failed and nothing is pending: all responses count. -/
  | vetoed {earlier : List (Turn ε)} {t : Turn ε} {reason : FailureReason}
      {own : List OutboundMessage} (last : turns = earlier ++ [t])
      (failed : t.fate = .failed reason own) (empty : s.log.entries = []) :
      Ending turns s [] .vetoed ((earlier.flatMap fun t => t.fate.responses) ++ own)
        (s.world.failing reason)
  /-- Somebody failed and compensations are pending: they are carried out, the latest first, and
  only the responses of the failing handler count. -/
  | rolledBack {earlier : List (Turn ε)} {t : Turn ε} {reason : FailureReason}
      {own : List OutboundMessage} {w : World ε} {repaid : List (RollbackEntry ε × Bool)}
      (last : turns = earlier ++ [t]) (failed : t.fate = .failed reason own)
      (pending : s.log.entries ≠ [])
      (repayment : Repayment s.log.entries.reverse (s.world.failing reason) repaid w) :
      Ending turns s repaid .rolledBack own w

/-- What is answered to a line: nothing if it asks for quiet. -/
def ChatMessage.heard (m : ChatMessage) (responses : List OutboundMessage) :
    List OutboundMessage :=
  if m.quiet then [] else responses

/-- The handling of a line from the shared state `w`: its turns, the compensations carried out,
its outcome and the shared state it leaves. -/
inductive Dispatcher.Handling {ε : Type} (d : Dispatcher ε) (m : ChatMessage) (w : World ε) :
    List (Turn ε) → List (RollbackEntry ε × Bool) → DispatchOutcome → World ε → Prop where
  /-- The sender is ignored, and nothing happens but the count. -/
  | ignored (ignored : w.moderation.ignores m.sender = true) :
      Handling d m w [] [] ⟨.ignored, []⟩ (w.concluded .ignored)
  /-- The line holds a blocked phrase, and nothing happens but the count. -/
  | moderated (heard : w.moderation.ignores m.sender = false)
      (moderated : w.moderation.stops m = true) :
      Handling d m w [] [] ⟨.moderated, []⟩ (w.concluded .moderated)
  /-- The handlers that are due get their turns, and the dispatch ends as these say. -/
  | handled {turns : List (Turn ε)} {s : Scene ε} {repaid : List (RollbackEntry ε × Bool)}
      {state : DispatchState} {responses : List OutboundMessage} {w' : World ε}
      (heard : w.moderation.ignores m.sender = false)
      (clean : w.moderation.stops m = false)
      (course : d.Course m (d.standing m w) w.caches.length (d.due m w)
        ⟨w.opened d.owners m.sender, {}⟩ turns s)
      (ending : Ending turns s repaid state responses w') :
      Handling d m w turns repaid ⟨state, m.heard responses⟩
        ((w'.answered (m.heard responses)).concluded state)

end ChatBot
