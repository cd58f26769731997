import ChatBot.Dispatch.Registry

/-!
# Dispatching

A dispatch takes one line of chat through the registered handlers. Lines of ignored senders and
lines with blocked phrases go no further. Otherwise the handlers planned for the line run one
after the other, until one of them does not allow it; then what the handlers before it have taken
is given back. Handlers that nobody waits for are put into a queue and run on their own.
-/

set_option autoImplicit false

namespace ChatBot

/-- How a dispatch has ended. -/
structure DispatchOutcome where
  /-- The state it has ended in. -/
  state : DispatchState
  /-- The responses in the order of their delivery; none when the line asked for quiet. -/
  responses : List OutboundMessage

/-- What dispatches are made with. -/
structure Dispatcher (ε : Type) where
  registry : Registry ε
  owners : Owners := {}

namespace Dispatcher

variable {ε : Type}

/-- Puts a handler into the detached queue, as long as that takes any. -/
def enqueue (job : DetachedJob) : Activity ε Unit :=
  .change fun w =>
    if w.queueOpen then
      { w with
        queue := w.queue ++ [job]
        detached := { w.detached with queued := w.detached.queued + 1 }
        metrics := w.metrics.bump .detachedTask }
    else w

/-- Delivers messages in order. -/
def deliverAll : List OutboundMessage → Activity ε Unit
  | [] => return ()
  | m :: rest => do
    World.deliver m
    deliverAll rest

/-- Counts a handler that did not allow a line. -/
def countFailure (reason : FailureReason) : Activity ε Unit :=
  .change fun w =>
    let stats := match reason with
      | .error => { w.stats with handlerFailures := w.stats.handlerFailures + 1 }
      | .panic => { w.stats with handlerFailures := w.stats.handlerFailures + 1 }
      | _ => w.stats
    { w with stats, metrics := w.metrics.bump (.handlerFailure reason) }

/-- Stops a dispatch: what was taken is given back. The earlier responses are dropped if anything
was given back, for they tell of what has just been undone. -/
def stop (reason : FailureReason) (earlier own : List OutboundMessage) :
    Undoable ε (DispatchState × List OutboundMessage) := do
  StateT.lift (countFailure reason)
  let replayed ← RollbackLog.replay
  return if 0 < replayed then (.rolledBack, own) else (.vetoed, earlier ++ own)

/-- The invocation of a planned handler. -/
def invocation (m : ChatMessage) (caps : Capabilities) (cache : Nat) (p : Planned ε) :
    Invocation where
  message := m
  capabilities := caps
  command := p.command
  param := p.param
  cache := cache

/-- Runs planned handlers one after the other, given the responses so far. -/
def runPlan (d : Dispatcher ε) (m : ChatMessage) (caps : Capabilities) (cache : Nat)
    (skipping : Bool) (responses : List OutboundMessage) :
    List (Planned ε) → Undoable ε (DispatchState × List OutboundMessage)
  | [] => return (.delivered, responses)
  | p :: rest =>
    if skipping && p.registration.skippable then
      runPlan d m caps cache skipping responses rest
    else do
      let permitted ←
        StateT.lift (checkPermission d.owners cache m.sender.id p.registration.permission)
      match p.registration.mode with
      | .fireAndForget =>
        if permitted then
          StateT.lift (enqueue ⟨p.index, invocation m caps cache p, m.quiet⟩)
        runPlan d m caps cache skipping responses rest
      | .awaited =>
        if !permitted then stop .permission responses []
        else
          match ← p.registration.handler (invocation m caps cache p) with
          | .allowed own => runPlan d m caps cache skipping (responses ++ own) rest
          | .denied own => stop .denied responses own
          | .error => stop .error responses []
          | .panic => stop .panic responses []

/-- Counts how a dispatch has ended. -/
def finish (state : DispatchState) (responses : List OutboundMessage) :
    Activity ε DispatchOutcome := do
  Stepwise.change fun w =>
    { w with
      stats := w.stats.record state
      metrics := w.metrics.bump (.dispatchOutcome state) }
  return { state, responses }

/-- Takes a line through the handlers, with the log of what is to be given back. -/
def conduct (d : Dispatcher ε) (m : ChatMessage) : Undoable ε DispatchOutcome := do
  if ← StateT.lift (World.isIgnored m.sender) then StateT.lift (finish .ignored [])
  else if ← StateT.lift (World.isModerated m) then StateT.lift (finish .moderated [])
  else
    let record ← StateT.lift (World.findUser m.sender.id)
    let cache ← StateT.lift
      (World.openCache (.ofSender (d.owners.capabilities record m.sender)))
    let known ← StateT.lift (World.readCache cache)
    let caps := (known.capabilities m.sender.id).getD (.viewer m.sender)
    let skipping := m.skip && caps.isPrivileged
    let (state, responses) ← runPlan d m caps cache skipping [] (d.registry.plan m.text)
    let _ ← RollbackLog.discard
    if m.quiet then StateT.lift (finish state [])
    else
      StateT.lift (deliverAll responses)
      StateT.lift (Stepwise.change fun w =>
        { w with stats :=
            { w.stats with
              responsesDelivered := w.stats.responsesDelivered + responses.length } })
      StateT.lift (finish state responses)

/-- Takes a line through the handlers. -/
def dispatch (d : Dispatcher ε) (m : ChatMessage) : Activity ε DispatchOutcome := do
  let (outcome, _) ← (conduct d m).run {}
  return outcome

/-- Counts a detached handler that has failed. -/
def countDetachedFailure (reason : FailureReason) : Activity ε Unit :=
  .change fun w =>
    { w with
      detached := { w.detached with failed := w.detached.failed + 1 }
      metrics := w.metrics.bump (.handlerFailure reason) }

/-- Ends a detached handler that has answered. -/
def complete (job : DetachedJob) (responses : List OutboundMessage) : Activity ε Unit := do
  Stepwise.change fun w =>
    { w with detached := { w.detached with completed := w.detached.completed + 1 } }
  if job.quiet then return () else deliverAll responses

/-- Runs a handler from the detached queue. It has a log of its own, which nobody ever replays. -/
def runJob (d : Dispatcher ε) (job : DetachedJob) : Activity ε Unit :=
  match d.registry[job.handler]? with
  | none => return ()
  | some r => do
    let (verdict, _) ← (r.handler job.invocation).run {}
    match verdict with
    | .allowed responses => complete job responses
    | .denied responses => complete job responses
    | .error => countDetachedFailure .error
    | .panic => countDetachedFailure .panic

/-- Runs handlers from the detached queue one after the other. -/
def runJobs (d : Dispatcher ε) : List DetachedJob → Activity ε Unit
  | [] => return ()
  | job :: rest => do
    runJob d job
    runJobs d rest

/-- Runs all handlers that wait in the detached queue. -/
def drain (d : Dispatcher ε) : Activity ε Unit := do
  let jobs ← Stepwise.act fun w => (w.queue, { w with queue := [] })
  runJobs d jobs

end Dispatcher

end ChatBot
