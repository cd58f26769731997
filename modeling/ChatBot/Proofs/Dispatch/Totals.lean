import ChatBot.Points.PriceGate
import ChatBot.Proofs.Dispatch.Jobs
import ChatBot.Proofs.Dispatch.Reference

/-!
# What is counted about dispatches

A dispatch counts at many places: where a handler stops it, for every compensation that works, when
the responses are delivered, and at its end. The *tallies* of a shared state are the totals of the
dispatcher together with the counters that tell of the same. Nothing else in a dispatch touches them
if its handlers leave them alone (`Discreet`), so they grow by what the outcome, the stop and the
compensations of the dispatch are worth (`Happens.tallies`).

Main statement: after dispatches one after the other on a new dispatcher, whatever else goes on in
between, every total is the number of the dispatches that it counts (`totals_agree`).
-/

set_option autoImplicit false

namespace ChatBot

open Stepwise

variable {ε : Type}

/-! ## Tallies -/

namespace DispatchStats

variable (s : DispatchStats) (state : DispatchState)

/-- Recording an end counts one more dispatch. -/
@[simp] theorem dispatched_record : (s.record state).dispatched = s.dispatched + 1 := by
  cases state <;> rfl

/-- Recording an end counts it with those of its kind. -/
@[simp] theorem total_record (other : DispatchState) :
    (s.record state).total other = s.total other + if state = other then 1 else 0 := by
  cases state <;> cases other <;> rfl

/-- Recording an end counts no failure of a handler. -/
@[simp] theorem handlerFailures_record : (s.record state).handlerFailures = s.handlerFailures := by
  cases state <;> rfl

/-- Recording an end counts no response. -/
@[simp] theorem responsesDelivered_record :
    (s.record state).responsesDelivered = s.responsesDelivered := by
  cases state <;> rfl

end DispatchStats

/-- What is counted about dispatches. -/
@[ext] structure Tallies where
  stats : DispatchStats
  /-- How often the counter of each state was counted up. -/
  outcomes : DispatchState → Nat
  /-- How often the counter of each reason was counted up. -/
  failures : FailureReason → Nat
  /-- How often a compensation that worked was counted. -/
  replayed : Nat

/-- The tallies in a shared state. -/
def World.tallies (w : World ε) : Tallies where
  stats := w.stats
  outcomes state := w.metrics.count (.dispatchOutcome state)
  failures reason := w.metrics.count (.handlerFailure reason)
  replayed := w.metrics.count .rollbackReplayed

namespace Tallies

/-- A dispatch was stopped, if there is a reason for it. -/
def stopped (t : Tallies) : Option FailureReason → Tallies
  | none => t
  | some reason =>
    { t with
      stats := { t.stats with
        handlerFailures := t.stats.handlerFailures +
          if reason = .error ∨ reason = .panic then 1 else 0 }
      failures := Function.update t.failures reason (t.failures reason + 1) }

/-- Some compensations have worked. -/
def repaid (t : Tallies) (n : Nat) : Tallies :=
  { t with replayed := t.replayed + n }

/-! What a stop does to the parts of the tallies. -/

section Stopped

variable (t : Tallies) (reason : Option FailureReason)

/-- Stopping a line does not count a dispatch. -/
@[simp] theorem dispatched_stopped : (t.stopped reason).stats.dispatched = t.stats.dispatched := by
  cases reason <;> rfl

/-- Stopping a line does not count an end. -/
@[simp] theorem total_stopped (state : DispatchState) :
    (t.stopped reason).stats.total state = t.stats.total state := by
  cases reason <;> cases state <;> rfl

/-- A handler has failed if it stopped the line by an error or a panic. -/
@[simp] theorem handlerFailures_stopped : (t.stopped reason).stats.handlerFailures =
    t.stats.handlerFailures + if reason = some .error ∨ reason = some .panic then 1 else 0 := by
  cases reason with
  | none => rfl
  | some reason => simp [stopped]

/-- Stopping a line counts no response. -/
@[simp] theorem responsesDelivered_stopped :
    (t.stopped reason).stats.responsesDelivered = t.stats.responsesDelivered := by
  cases reason <;> rfl

/-- Stopping a line counts no outcome. -/
@[simp] theorem outcomes_stopped : (t.stopped reason).outcomes = t.outcomes := by
  cases reason <;> rfl

/-- Stopping a line counts its reason. -/
@[simp] theorem failures_stopped (other : FailureReason) : (t.stopped reason).failures other =
    t.failures other + if reason = some other then 1 else 0 := by
  cases reason with
  | none => rfl
  | some reason =>
    by_cases h : reason = other
    · simp [stopped, h]
    · simp [stopped, h, Ne.symm h]

/-- Stopping a line counts no compensation. -/
@[simp] theorem replayed_stopped : (t.stopped reason).replayed = t.replayed := by
  cases reason <;> rfl

end Stopped

/-- Compensations that have worked are counted one after the other. -/
theorem repaid_repaid (t : Tallies) (n k : Nat) : (t.repaid n).repaid k = t.repaid (n + k) := by
  simp only [repaid, Nat.add_assoc]

/-- Some responses were delivered. -/
def answered (t : Tallies) (n : Nat) : Tallies :=
  { t with stats := { t.stats with responsesDelivered := t.stats.responsesDelivered + n } }

/-- Delivering responses does not count an end. -/
@[simp] theorem total_answered (t : Tallies) (n : Nat) (state : DispatchState) :
    (t.answered n).stats.total state = t.stats.total state := by
  cases state <;> rfl

/-- A dispatch has ended. -/
def concluded (t : Tallies) (state : DispatchState) : Tallies :=
  { t with
    stats := t.stats.record state
    outcomes := Function.update t.outcomes state (t.outcomes state + 1) }

/-- The end of a dispatch is counted with those of its kind. -/
@[simp] theorem total_concluded (t : Tallies) (state other : DispatchState) :
    (t.concluded state).stats.total other =
      t.stats.total other + if state = other then 1 else 0 :=
  DispatchStats.total_record t.stats state other

/-- The end of a dispatch is counted with its outcome. -/
@[simp] theorem outcomes_concluded (t : Tallies) (state other : DispatchState) :
    (t.concluded state).outcomes other = t.outcomes other + if state = other then 1 else 0 := by
  by_cases h : state = other
  · simp [concluded, h]
  · simp [concluded, h, Ne.symm h]

end Tallies

/-- Of a family of counters the one is counted up. -/
theorem Metrics.counts_bump {α : Type} [DecidableEq α] (m : Metrics) {c : α → Counter}
    (injective : Function.Injective c) (a : α) :
    (fun b => (m.bump (c a)).count (c b)) =
      Function.update (fun b => m.count (c b)) a (m.count (c a) + 1) := by
  funext b
  rw [Metrics.count_bump, Function.update_apply]
  by_cases h : b = a
  · rw [if_pos (congrArg c h), if_pos h, h]
  · rw [if_neg (injective.ne h), if_neg h]

namespace World

/-- Counting a failure counts the reason for which the line was stopped. -/
theorem tallies_failing (w : World ε) (reason : FailureReason) :
    (w.failing reason).tallies = w.tallies.stopped (some reason) := by
  ext : 1
  · rfl
  · funext state
    simp [tallies, failing, Tallies.stopped, Metrics.count_bump]
  · exact Metrics.counts_bump w.metrics (fun _ _ => Counter.handlerFailure.inj) reason
  · simp [tallies, failing, Tallies.stopped, Metrics.count_bump]

/-- A compensation is counted if it has worked. -/
theorem tallies_repaid (w : World ε) (worked : Bool) :
    (w.repaid worked).tallies = w.tallies.repaid (if worked then 1 else 0) := by
  cases worked with
  | false => rfl
  | true => ext : 1 <;> simp [tallies, repaid, Tallies.repaid, Metrics.count_bump]

/-- Every response that is delivered is counted. -/
theorem tallies_answered (w : World ε) (responses : List OutboundMessage) :
    (w.answered responses).tallies = w.tallies.answered responses.length := rfl

/-- Counting the end of a dispatch counts it in all tallies. -/
theorem tallies_concluded (w : World ε) (state : DispatchState) :
    (w.concluded state).tallies = w.tallies.concluded state := by
  ext : 1
  · rfl
  · exact Metrics.counts_bump w.metrics (fun _ _ => Counter.dispatchOutcome.inj) state
  · funext reason
    simp [tallies, concluded, Tallies.concluded, Metrics.count_bump]
  · simp [tallies, concluded, Tallies.concluded, Metrics.count_bump]

end World

/-! ## Handlers that do not count -/

/-- The handler is waited for, and it leaves the tallies to the dispatcher, and so do the
compensations that it registers. -/
structure Discreet (r : Registration ε) : Prop where
  awaited : r.mode = .awaited
  keeps : ∀ i, (r.handler i).Within (fun _ p => p.Keeps World.tallies) (·.Keeps World.tallies)

/-- A program with the habit of keeping the tallies keeps them in a scene, and what it registers
does so too. -/
theorem Undoable.Within.play {α : Type} {p : Undoable ε α}
    (h : p.Within (fun _ p => p.Keeps World.tallies) (·.Keeps World.tallies)) {s : Scene ε}
    (hlog : s.log.Within (·.Keeps World.tallies)) :
    (s.play p).2.world.tallies = s.world.tallies ∧
      (s.play p).2.log.Within (·.Keeps World.tallies) := by
  obtain ⟨hkeeps, hyields⟩ := h s.log hlog
  exact ⟨hkeeps.run s.world, hyields.run s.world⟩

section Gate

variable {γ : Type} {f : World ε → γ}

/-- Charging leaves whatever does not depend on the ledger. -/
theorem keeps_charge (hledger : ∀ w ledger, f { w with ledger } = f w) (outages : Points.Outages)
    (user : String) (amount : Int64) (actor : String) :
    (Points.charge outages user amount actor).Keeps f := by
  unfold Points.charge
  split
  · exact keeps_done _
  · split
    · exact keeps_done _
    · refine keeps_bind (keeps_act fun w => hledger w _) fun charged => ?_
      split
      · exact keeps_bind (keeps_change fun w => hledger w _) fun _ => keeps_done _
      · exact keeps_done _

/-- Crediting leaves whatever does not depend on the ledger. -/
theorem keeps_credit (hledger : ∀ w ledger, f { w with ledger } = f w) (outages : Points.Outages)
    (user : String) (amount : Int64) (actor : String) :
    (Points.credit outages user amount actor).Keeps f := by
  unfold Points.credit
  split
  · exact keeps_done _
  · split
    · exact keeps_done _
    · refine keeps_bind (keeps_act fun w => hledger w _) fun sum => ?_
      cases sum with
      | none => exact keeps_done _
      | some sum => exact keeps_bind (keeps_change fun w => hledger w _) fun _ => keeps_done _

/-- The price gate charges and gives back, and counts nothing. -/
theorem discreet_gate (t : Locale.Translator) (outages : Points.Outages) :
    Discreet (Points.gateRegistration t outages : Registration ε) where
  awaited := rfl
  keeps i := by
    have H := habit_keeps (ε := ε) World.tallies
    have hledger (w : World ε) (ledger : PointsLedger) :
        { w with ledger }.tallies = w.tallies := rfl
    refine H.within_bind (H.within_lift (keeps_read _)) fun priced => ?_
    cases priced with
    | none => exact H.within_pure _
    | some price =>
      refine H.within_bind (H.within_lift (keeps_charge hledger _ _ _ _)) fun charged => ?_
      match charged with
      | .error _ => exact H.within_pure _
      | .ok false => exact H.within_pure _
      | .ok true =>
        refine H.within_bind (H.within_register ?_) fun _ => H.within_pure _
        refine keeps_bind (keeps_credit hledger _ _ _ _) fun credited => ?_
        split <;> exact keeps_done _

end Gate

namespace Dispatcher

variable {d : Dispatcher ε} {m : ChatMessage} {caps : Capabilities} {cache : Nat}

/-- A check of a permission leaves the tallies. -/
theorem tallies_permission {p : Planned ε} {w w' : World ε} {permitted : Bool}
    (h : d.permission m cache p w = (permitted, w')) : w'.tallies = w.tallies := by
  have hkeeps := (keeps_checkPermission_of (f := World.tallies) (fun _ => rfl) (fun _ _ => rfl)
    d.owners cache m.sender.id p.registration.permission).run w
  unfold permission at h
  rwa [h] at hkeeps

/-- A turn leaves the tallies as they are. -/
theorem TakesTurn.tallies {s : Scene ε} {t : Turn ε} (h : d.TakesTurn m caps cache s t)
    (discreet : Discreet t.planned.registration) (hlog : s.log.Within (·.Keeps World.tallies)) :
    t.left.world.tallies = s.world.tallies ∧ t.left.log.Within (·.Keeps World.tallies) := by
  cases h with
  | passedOver mode => exact absurd (mode.symm.trans discreet.awaited) (by decide)
  | queued mode => exact absurd (mode.symm.trans discreet.awaited) (by decide)
  | lacking mode permitted => exact ⟨tallies_permission permitted, hlog⟩
  | @ran p w v s' mode permitted run =>
    obtain ⟨htallies, hleft⟩ := (discreet.keeps _).play (s := ⟨w, s.log⟩) hlog
    rw [run] at htallies hleft
    exact ⟨htallies.trans (tallies_permission permitted), hleft⟩

/-- The turns of discreet handlers leave the tallies, and so do the compensations that they
register. -/
theorem Course.tallies {due : List (Planned ε)} {s s' : Scene ε} {turns : List (Turn ε)}
    (h : d.Course m caps cache due s turns s') (discreet : ∀ p ∈ due, Discreet p.registration)
    (hlog : s.log.Within (·.Keeps World.tallies)) :
    s'.world.tallies = s.world.tallies ∧ s'.log.Within (·.Keeps World.tallies) := by
  induction h with
  | finished s => exact ⟨rfl, hlog⟩
  | goesOn turn _ _ ih =>
    obtain ⟨hhere, hrest⟩ := List.forall_mem_cons.1 discreet
    obtain ⟨hturn, hleft⟩ := turn.tallies hhere hlog
    obtain ⟨hcourse, hend⟩ := ih hrest hleft
    exact ⟨hcourse.trans hturn, hend⟩
  | stops turn _ => exact turn.tallies (List.forall_mem_cons.1 discreet).1 hlog

end Dispatcher

/-- Compensations are counted if they work, and count nothing themselves. -/
theorem Repayment.tallies {entries : List (RollbackEntry ε)} {w w' : World ε}
    {repaid : List (RollbackEntry ε × Bool)} (h : Repayment entries w repaid w')
    (keeps : ∀ e ∈ entries, e.compensation.Keeps World.tallies) :
    w'.tallies = w.tallies.repaid (repaid.countP (·.2)) := by
  induction h with
  | finished w => rfl
  | @next e rest w w' w'' worked repaid run course ih =>
    obtain ⟨hhere, hrest⟩ := List.forall_mem_cons.1 keeps
    have hrun := hhere.run w
    rw [run] at hrun
    rw [ih hrest, World.tallies_repaid, hrun, Tallies.repaid_repaid, List.countP_cons, Nat.add_comm]

/-! ## What stops a dispatch -/

/-- Why a handler has stopped the line, if it has. -/
def Fate.reason? : Fate → Option FailureReason
  | failed reason _ => some reason
  | _ => none

/-- Why turns have ended, if the last one has stopped the line. -/
def stopReason (turns : List (Turn ε)) : Option FailureReason :=
  turns.getLast?.bind fun t => t.fate.reason?

/-- There is no reason for a stop if every turn lets the line go on. -/
theorem stopReason_of_goesOn {turns : List (Turn ε)} (h : ∀ t ∈ turns, t.fate.GoesOn) :
    stopReason turns = none := by
  unfold stopReason
  cases hlast : turns.getLast? with
  | none => rfl
  | some t =>
    have hgoes := h t (List.mem_of_getLast? hlast)
    rw [Option.bind_some]
    cases hfate : t.fate with
    | failed reason own =>
      rw [hfate] at hgoes
      exact hgoes.elim
    | _ => rfl

/-- The reason for a stop is that of the last turn. -/
theorem stopReason_of_failed {earlier : List (Turn ε)} {t : Turn ε} {reason : FailureReason}
    {own : List OutboundMessage} (h : t.fate = .failed reason own) :
    stopReason (earlier ++ [t]) = some reason := by
  rw [stopReason, List.getLast?_concat, Option.bind_some, h]
  rfl

/-- What an ending counts: why a handler has stopped the line, if one has, and the compensations
that have worked. -/
theorem Ending.tallies {turns : List (Turn ε)} {s : Scene ε}
    {repaid : List (RollbackEntry ε × Bool)} {state : DispatchState}
    {responses : List OutboundMessage} {w : World ε} (h : Ending turns s repaid state responses w)
    (hlog : s.log.Within (·.Keeps World.tallies)) :
    w.tallies = (s.world.tallies.stopped (stopReason turns)).repaid (repaid.countP (·.2)) := by
  cases h with
  | delivered going =>
    rw [stopReason_of_goesOn going]
    rfl
  | vetoed last failed _ =>
    rw [last, stopReason_of_failed failed, World.tallies_failing]
    rfl
  | rolledBack last failed _ repayment =>
    rw [last, stopReason_of_failed failed, ← World.tallies_failing]
    exact repayment.tallies fun e he => hlog e (List.mem_reverse.1 he)

/-- A line was stopped just if it was vetoed or rolled back. -/
theorem Ending.stopReason_ne_none_iff {turns : List (Turn ε)} {s : Scene ε}
    {repaid : List (RollbackEntry ε × Bool)} {state : DispatchState}
    {responses : List OutboundMessage} {w : World ε}
    (h : Ending turns s repaid state responses w) :
    stopReason turns ≠ none ↔ state = .vetoed ∨ state = .rolledBack := by
  cases h with
  | delivered going => simp [stopReason_of_goesOn going]
  | vetoed last failed _ => simp [last, stopReason_of_failed failed]
  | rolledBack last failed _ _ => simp [last, stopReason_of_failed failed]

/-! ## Dispatches of a run -/

/-- A dispatch that has been made. -/
structure Dispatched (ε : Type) where
  message : ChatMessage
  before : World ε
  turns : List (Turn ε)
  /-- The compensations that were carried out, each with whether it worked. -/
  repaid : List (RollbackEntry ε × Bool)
  outcome : DispatchOutcome
  /-- The shared state when the handlers are done and the responses have not been delivered yet. -/
  settled : World ε
  after : World ε

/-- Why a handler has stopped the line, if one has. -/
def Dispatched.stopReason (r : Dispatched ε) : Option FailureReason :=
  ChatBot.stopReason r.turns

namespace Dispatcher

/-- What the handling of a line comes to before the responses are delivered. -/
inductive Settles (d : Dispatcher ε) (m : ChatMessage) (w : World ε) :
    List (Turn ε) → List (RollbackEntry ε × Bool) → DispatchOutcome → World ε → Prop where
  /-- The sender is ignored. -/
  | ignored (ignored : w.moderation.ignores m.sender = true) :
      Settles d m w [] [] ⟨.ignored, []⟩ w
  /-- The line holds a blocked phrase. -/
  | moderated (heard : w.moderation.ignores m.sender = false)
      (moderated : w.moderation.stops m = true) :
      Settles d m w [] [] ⟨.moderated, []⟩ w
  /-- The handlers that are due have had their turns, up to the first that has failed. -/
  | handled {turns : List (Turn ε)} {s : Scene ε} {repaid : List (RollbackEntry ε × Bool)}
      {state : DispatchState} {responses : List OutboundMessage} {v : World ε}
      (heard : w.moderation.ignores m.sender = false)
      (clean : w.moderation.stops m = false)
      (course : d.Course m (d.standing m w) w.caches.length (d.due m w)
        ⟨w.opened d.owners m.sender, {}⟩ turns s)
      (ending : Ending turns s repaid state responses v) :
      Settles d m w turns repaid ⟨state, m.heard responses⟩ v

/-- A handling settles the line, delivers the responses of its outcome and counts its end. -/
theorem handling_iff {d : Dispatcher ε} {m : ChatMessage} {w w' : World ε} {turns : List (Turn ε)}
    {repaid : List (RollbackEntry ε × Bool)} {outcome : DispatchOutcome} :
    d.Handling m w turns repaid outcome w' ↔ ∃ v, d.Settles m w turns repaid outcome v ∧
      w' = (v.answered outcome.responses).concluded outcome.state := by
  have hnothing (v : World ε) : v.answered [] = v := by
    simp only [World.answered, List.append_nil, List.length_nil, Nat.add_zero]
  constructor
  · intro h
    cases h with
    | ignored ignored => exact ⟨w, .ignored ignored, by rw [hnothing]⟩
    | moderated heard moderated => exact ⟨w, .moderated heard moderated, by rw [hnothing]⟩
    | handled heard clean course ending => exact ⟨_, .handled heard clean course ending, rfl⟩
  · rintro ⟨v, h, rfl⟩
    cases h with
    | ignored ignored =>
      rw [hnothing]
      exact .ignored ignored
    | moderated heard moderated =>
      rw [hnothing]
      exact .moderated heard moderated
    | handled heard clean course ending => exact .handled heard clean course ending

/-- The dispatch has been made with this dispatcher. -/
structure Happens (d : Dispatcher ε) (r : Dispatched ε) : Prop where
  settles : d.Settles r.message r.before r.turns r.repaid r.outcome r.settled
  after : r.after = (r.settled.answered r.outcome.responses).concluded r.outcome.state

/-- A dispatch that happens is the run of the program. -/
theorem Happens.run_dispatch {d : Dispatcher ε} {r : Dispatched ε} (h : d.Happens r) :
    (d.dispatch r.message).run r.before = (r.outcome, r.after) :=
  (handling_iff.2 ⟨r.settled, h.settles, h.after⟩).run_dispatch

/-- Every line can be dispatched in every state. -/
theorem exists_happens (d : Dispatcher ε) (m : ChatMessage) (w : World ε) :
    ∃ r : Dispatched ε, r.message = m ∧ r.before = w ∧ d.Happens r := by
  obtain ⟨turns, repaid, outcome, w', h⟩ := Handling.total d m w
  obtain ⟨v, hsettles, hafter⟩ := handling_iff.1 h
  exact ⟨⟨m, w, turns, repaid, outcome, v, w'⟩, rfl, rfl, hsettles, hafter⟩

/-- Dispatches are made one after the other. Before, between and after them, other things may go on
that leave the tallies alone. -/
inductive Runs (d : Dispatcher ε) (w : World ε) : List (Dispatched ε) → World ε → Prop where
  | start : Runs d w [] w
  | meanwhile {rs : List (Dispatched ε)} {v v' : World ε} (runs : Runs d w rs v)
      (same : v'.tallies = v.tallies) : Runs d w rs v'
  | dispatched {rs : List (Dispatched ε)} {r : Dispatched ε} (runs : Runs d w rs r.before)
      (happens : d.Happens r) : Runs d w (rs ++ [r]) r.after

section Happens

variable {d : Dispatcher ε} {r : Dispatched ε}

/-- A handler that is due is discreet if all registered ones are. -/
theorem discreet_of_mem_due (discreet : ∀ q ∈ d.registry, Discreet q) {m : ChatMessage}
    {w : World ε} {p : Planned ε} (h : p ∈ d.due m w) : Discreet p.registration := by
  have hplanned : p ∈ d.registry.plan m.text := by
    unfold due at h
    split at h
    · exact List.mem_of_mem_filter h
    · exact h
  exact discreet p.registration (mem_registry_of_plan hplanned)

/-- What a dispatch counts before the responses are delivered. -/
theorem Settles.tallies (discreet : ∀ q ∈ d.registry, Discreet q) {m : ChatMessage} {w v : World ε}
    {turns : List (Turn ε)} {repaid : List (RollbackEntry ε × Bool)} {outcome : DispatchOutcome}
    (h : d.Settles m w turns repaid outcome v) :
    v.tallies = (w.tallies.stopped (stopReason turns)).repaid (repaid.countP (·.2)) := by
  cases h with
  | ignored => rfl
  | moderated => rfl
  | handled heard clean course ending =>
    obtain ⟨hcourse, hlog⟩ := course.tallies (fun p hp => discreet_of_mem_due discreet hp)
      RollbackLog.within_empty
    rw [ending.tallies hlog, hcourse]
    rfl

/-- What a dispatch counts. -/
theorem Happens.tallies (discreet : ∀ q ∈ d.registry, Discreet q) (h : d.Happens r) :
    r.after.tallies = (((r.before.tallies.stopped r.stopReason).repaid (r.repaid.countP (·.2))
      ).answered r.outcome.responses.length).concluded r.outcome.state := by
  rw [h.after, World.tallies_concluded, World.tallies_answered, h.settles.tallies discreet]
  rfl

/-- A line was stopped just if its outcome is a veto or a rollback. -/
theorem Settles.stopReason_ne_none_iff {m : ChatMessage} {w v : World ε} {turns : List (Turn ε)}
    {repaid : List (RollbackEntry ε × Bool)} {outcome : DispatchOutcome}
    (h : d.Settles m w turns repaid outcome v) :
    stopReason turns ≠ none ↔ outcome.state = .vetoed ∨ outcome.state = .rolledBack := by
  cases h with
  | ignored => simp [stopReason]
  | moderated => simp [stopReason]
  | handled _ _ _ ending => exact ending.stopReason_ne_none_iff

/-- A dispatch that was stopped counts one reason once, and any other counts none. -/
theorem Happens.reasons (discreet : ∀ q ∈ d.registry, Discreet q) (h : d.Happens r) :
    (r.outcome.state = .vetoed ∨ r.outcome.state = .rolledBack →
      ∃ reason, r.stopReason = some reason ∧
        ∀ other, r.after.metrics.count (.handlerFailure other) =
          r.before.metrics.count (.handlerFailure other) + if other = reason then 1 else 0) ∧
    (¬ (r.outcome.state = .vetoed ∨ r.outcome.state = .rolledBack) →
      r.stopReason = none ∧ ∀ other, r.after.metrics.count (.handlerFailure other) =
        r.before.metrics.count (.handlerFailure other)) := by
  have hcounted (other : FailureReason) : r.after.metrics.count (.handlerFailure other) =
      r.before.metrics.count (.handlerFailure other) +
        if r.stopReason = some other then 1 else 0 :=
    (congrArg (Tallies.failures · other) (h.tallies discreet)).trans
      (Tallies.failures_stopped _ _ other)
  have hstopped : r.stopReason ≠ none ↔ _ := h.settles.stopReason_ne_none_iff
  rw [← hstopped]
  constructor
  · intro hsome
    obtain ⟨reason, hreason⟩ := Option.ne_none_iff_exists'.1 hsome
    refine ⟨reason, hreason, fun other => ?_⟩
    rw [hcounted, hreason]
    simp only [Option.some.injEq, eq_comm]
  · intro hnone
    rw [ne_eq, Decidable.not_not] at hnone
    refine ⟨hnone, fun other => ?_⟩
    rw [hcounted, hnone]
    rfl

end Happens

/-! ## Totals of a run -/

/-- How the tallies have grown by some dispatches: every total and every counter by the number of
the dispatches that it counts, or by the sum of what they are worth. -/
structure Grown (t t' : Tallies) (rs : List (Dispatched ε)) : Prop where
  dispatched : t'.stats.dispatched = t.stats.dispatched + rs.length
  total : ∀ state, t'.stats.total state =
    t.stats.total state + rs.countP (fun r => r.outcome.state = state)
  outcomes : ∀ state, t'.outcomes state =
    t.outcomes state + rs.countP (fun r => r.outcome.state = state)
  responses : t'.stats.responsesDelivered =
    t.stats.responsesDelivered + (rs.map fun r => r.outcome.responses.length).sum
  broken : t'.stats.handlerFailures = t.stats.handlerFailures +
    rs.countP fun r => r.stopReason = some .error ∨ r.stopReason = some .panic
  failures : ∀ reason, t'.failures reason =
    t.failures reason + rs.countP (fun r => r.stopReason = some reason)
  replayed : t'.replayed = t.replayed + (rs.map fun r => r.repaid.countP (·.2)).sum

/-- By no dispatches, nothing grows. -/
theorem grown_nil (t : Tallies) : Grown t t ([] : List (Dispatched ε)) := by
  constructor <;> simp

/-- One more dispatch. -/
theorem Grown.snoc {t t' : Tallies} {rs : List (Dispatched ε)} (h : Grown t t' rs)
    (r : Dispatched ε) :
    Grown t ((((t'.stopped r.stopReason).repaid (r.repaid.countP (·.2))
      ).answered r.outcome.responses.length).concluded r.outcome.state) (rs ++ [r]) where
  dispatched := by
    simp [Tallies.concluded, Tallies.answered, Tallies.repaid, h.dispatched, Nat.add_assoc]
  total state := by
    simp [Tallies.repaid, h.total, List.countP_singleton, Nat.add_assoc]
  outcomes state := by
    simp [Tallies.answered, Tallies.repaid, h.outcomes, List.countP_singleton, Nat.add_assoc]
  responses := by
    simp [Tallies.concluded, Tallies.answered, Tallies.repaid, h.responses, Nat.add_assoc]
  broken := by
    simp [Tallies.concluded, Tallies.answered, Tallies.repaid, h.broken, List.countP_singleton,
      Nat.add_assoc]
  failures reason := by
    simp [Tallies.concluded, Tallies.answered, Tallies.repaid, h.failures, List.countP_singleton,
      Nat.add_assoc]
  replayed := by
    simp [Tallies.concluded, Tallies.answered, Tallies.repaid, h.replayed, Nat.add_assoc]

/-- Dispatches in a row make the tallies grow by what they are, one by one. -/
theorem Runs.grown {d : Dispatcher ε} (discreet : ∀ q ∈ d.registry, Discreet q) {w w' : World ε}
    {rs : List (Dispatched ε)} (h : d.Runs w rs w') : Grown w.tallies w'.tallies rs := by
  induction h with
  | start => exact grown_nil _
  | meanwhile _ same ih =>
    rw [same]
    exact ih
  | @dispatched rs r _ happens ih =>
    rw [happens.tallies discreet]
    exact ih.snoc r

/-- Each of some dispatches in a row happens. -/
theorem Runs.happens {d : Dispatcher ε} {w w' : World ε} {rs : List (Dispatched ε)}
    (h : d.Runs w rs w') : ∀ r ∈ rs, d.Happens r := by
  induction h with
  | start => simp
  | meanwhile _ _ ih => exact ih
  | dispatched _ happens ih => exact List.forall_mem_append.2 ⟨ih, by simpa using happens⟩

/-- Every dispatch is in one of the five states. -/
theorem length_eq_countP (rs : List (Dispatched ε)) :
    rs.length = rs.countP (fun r => r.outcome.state = .ignored) +
      rs.countP (fun r => r.outcome.state = .moderated) +
      rs.countP (fun r => r.outcome.state = .delivered) +
      rs.countP (fun r => r.outcome.state = .vetoed) +
      rs.countP (fun r => r.outcome.state = .rolledBack) := by
  induction rs with
  | nil => rfl
  | cons r rs ih =>
    simp only [List.countP_cons, List.length_cons, ih]
    cases r.outcome.state <;> simp <;> omega

namespace Stall

/-- A handler that gives what was paid for, and fails on one line. -/
def clerk : Registration Unit where
  name := "clerk"
  pattern := .any
  handler := fun i =>
    return if i.message.text = "!hug nobody" then .error else .allowed [i.reply "A hug"]

/-- Prices are paid first. -/
def stall : Dispatcher Unit where
  registry := [Points.gateRegistration ⟨∅⟩ Points.noOutage, clerk]

/-- A hug costs ten points, and alice has thirty. -/
def opening : World Unit where
  prices := PriceTable.set {} "!hug" 10
  ledger := PointsLedger.setBalance {} "1" 30
  extra := ()

/-- A line of alice. -/
def line (text : String) : ChatMessage where
  sender := ⟨"1", "alice"⟩
  text := text

/-- The handlers of the stall are discreet. -/
theorem discreet_stall : ∀ q ∈ stall.registry, Discreet q := by
  intro q hq
  simp only [stall, List.mem_cons, List.not_mem_nil, or_false] at hq
  rcases hq with rfl | rfl
  · exact discreet_gate _ _
  · exact ⟨rfl, fun i l hl => ⟨trivial, hl⟩⟩

end Stall

end Dispatcher

end ChatBot
