import ChatBot.Proofs.Dispatch.Bench
import ChatBot.Proofs.Dispatch.Bookkeeping
import Mathlib.Algebra.BigOperators.Group.Finset.Piecewise
import Mathlib.Algebra.BigOperators.Ring.Finset

/-!
# What becomes of detached jobs

Handlers leave the detached queue and its totals alone, and detached ones do not deliver anything
themselves (`Modest`). Then every job that a dispatch queues is started once, in the order of
queueing; what is delivered while it moves is what its handler has answered, unless the line asked
for quiet; and it is counted once, as completed or as failed. Main statement:
`Accounted.settled`.
-/

set_option autoImplicit false

namespace ChatBot

open Stepwise

variable {ε : Type}

/-- The part of the shared state that belongs to the detached queue. -/
def World.queueing (w : World ε) : List DetachedJob × DetachedStats :=
  (w.queue, w.detached)

/-- The handler leaves the detached queue to the engine, and so do the compensations that it
registers if anybody may carry them out. -/
structure Modest (r : Registration ε) : Prop where
  awaited : r.mode = .awaited →
    ∀ i, (r.handler i).Within (fun _ p => p.Keeps World.queueing) (·.Keeps World.queueing)
  detached : r.mode = .fireAndForget → ∀ i, ((r.handler i).run {}).Keeps World.queueing

/-- The responses of a handler that has answered. -/
def Verdict.answer? : Verdict → Option (List OutboundMessage)
  | allowed responses => some responses
  | denied responses => some responses
  | error => none
  | panic => none

/-- What is heard of a job whose handler comes to a verdict. -/
def DetachedJob.heard (job : DetachedJob) (v : Verdict) : List OutboundMessage :=
  if job.quiet then [] else v.answer?.getD []

/-- What is delivered by moves. -/
def sent (moves : List (Move (World ε))) : List OutboundMessage :=
  moves.flatMap fun m => m.left.delivered.drop m.found.delivered.length

/-- By how much moves raise one of the totals of the queue. -/
def gain (total : DetachedStats → Nat) (moves : List (Move (World ε))) : Nat :=
  (moves.map fun m => total m.left.detached - total m.found.detached).sum

/-- Moves raise a total by what the first of them and the later ones raise it. -/
theorem gain_append (total : DetachedStats → Nat) (moves later : List (Move (World ε))) :
    gain total (moves ++ later) = gain total moves + gain total later := by
  rw [gain, List.map_append, List.sum_append]
  rfl

/-- Moves that keep the totals raise none of them. -/
theorem gain_of_kept {moves : List (Move (World ε))}
    (h : ∀ m ∈ moves, m.left.queueing = m.found.queueing) (total : DetachedStats → Nat) :
    gain total moves = 0 := by
  induction moves with
  | nil => rfl
  | cons m moves ih =>
    obtain ⟨hm, hmoves⟩ := List.forall_mem_cons.1 h
    have hdetached : m.left.detached = m.found.detached := (Prod.mk.inj hm).2
    rw [gain, List.map_cons, List.sum_cons, ← gain, ih hmoves, hdetached, Nat.sub_self]

/-! ## One job -/

section Job

variable {moves : List (Move (World ε))}

/-- Delivering responses sends them in order, and raises no total of the queue. -/
theorem sent_deliverAll {responses : List OutboundMessage}
    (h : Traced (Dispatcher.deliverAll responses) moves (.done ())) :
    sent moves = responses ∧ ∀ total, gain total moves = 0 := by
  induction responses generalizing moves with
  | nil =>
    obtain ⟨rfl, -⟩ := h.of_done
    exact ⟨rfl, fun _ => rfl⟩
  | cons r rest ih =>
    rcases h.of_step with ⟨-, hdone⟩ | ⟨w, later, rfl, hlater⟩
    · cases hdone
    · obtain ⟨hsent, hgain⟩ := ih hlater
      refine ⟨?_, fun total => ?_⟩
      · rw [sent, List.flatMap_cons, ← sent, hsent]
        simp
      · rw [gain, List.map_cons, List.sum_cons, ← gain, hgain]
        simp

/-- The end of a job whose handler has come to a verdict. -/
def Dispatcher.close (job : DetachedJob) : Verdict → Activity ε Unit
  | .allowed responses => complete job responses
  | .denied responses => complete job responses
  | .error => countDetachedFailure .error
  | .panic => countDetachedFailure .panic

/-- A job runs its handler, and is then closed for the verdict. -/
theorem Dispatcher.runJob_eq {d : Dispatcher ε} {job : DetachedJob} {r : Registration ε}
    (hr : d.registry[job.handler]? = some r) :
    d.runJob job = ((r.handler job.invocation).run {}).bind fun result => close job result.1 := by
  unfold runJob
  rw [hr]
  refine congrArg (Stepwise.bind _) (funext fun result => ?_)
  obtain ⟨verdict, log⟩ := result
  cases verdict <;> rfl

/-- Completing a job sends its responses, unless it is to be quiet, and counts it once. -/
theorem sent_complete {job : DetachedJob} {responses : List OutboundMessage}
    (h : Traced (Dispatcher.complete job responses) moves (.done ())) :
    sent moves = (if job.quiet then [] else responses) ∧
      gain (·.completed) moves = 1 ∧ gain (·.failed) moves = 0 := by
  rcases h.of_step with ⟨-, hdone⟩ | ⟨w, later, rfl, hlater⟩
  · cases hdone
  · have hrest : sent later = (if job.quiet then [] else responses) ∧
        ∀ total, gain total later = 0 := by
      cases hquiet : job.quiet with
      | true =>
        simp only [Stepwise.bind, hquiet, if_true] at hlater
        obtain ⟨rfl, -⟩ := hlater.of_done
        exact ⟨rfl, fun _ => rfl⟩
      | false =>
        simp only [Stepwise.bind, hquiet] at hlater
        exact sent_deliverAll hlater
    obtain ⟨hsent, hgain⟩ := hrest
    refine ⟨?_, ?_, ?_⟩
    · rw [sent, List.flatMap_cons, ← sent, hsent]
      simp
    · rw [gain, List.map_cons, List.sum_cons, ← gain, hgain]
      simp
    · rw [gain, List.map_cons, List.sum_cons, ← gain, hgain]
      simp

/-- Counting a failed job sends nothing, and counts it once. -/
theorem sent_countDetachedFailure {reason : FailureReason}
    (h : Traced (Dispatcher.countDetachedFailure reason) moves (.done ())) :
    sent moves = [] ∧ gain (·.completed) moves = 0 ∧ gain (·.failed) moves = 1 := by
  rcases h.of_step with ⟨-, hdone⟩ | ⟨w, later, rfl, hlater⟩
  · cases hdone
  · obtain ⟨rfl, -⟩ := hlater.of_done
    simp [sent, gain]

/-- What a job delivers and counts when its handler has come to a verdict. -/
theorem settled_of_close {job : DetachedJob} {v : Verdict}
    (h : Traced (Dispatcher.close job v) moves (.done ())) :
    sent moves = job.heard v ∧
      gain (·.completed) moves = (if v.answer? = none then 0 else 1) ∧
      gain (·.failed) moves = if v.answer? = none then 1 else 0 := by
  have hsilent : job.heard .error = [] ∧ job.heard .panic = [] := by
    simp [DetachedJob.heard, Verdict.answer?]
  cases v with
  | allowed responses => exact sent_complete h
  | denied responses => exact sent_complete h
  | error =>
    rw [hsilent.1]
    exact sent_countDetachedFailure h
  | panic =>
    rw [hsilent.2]
    exact sent_countDetachedFailure h

end Job

/-! ## What steps do to the queue -/

/-- The handler of a number is registered, and nobody waits for it. -/
def Dispatcher.Detaches (d : Dispatcher ε) (job : DetachedJob) : Prop :=
  ∃ r, d.registry[job.handler]? = some r ∧ r.mode = .fireAndForget

/-- A step of a dispatch may put jobs into the queue and counts them; it does no other thing to the
queue and its totals. -/
structure Dispatcher.Offers (d : Dispatcher ε) (w w' : World ε) : Prop where
  completed : w'.detached.completed = w.detached.completed
  failed : w'.detached.failed = w.detached.failed
  queued : ∃ jobs, w'.queue = w.queue ++ jobs ∧
    w'.detached.queued = w.detached.queued + jobs.length ∧ ∀ job ∈ jobs, d.Detaches job

/-- A step of a job may raise the totals of the jobs that have ended, and leaves the queue. -/
structure Works (w w' : World ε) : Prop where
  queue : w'.queue = w.queue
  queued : w'.detached.queued = w.detached.queued
  completed : w.detached.completed ≤ w'.detached.completed
  failed : w.detached.failed ≤ w'.detached.failed

section Steps

variable {d : Dispatcher ε} {m : ChatMessage}

/-- A program that leaves the queue does to it what a dispatch may. -/
theorem offers_of_keeps {α : Type} {p : Activity ε α} (h : p.Keeps World.queueing) :
    p.Each d.Offers := by
  refine h.each.mono fun w w' hw => ?_
  obtain ⟨hqueue, hdetached⟩ := Prod.mk.inj hw
  exact ⟨by rw [hdetached], by rw [hdetached], [], by simp [hqueue], by simp [hdetached], by simp⟩

/-- A planned handler is registered under its number. -/
theorem getElem?_of_mem_plan {p : Planned ε} (h : p ∈ d.registry.plan m.text) :
    d.registry[p.index]? = some p.registration := by
  obtain ⟨priority, -, hp⟩ := List.mem_flatMap.1 h
  exact List.mem_zipIdx_iff_getElem?.1 (Registry.mem_planTier hp).1

/-- A planned handler is a registered one. -/
theorem mem_registry_of_plan {p : Planned ε} (h : p ∈ d.registry.plan m.text) :
    p.registration ∈ d.registry :=
  List.mem_of_getElem? (getElem?_of_mem_plan h)

/-- The job of a planned handler that is not waited for has a registered handler that is not waited
for. -/
theorem detaches_of_mem_plan {p : Planned ε} (h : p ∈ d.registry.plan m.text)
    (hmode : p.registration.mode = .fireAndForget) (i : Invocation) :
    d.Detaches ⟨p.index, i, m.quiet⟩ :=
  ⟨p.registration, getElem?_of_mem_plan h, hmode⟩

/-- Putting a job into the queue is a thing that a dispatch may do to it. -/
theorem offers_enqueue {job : DetachedJob} (h : d.Detaches job) :
    (Dispatcher.enqueue (ε := ε) job).Each d.Offers := by
  intro w
  refine ⟨?_, trivial⟩
  dsimp only
  split
  · exact ⟨rfl, rfl, [job], rfl, rfl, by simpa using h⟩
  · exact ⟨rfl, rfl, [], by simp, rfl, by simp⟩

/-- In all its steps, a dispatch does to the queue what it may. -/
theorem Dispatcher.offers (modest : ∀ r ∈ d.registry, Modest r) : (d.dispatch m).Each d.Offers := by
  have hbooks {α : Type} {p : Activity ε α} (h : p.Keeps World.queueing) : p.Each d.Offers :=
    offers_of_keeps h
  have haccustomed : d.Accustomed m (fun _ p => p.Each d.Offers) (·.Keeps World.queueing) :=
    { stricter := fun _ => hbooks
      ignored := hbooks (keeps_read _)
      moderated := hbooks (keeps_read _)
      found := hbooks (keeps_act fun _ => rfl)
      opened := fun _ => hbooks (keeps_act fun _ => rfl)
      known := fun _ => hbooks (keeps_read _)
      checked := fun cache required => hbooks (keeps_checkPermission_of (fun _ => rfl)
        (fun _ _ => rfl) d.owners cache m.sender.id required)
      queued := fun p hp hmode _ _ => offers_enqueue (detaches_of_mem_plan hp hmode _)
      failed := fun _ => hbooks (keeps_change fun _ => rfl)
      repaid := hbooks (keeps_change fun _ => rfl)
      delivered := fun _ => hbooks (keeps_change fun _ => rfl)
      answered := fun _ => hbooks (keeps_change fun _ => rfl)
      concluded := fun _ _ => hbooks (keeps_bind (keeps_change fun _ => rfl) fun _ => keeps_done _)
      handlers := fun p hp hmode i => ((modest p.registration (mem_registry_of_plan hp)).awaited
        hmode i).mono hbooks }
  exact haccustomed.dispatch (habit_each _)

/-- A program that leaves the queue does to it what a job may. -/
theorem works_of_keeps {α : Type} {p : Activity ε α} (h : p.Keeps World.queueing) :
    p.Each Works := by
  refine h.each.mono fun w w' hw => ?_
  obtain ⟨hqueue, hdetached⟩ := Prod.mk.inj hw
  exact ⟨hqueue, by rw [hdetached], by rw [hdetached], by rw [hdetached]⟩

/-- The end of a job only delivers messages and counts the job. -/
theorem Dispatcher.each_close {P : World ε → World ε → Prop}
    (delivers : ∀ w response, P w { w with delivered := w.delivered ++ [response] })
    (completes : ∀ w : World ε,
      P w { w with detached := { w.detached with completed := w.detached.completed + 1 } })
    (fails : ∀ (w : World ε) metrics,
      P w { w with detached := { w.detached with failed := w.detached.failed + 1 }, metrics })
    (job : DetachedJob) (v : Verdict) : (close job v).Each P := by
  have hdeliver (responses : List OutboundMessage) : (deliverAll (ε := ε) responses).Each P := by
    induction responses with
    | nil => trivial
    | cons r rest ih => exact fun w => ⟨delivers w r, ih⟩
  have hcomplete (responses : List OutboundMessage) :
      (complete (ε := ε) job responses).Each P := by
    refine fun w => ⟨completes w, ?_⟩
    cases hquiet : job.quiet with
    | true => simp only [Stepwise.bind, if_true]; exact each_done ()
    | false => exact hdeliver responses
  have hfailure (reason : FailureReason) : (countDetachedFailure (ε := ε) reason).Each P :=
    fun w => ⟨fails w _, trivial⟩
  cases v with
  | allowed responses => exact hcomplete responses
  | denied responses => exact hcomplete responses
  | error => exact hfailure .error
  | panic => exact hfailure .panic

/-- In all its steps, a job does to the queue what it may. -/
theorem Dispatcher.works {job : DetachedJob} (modest : ∀ r ∈ d.registry, Modest r)
    (h : d.Detaches job) : (d.runJob job).Each Works := by
  obtain ⟨r, hr, hmode⟩ := h
  have hkeeps := (modest r (List.mem_of_getElem? hr)).detached hmode job.invocation
  have hhandler : ((r.handler job.invocation).run {}).Each Works :=
    works_of_keeps hkeeps
  rw [runJob_eq hr]
  refine each_bind hhandler (yields_true _) fun result _ => ?_
  apply each_close
  · exact fun _ _ => ⟨rfl, rfl, Nat.le_refl _, Nat.le_refl _⟩
  · exact fun _ => ⟨rfl, rfl, Nat.le_succ _, Nat.le_refl _⟩
  · exact fun _ _ => ⟨rfl, rfl, Nat.le_refl _, Nat.le_succ _⟩

end Steps

/-! ## What a job comes to -/

/-- A job has come to its end: its handler has made its own moves and come to a verdict, and in the
rest of the moves the job has delivered the responses and has been counted. -/
structure Settled (p : Activity ε (Verdict × RollbackLog ε)) (job : DetachedJob)
    (own rest : List (Move (World ε))) (v : Verdict) : Prop where
  handled : ∃ log, Traced p own (.done (v, log))
  closed : Traced (Dispatcher.close job v) rest (.done ())
  grows : ∀ m ∈ rest, m.found.delivered <+: m.left.delivered
  sent : sent rest = job.heard v
  completed : gain (·.completed) (own ++ rest) = if v.answer? = none then 0 else 1
  failed : gain (·.failed) (own ++ rest) = if v.answer? = none then 1 else 0

/-- A job that has come to its end is settled, and this by the verdict of its handler. -/
theorem settled_of_runJob {d : Dispatcher ε} {job : DetachedJob} {r : Registration ε}
    {moves : List (Move (World ε))} (hr : d.registry[job.handler]? = some r)
    (hmode : r.mode = .fireAndForget) (modest : Modest r)
    (h : Traced (d.runJob job) moves (.done ())) :
    ∃ own rest v, moves = own ++ rest ∧
      Settled ((r.handler job.invocation).run {}) job own rest v := by
  rw [Dispatcher.runJob_eq hr] at h
  obtain ⟨own, rest, ⟨v, log⟩, rfl, hown, hrest⟩ := h.of_bind_done
  have hgain := gain_of_kept (hown.each (modest.detached hmode job.invocation).each).1
  have hgrows : (Dispatcher.close (ε := ε) job v).Each
      fun w w' => w.delivered <+: w'.delivered :=
    Dispatcher.each_close (fun _ _ => List.prefix_append _ _) (fun _ => List.prefix_refl _)
      (fun _ _ => List.prefix_refl _) job v
  obtain ⟨hsent, hcompleted, hfailed⟩ := settled_of_close hrest
  refine ⟨own, rest, v, rfl, ⟨log, hown⟩, hrest, (hrest.each hgrows).1, hsent, ?_, ?_⟩
  · rw [gain_append, hgain, Nat.zero_add, hcompleted]
  · rw [gain_append, hgain, Nat.zero_add, hfailed]

/-! ## All jobs -/

namespace Bench

/-- By how much the moves of all jobs raise one of the totals. -/
def gains (total : DetachedStats → Nat) (b : Bench ε) : Nat :=
  ∑ j ∈ Finset.range b.jobs.length, gain total (b.movesOf (.job j))

/-- All jobs that dispatches have queued are accounted for: they have been started or wait. -/
structure Accounted (d : Dispatcher ε) (lines : List ChatMessage) (b : Bench ε) : Prop extends
    Tracked d lines b where
  queue : b.offered = b.started ++ b.world.queue
  detaches : ∀ job ∈ b.offered, d.Detaches job
  queued : b.world.detached.queued = b.offered.length
  completed : b.world.detached.completed = b.gains (·.completed)
  failed : b.world.detached.failed = b.gains (·.failed)

section Accounted

variable {d : Dispatcher ε} {lines : List ChatMessage} {b b' : Bench ε}

/-- One more move may put one more job into the queue. -/
theorem offered_moved {m : Mover × Move (World ε)} (h : b'.moves = b.moves ++ [m]) :
    b'.offered = b.offered ++ offeredBy m := by
  rw [offered, h, List.flatMap_append, List.flatMap_singleton]
  rfl

/-- The moves of jobs put no jobs into the queue. -/
theorem offered_job {j : Nat} {m : Move (World ε)} (h : b'.moves = b.moves ++ [(.job j, m)]) :
    b'.offered = b.offered := by
  rw [offered_moved h]
  exact List.append_nil _

/-- The moves of dispatches raise no totals of the jobs. -/
theorem gains_dispatch {i : Nat} {m : Move (World ε)} (h : b'.moves = b.moves ++ [(.dispatch i, m)])
    (hjobs : b'.jobs.length = b.jobs.length) (total : DetachedStats → Nat) :
    b'.gains total = b.gains total := by
  unfold gains
  rw [hjobs]
  refine Finset.sum_congr rfl fun j _ => ?_
  rw [movesOf_moved b h, if_neg (by simp), List.append_nil]

/-- One more move of a job raises a total by what that move does. -/
theorem gains_job {j : Nat} {m : Move (World ε)} (h : b'.moves = b.moves ++ [(.job j, m)])
    (hjobs : b'.jobs.length = b.jobs.length) (hj : j < b.jobs.length)
    (total : DetachedStats → Nat) :
    b'.gains total =
      b.gains total + (total m.left.detached - total m.found.detached) := by
  have hterm (k : Nat) : gain total (b'.movesOf (.job k)) = gain total (b.movesOf (.job k)) +
      if j = k then total m.left.detached - total m.found.detached else 0 := by
    rw [movesOf_moved b h, gain_append]
    by_cases hk : j = k
    · simp [hk, gain]
    · simp [hk, gain]
  unfold gains
  rw [hjobs, Finset.sum_congr rfl fun k _ => hterm k, Finset.sum_add_distrib,
    Finset.sum_ite_eq, if_pos (Finset.mem_range.2 hj)]

/-- At the beginning, no job is to be accounted for. -/
theorem accounted_ofLines {w : World ε} (hqueue : w.queue = []) (hdetached : w.detached = {}) :
    Accounted d lines (ofLines d lines w) := by
  refine ⟨tracked_ofLines w, ?_, ?_, ?_, ?_, ?_⟩
  · exact hqueue.symm
  · intro job hjob
    cases hjob
  · simp [ofLines, hdetached, offered]
  · simp [ofLines, hdetached, gains]
  · simp [ofLines, hdetached, gains]

/-- What every job does whose handler nobody waits for is also done by what is left of one. -/
theorem Accounted.of_runJob {P : World ε → World ε → Prop} (h : Accounted d lines b)
    (hP : ∀ job, d.Detaches job → (d.runJob job).Each P) {j : Nat} {p : Activity ε Unit}
    (hj : b.jobs[j]? = some p) : p.Each P := by
  have hlt := (List.getElem?_eq_some_iff.1 hj).1
  rw [h.jobs] at hlt
  have hoffered : b.started[j] ∈ b.offered := by
    rw [h.queue]
    exact List.mem_append_left _ (List.getElem_mem hlt)
  exact ((h.ran (List.getElem?_eq_getElem hlt) hj).each (hP _ (h.detaches _ hoffered))).2

/-- A move of a dispatch puts jobs at the end of the queue, and counts them. -/
theorem Accounted.moveDispatch (h : Accounted d lines b) (modest : ∀ r ∈ d.registry, Modest r)
    {i : Nat} {u : World ε → World ε} {n : World ε → Activity ε DispatchOutcome}
    (hi : b.dispatches[i]? = some (.step u n)) : Accounted d lines (b.moveDispatch i u n) := by
  obtain ⟨m, hm⟩ : ∃ m, lines[i]? = some m := by
    have hlt := (List.getElem?_eq_some_iff.1 hi).1
    rw [h.dispatches] at hlt
    exact ⟨_, List.getElem?_eq_getElem hlt⟩
  have hstep := ((h.dispatched hm hi).each (Dispatcher.offers modest)).2 b.world
  obtain ⟨hcompleted, hfailed, jobs, hqueue, hqueued, hdetaches⟩ := hstep.1
  have hmoves : (b.moveDispatch i u n).moves =
      b.moves ++ [(.dispatch i, ⟨b.world, u b.world⟩)] := rfl
  have hoffered : (b.moveDispatch i u n).offered = b.offered ++ jobs := by
    have hjobs : offeredBy (.dispatch i, ⟨b.world, u b.world⟩) = jobs := by
      show (u b.world).queue.drop b.world.queue.length = jobs
      rw [hqueue, List.drop_left]
    rw [offered_moved hmoves, hjobs]
  have hgains (total : DetachedStats → Nat) : (b.moveDispatch i u n).gains total = b.gains total :=
    gains_dispatch hmoves rfl total
  refine ⟨h.toTracked.moveDispatch hi, ?_, ?_, ?_, ?_, ?_⟩
  · rw [hoffered, h.queue, List.append_assoc]
    exact congrArg (b.started ++ ·) hqueue.symm
  · rw [hoffered]
    exact List.forall_mem_append.2 ⟨h.detaches, hdetaches⟩
  · rw [hoffered, List.length_append, ← h.queued]
    exact hqueued
  · rw [hgains, ← h.completed]
    exact hcompleted
  · rw [hgains, ← h.failed]
    exact hfailed

/-- A move of a job leaves the queue alone, and the totals grow by what the move adds to them. -/
theorem Accounted.moveJob (h : Accounted d lines b) (modest : ∀ r ∈ d.registry, Modest r)
    {j : Nat} {u : World ε → World ε} {n : World ε → Activity ε Unit}
    (hj : b.jobs[j]? = some (.step u n)) : Accounted d lines (b.moveJob j u n) := by
  have hlt : j < b.jobs.length := (List.getElem?_eq_some_iff.1 hj).1
  have hstep := (h.of_runJob (fun _ => Dispatcher.works modest) hj b.world).1
  have hmoves : (b.moveJob j u n).moves = b.moves ++ [(.job j, ⟨b.world, u b.world⟩)] := rfl
  have hoffered : (b.moveJob j u n).offered = b.offered := offered_job hmoves
  have hgains (total : DetachedStats → Nat) : (b.moveJob j u n).gains total =
      b.gains total + (total (u b.world).detached - total b.world.detached) :=
    gains_job hmoves (List.length_set ..) hlt total
  refine ⟨h.toTracked.moveJob hj, ?_, ?_, ?_, ?_, ?_⟩
  · rw [hoffered, h.queue]
    exact congrArg (b.started ++ ·) hstep.queue.symm
  · rw [hoffered]
    exact h.detaches
  · rw [hoffered, ← h.queued]
    exact hstep.queued
  · rw [hgains, ← h.completed]
    exact (Nat.add_sub_cancel' hstep.completed).symm
  · rw [hgains, ← h.failed]
    exact (Nat.add_sub_cancel' hstep.failed).symm

/-- A job that is started was the oldest in the queue. -/
theorem Accounted.startJob (h : Accounted d lines b) {job : DetachedJob} {rest : List DetachedJob}
    (hqueue : b.world.queue = job :: rest) : Accounted d lines (b.startJob d job rest) := by
  have hgains (total : DetachedStats → Nat) :
      (b.startJob d job rest).gains total = b.gains total := by
    have hnew : gain total (b.movesOf (.job b.jobs.length)) = 0 := by
      rw [h.toTracked.movesOf_job_of_le (Nat.le_refl _)]
      rfl
    unfold gains Bench.startJob
    rw [List.length_append, List.length_singleton, Finset.sum_range_succ]
    exact (congrArg (_ + ·) hnew).trans (Nat.add_zero _)
  refine ⟨h.toTracked.startJob job rest, ?_, h.detaches, h.queued, ?_, ?_⟩
  · show b.offered = b.started ++ [job] ++ rest
    rw [h.queue, hqueue, List.append_assoc]
    rfl
  · rw [hgains]
    exact h.completed
  · rw [hgains]
    exact h.failed

/-- What leaves the queue and its totals leaves the jobs accounted for. -/
theorem Accounted.meanwhile (h : Accounted d lines b) {change : World ε → World ε}
    (elsewhere : (change b.world).queueing = b.world.queueing) :
    Accounted d lines { b with world := change b.world } := by
  obtain ⟨hqueue, hdetached⟩ := Prod.mk.inj elsewhere
  refine ⟨⟨h.dispatches, h.jobs, h.dispatched, h.ran, h.movers⟩, ?_, h.detaches, ?_, ?_, ?_⟩
  · rw [hqueue]
    exact h.queue
  · rw [hdetached]
    exact h.queued
  · rw [hdetached]
    exact h.completed
  · rw [hdetached]
    exact h.failed

/-- Whatever comes next, the jobs remain accounted for. -/
theorem Accounted.take (h : Accounted d lines b) (modest : ∀ r ∈ d.registry, Modest r)
    (cue : Cue ε) (elsewhere : ∀ change, cue = .meanwhile change →
      ∀ w, (change w).queueing = w.queueing) :
    Accounted d lines (b.take d cue) := by
  apply take_cases cue
  · exact h
  · exact fun i u n => h.moveDispatch modest
  · exact fun j u n => h.moveJob modest
  · exact fun job rest => h.startJob
  · exact fun change hcue => h.meanwhile (elsewhere change hcue b.world)

/-- Whatever the order, all jobs are accounted for. -/
theorem accounted_play {w : World ε} (hqueue : w.queue = []) (hdetached : w.detached = {})
    (modest : ∀ r ∈ d.registry, Modest r) {cues : List (Cue ε)}
    (elsewhere : ∀ change, .meanwhile change ∈ cues → ∀ w, (change w).queueing = w.queueing) :
    Accounted d lines ((ofLines d lines w).play d cues) := by
  induction cues using List.reverseRecOn with
  | nil => exact accounted_ofLines hqueue hdetached
  | append_singleton cues cue ih =>
    rw [play_snoc]
    refine (ih fun change hmem => elsewhere change (List.mem_append_left _ hmem)).take modest cue ?_
    rintro change rfl
    exact elsewhere change (List.mem_append_right _ List.mem_cons_self)

/-- When all jobs have ended, each of them has been started once and has settled, and each has been
counted once. -/
theorem Accounted.settled (h : Accounted d lines b) (modest : ∀ r ∈ d.registry, Modest r)
    (finished : b.Finished) :
    b.started = b.offered ∧ ∃ verdict : Nat → Verdict,
      (∀ j job, b.started[j]? = some job → ∃ r own rest, d.registry[job.handler]? = some r ∧
        r.mode = .fireAndForget ∧ b.movesOf (.job j) = own ++ rest ∧
        Settled ((r.handler job.invocation).run {}) job own rest (verdict j)) ∧
      b.world.detached.queued = b.started.length ∧
      b.world.detached.failed =
        ((Finset.range b.started.length).filter fun j => (verdict j).answer? = none).card ∧
      b.world.detached.completed + b.world.detached.failed = b.world.detached.queued := by
  have hstarted : b.started = b.offered := by
    rw [h.queue, finished.queue, List.append_nil]
  -- verdicts are told by the numbers of the jobs, so a number without a job gets one, too
  have hjob (j : Nat) : ∃ v : Verdict, ∀ job, b.started[j]? = some job →
      ∃ r own rest, d.registry[job.handler]? = some r ∧ r.mode = .fireAndForget ∧
        b.movesOf (.job j) = own ++ rest ∧
        Settled ((r.handler job.invocation).run {}) job own rest v := by
    cases hj : b.started[j]? with
    | none => exact ⟨.panic, by simp⟩
    | some job =>
      have hlt : j < b.jobs.length := by
        rw [h.jobs]
        exact (List.getElem?_eq_some_iff.1 hj).1
      have htraced := h.ran hj (List.getElem?_eq_getElem hlt)
      rw [finished.jobs _ (List.getElem_mem hlt)] at htraced
      obtain ⟨r, hr, hmode⟩ := h.detaches job (hstarted ▸ List.mem_of_getElem? hj)
      obtain ⟨own, rest, v, hmoves, hv⟩ :=
        settled_of_runJob hr hmode (modest r (List.mem_of_getElem? hr)) htraced
      exact ⟨v, fun job' hjob' => by cases hjob'; exact ⟨r, own, rest, hr, hmode, hmoves, hv⟩⟩
  choose verdict hverdict using hjob
  have hsettled {j : Nat} (hj : j ∈ Finset.range b.started.length) :
      gain (·.completed) (b.movesOf (.job j)) = (if (verdict j).answer? = none then 0 else 1) ∧
        gain (·.failed) (b.movesOf (.job j)) = if (verdict j).answer? = none then 1 else 0 := by
    have hlt := Finset.mem_range.1 hj
    obtain ⟨r, own, rest, -, -, hmoves, hs⟩ := hverdict j _ (List.getElem?_eq_getElem hlt)
    rw [hmoves]
    exact ⟨hs.completed, hs.failed⟩
  have hfailed : b.world.detached.failed =
      ((Finset.range b.started.length).filter fun j => (verdict j).answer? = none).card := by
    rw [h.failed, gains, h.jobs, Finset.card_filter]
    exact Finset.sum_congr rfl fun j hj => (hsettled hj).2
  have hqueued : b.world.detached.queued = b.started.length := by
    rw [h.queued, hstarted]
  refine ⟨hstarted, verdict, hverdict, hqueued, hfailed, ?_⟩
  rw [hqueued, h.completed, h.failed, gains, gains, ← Finset.sum_add_distrib, h.jobs]
  have hone : ∀ j ∈ Finset.range b.started.length,
      gain (·.completed) (b.movesOf (.job j)) + gain (·.failed) (b.movesOf (.job j)) = 1 := by
    intro j hj
    obtain ⟨hcompleted, hfailed⟩ := hsettled hj
    rw [hcompleted, hfailed]
    split <;> rfl
  rw [Finset.sum_congr rfl hone, ← Finset.card_eq_sum_ones, Finset.card_range]

/-! ### Coming to an end -/

/-- One bench comes to another by moves and starts alone. -/
def Leads (d : Dispatcher ε) (b b' : Bench ε) : Prop :=
  ∃ cues, (∀ change, .meanwhile change ∉ cues) ∧ b.play d cues = b'

/-- A bench comes to itself by no cues. -/
theorem leads_refl (b : Bench ε) : Leads d b b :=
  ⟨[], by simp, rfl⟩

/-- A bench comes on by further cues. -/
theorem Leads.trans {b'' : Bench ε} (h : Leads d b b') (h' : Leads d b' b'') : Leads d b b'' := by
  obtain ⟨cues, hcues, rfl⟩ := h
  obtain ⟨more, hmore, rfl⟩ := h'
  refine ⟨cues ++ more, fun change hmem => ?_, play_append d b cues more⟩
  exact (List.mem_append.1 hmem).elim (hcues change) (hmore change)

/-- A bench comes on by a move. -/
theorem leads_move (b : Bench ε) (who : Mover) : Leads d b (b.take d (.move who)) :=
  ⟨[.move who], by simp, rfl⟩

/-- A bench comes on by a start. -/
theorem leads_start (b : Bench ε) : Leads d b (b.take d .start) :=
  ⟨[.start], by simp, rfl⟩

/-- Jobs remain accounted for on the way to another bench. -/
theorem Accounted.leads (h : Accounted d lines b) (modest : ∀ r ∈ d.registry, Modest r)
    (hb : Leads d b b') : Accounted d lines b' := by
  obtain ⟨cues, hcues, rfl⟩ := hb
  induction cues generalizing b with
  | nil => exact h
  | cons cue cues ih =>
    have hcue : Accounted d lines (b.take d cue) := h.take modest cue fun change hchange =>
      absurd (hchange ▸ List.mem_cons_self) (hcues change)
    exact ih hcue fun change hmem => hcues change (List.mem_cons_of_mem cue hmem)

/-- A dispatch can come to its end while the others wait. -/
theorem exists_end_dispatch (p : Activity ε DispatchOutcome) {b : Bench ε} {i : Nat}
    (h : b.dispatches[i]? = some p) :
    ∃ b' outcome, Leads d b b' ∧ b'.dispatches = b.dispatches.set i (.done outcome) := by
  induction p generalizing b with
  | done outcome =>
    obtain ⟨hlt, hi⟩ := List.getElem?_eq_some_iff.1 h
    refine ⟨b, outcome, leads_refl b, ?_⟩
    rw [← hi, List.set_getElem_self]
  | step u n ih =>
    have hnext := take_dispatch (d := d) h
    have hlt := (List.getElem?_eq_some_iff.1 h).1
    have hi : (b.take d (.move (.dispatch i))).dispatches[i]? = some (n b.world) := by
      rw [hnext, dispatches_moveDispatch, List.getElem?_set_self hlt]
    obtain ⟨b', outcome, hb', hdispatches⟩ := ih b.world hi
    refine ⟨b', outcome, (leads_move b _).trans hb', ?_⟩
    rw [hdispatches, hnext, dispatches_moveDispatch, List.set_set]

/-- A job moves without any effect on the queue, so it can be brought to its end and the queue
stays as it is. -/
theorem exists_end_job (p : Activity ε Unit) {b : Bench ε} {j : Nat} (hp : p.Each Works)
    (h : b.jobs[j]? = some p) :
    ∃ b', Leads d b b' ∧ b'.jobs = b.jobs.set j (.done ()) ∧ b'.dispatches = b.dispatches ∧
      b'.world.queue = b.world.queue := by
  induction p generalizing b with
  | done value =>
    obtain ⟨hlt, hj⟩ := List.getElem?_eq_some_iff.1 h
    refine ⟨b, leads_refl b, ?_, rfl, rfl⟩
    rw [← hj, List.set_getElem_self]
  | step u n ih =>
    have hnext := take_job (d := d) h
    have hlt := (List.getElem?_eq_some_iff.1 h).1
    have hj : (b.take d (.move (.job j))).jobs[j]? = some (n b.world) := by
      rw [hnext, jobs_moveJob, List.getElem?_set_self hlt]
    obtain ⟨b', hb', hjobs, hdispatches, hqueue⟩ := ih b.world (hp b.world).2 hj
    refine ⟨b', (leads_move b _).trans hb', ?_, ?_, ?_⟩
    · rw [hjobs, hnext, jobs_moveJob, List.set_set]
    · rw [hdispatches, hnext, dispatches_moveJob]
    · rw [hqueue, hnext, world_moveJob]
      exact (hp b.world).1.queue

/-- All jobs in the queue can be started, one after the other. -/
theorem exists_all_started (queue : List DetachedJob) {b : Bench ε} (h : b.world.queue = queue) :
    ∃ b', Leads d b b' ∧ b'.dispatches = b.dispatches ∧ b'.world.queue = [] := by
  induction queue generalizing b with
  | nil => exact ⟨b, leads_refl b, rfl, h⟩
  | cons job rest ih =>
    have hnext := take_start (d := d) h
    have hrest : (b.take d .start).world.queue = rest := by
      rw [hnext, queue_startJob]
    obtain ⟨b', hb', hdispatches, hqueue⟩ := ih hrest
    refine ⟨b', (leads_start b).trans hb', ?_, hqueue⟩
    rw [hdispatches, hnext, dispatches_startJob]

/-- The dispatches and the jobs can always be brought to an end. -/
theorem Accounted.exists_finished (h : Accounted d lines b)
    (modest : ∀ r ∈ d.registry, Modest r) : ∃ b', Leads d b b' ∧ b'.Finished := by
  obtain ⟨b₁, hb₁, hdone⟩ := exists_all_ended (f := dispatches)
    (E := fun p => ∃ outcome, p = .done outcome) leads_refl (Leads.trans (d := d))
    (fun b i p hi => by
      obtain ⟨b', outcome, hb', hdispatches⟩ := exists_end_dispatch (d := d) p hi
      exact ⟨b', _, hb', ⟨outcome, rfl⟩, hdispatches⟩) b
  obtain ⟨b₂, hb₂, hdispatches, hqueue⟩ := exists_all_started (d := d) _ (b := b₁) rfl
  let Idle (b : Bench ε) : Prop :=
    Accounted d lines b ∧ (∀ p ∈ b.dispatches, ∃ outcome, p = .done outcome) ∧ b.world.queue = []
  have hidle : Idle b₂ := ⟨(h.leads modest hb₁).leads modest hb₂, hdispatches ▸ hdone, hqueue⟩
  obtain ⟨⟨b₃, _, hdone, hqueue⟩, hb₃, hjobs⟩ := exists_all_ended (S := { b // Idle b })
    (R := fun s s' => Leads d s.1 s'.1) (f := fun s => s.1.jobs) (E := fun p => p = .done ())
    (fun s => leads_refl s.1) (fun h h' => h.trans h')
    (fun ⟨b, haccounted, hdone, hqueue⟩ j p hj => by
      have hworks := haccounted.of_runJob (fun _ => Dispatcher.works modest) hj
      obtain ⟨b', hb', hjobs, hdispatches, hqueue'⟩ := exists_end_job (d := d) p hworks hj
      have hidle : Idle b' :=
        ⟨haccounted.leads modest hb', hdispatches ▸ hdone, hqueue'.trans hqueue⟩
      exact ⟨⟨b', hidle⟩, _, hb', rfl, hjobs⟩) ⟨b₂, hidle⟩
  exact ⟨b₃, (hb₁.trans hb₂).trans hb₃, hdone, hqueue, hjobs⟩

end Accounted

end Bench

end ChatBot
