import ChatBot.Proofs.Dispatch.Habits
import ChatBot.Proofs.Dispatch.Planning
import ChatBot.Proofs.Interleaving
import Mathlib.Algebra.BigOperators.Group.Finset.Basic

/-!
# Dispatches and detached jobs that take turns

A *bench* holds the dispatches of some lines, and the detached jobs that have been started. A list
of cues says what comes next: a dispatch or a job makes its next move, the worker takes the oldest
job out of the queue and starts it, or something else goes on in the shared state. Whatever the
order, every dispatch and every job makes the moves of its program: this is what `Tracked` says, and
each thing that can come next keeps it (`Tracked.moveDispatch`, `Tracked.moveJob`,
`Tracked.startJob`).
-/

set_option autoImplicit false

namespace ChatBot

open Stepwise

variable {ε : Type}

/-- Who makes a move. -/
inductive Mover where
  | dispatch (i : Nat)
  | job (j : Nat)
  deriving DecidableEq

/-- What comes next. -/
inductive Cue (ε : Type) where
  | move (who : Mover)
  /-- The worker takes the oldest job out of the queue and starts it. -/
  | start
  /-- Something goes on that is neither a dispatch nor a job. -/
  | meanwhile (change : World ε → World ε)

/-- Dispatches and jobs on their way, and the moves they have made. -/
structure Bench (ε : Type) where
  dispatches : List (Activity ε DispatchOutcome)
  /-- The jobs that have been started, in this order. -/
  started : List DetachedJob := []
  /-- What is left of each of them. -/
  jobs : List (Activity ε Unit) := []
  world : World ε
  moves : List (Mover × Move (World ε)) := []

namespace Bench

/-- The dispatches of some lines, before the first of them has begun. -/
def ofLines (d : Dispatcher ε) (lines : List ChatMessage) (w : World ε) : Bench ε where
  dispatches := lines.map d.dispatch
  world := w

/-- A dispatch makes a move. -/
def moveDispatch (b : Bench ε) (i : Nat) (u : World ε → World ε)
    (n : World ε → Activity ε DispatchOutcome) : Bench ε :=
  { b with
    dispatches := b.dispatches.set i (n b.world)
    world := u b.world
    moves := b.moves ++ [(.dispatch i, ⟨b.world, u b.world⟩)] }

/-- A job makes a move. -/
def moveJob (b : Bench ε) (j : Nat) (u : World ε → World ε) (n : World ε → Activity ε Unit) :
    Bench ε :=
  { b with
    jobs := b.jobs.set j (n b.world)
    world := u b.world
    moves := b.moves ++ [(.job j, ⟨b.world, u b.world⟩)] }

/-- A job is started, and others remain in the queue. -/
def startJob (d : Dispatcher ε) (b : Bench ε) (job : DetachedJob) (rest : List DetachedJob) :
    Bench ε :=
  { b with
    started := b.started ++ [job]
    jobs := b.jobs ++ [d.runJob job]
    world := { b.world with queue := rest } }

/-- Takes a cue: a dispatch or a job goes one step on, a job is started, or the world is changed. -/
def take (d : Dispatcher ε) (b : Bench ε) : Cue ε → Bench ε
  | .move (.dispatch i) =>
    match b.dispatches[i]? with
    | some (.step u n) => b.moveDispatch i u n
    | _ => b
  | .move (.job j) =>
    match b.jobs[j]? with
    | some (.step u n) => b.moveJob j u n
    | _ => b
  | .start =>
    match b.world.queue with
    | [] => b
    | job :: rest => b.startJob d job rest
  | .meanwhile change => { b with world := change b.world }

/-- Takes cues, one after the other. -/
def play (d : Dispatcher ε) (b : Bench ε) (cues : List (Cue ε)) : Bench ε :=
  cues.foldl (take d) b

/-- Cues are taken one list after the other. -/
theorem play_append (d : Dispatcher ε) (b : Bench ε) (cues more : List (Cue ε)) :
    b.play d (cues ++ more) = (b.play d cues).play d more :=
  List.foldl_append

/-- The last cue is taken where the others have led. -/
@[simp] theorem play_snoc (d : Dispatcher ε) (b : Bench ε) (cues : List (Cue ε)) (cue : Cue ε) :
    b.play d (cues ++ [cue]) = (b.play d cues).take d cue := by
  rw [play, List.foldl_append]
  rfl

/-- The moves that somebody has made, in their order. -/
def movesOf (b : Bench ε) (who : Mover) : List (Move (World ε)) :=
  (b.moves.filter fun m => m.1 = who).map (·.2)

/-- The jobs that a move puts into the queue. -/
def offeredBy : Mover × Move (World ε) → List DetachedJob
  | (.dispatch _, m) => m.left.queue.drop m.found.queue.length
  | (.job _, _) => []

/-- The jobs that dispatches have queued, in their order. -/
def offered (b : Bench ε) : List DetachedJob :=
  b.moves.flatMap offeredBy

/-- Every dispatch has come to its end, and so has every job that was queued. -/
structure Finished (b : Bench ε) : Prop where
  dispatches : ∀ p ∈ b.dispatches, ∃ outcome, p = .done outcome
  queue : b.world.queue = []
  jobs : ∀ p ∈ b.jobs, p = .done ()

/-! ## Cues one by one -/

section Fields

variable (d : Dispatcher ε) (b : Bench ε) (k : Nat) (u : World ε → World ε)

/-- The move of a dispatch replaces what is left of it. -/
@[simp] theorem dispatches_moveDispatch (n : World ε → Activity ε DispatchOutcome) :
    (b.moveDispatch k u n).dispatches = b.dispatches.set k (n b.world) := rfl

/-- The move of a job replaces what is left of it. -/
@[simp] theorem jobs_moveJob (n : World ε → Activity ε Unit) :
    (b.moveJob k u n).jobs = b.jobs.set k (n b.world) := rfl

/-- The move of a job leaves the dispatches. -/
@[simp] theorem dispatches_moveJob (n : World ε → Activity ε Unit) :
    (b.moveJob k u n).dispatches = b.dispatches := rfl

/-- The move of a job changes the shared state as it says. -/
@[simp] theorem world_moveJob (n : World ε → Activity ε Unit) :
    (b.moveJob k u n).world = u b.world := rfl

/-- Starting a job leaves the dispatches. -/
@[simp] theorem dispatches_startJob (job : DetachedJob) (rest : List DetachedJob) :
    (b.startJob d job rest).dispatches = b.dispatches := rfl

/-- Starting a job takes it out of the queue. -/
@[simp] theorem queue_startJob (job : DetachedJob) (rest : List DetachedJob) :
    (b.startJob d job rest).world.queue = rest := rfl

end Fields

section Take

variable {d : Dispatcher ε} {b : Bench ε} {u : World ε → World ε}

/-- The cue of a dispatch that has not ended is its next move. -/
theorem take_dispatch {i : Nat} {n : World ε → Activity ε DispatchOutcome}
    (h : b.dispatches[i]? = some (.step u n)) :
    b.take d (.move (.dispatch i)) = b.moveDispatch i u n := by
  simp only [take, h]

/-- The cue of a job that has not ended is its next move. -/
theorem take_job {j : Nat} {n : World ε → Activity ε Unit} (h : b.jobs[j]? = some (.step u n)) :
    b.take d (.move (.job j)) = b.moveJob j u n := by
  simp only [take, h]

/-- The cue to start is that for the oldest job in the queue. -/
theorem take_start {job : DetachedJob} {rest : List DetachedJob} (h : b.world.queue = job :: rest) :
    b.take d .start = b.startJob d job rest := by
  simp only [take, h]

/-- What a cue brings about: nothing, a move, a job that is started, or what goes on meanwhile. -/
theorem take_cases {P : Bench ε → Prop} (cue : Cue ε) (idle : P b)
    (dispatch : ∀ i u n, b.dispatches[i]? = some (.step u n) → P (b.moveDispatch i u n))
    (job : ∀ j u n, b.jobs[j]? = some (.step u n) → P (b.moveJob j u n))
    (start : ∀ job rest, b.world.queue = job :: rest → P (b.startJob d job rest))
    (meanwhile : ∀ change, cue = .meanwhile change → P { b with world := change b.world }) :
    P (b.take d cue) := by
  cases cue with
  | move who =>
    cases who with
    | dispatch i =>
      cases h : b.dispatches[i]? with
      | none => simpa only [take, h] using idle
      | some p =>
        cases p with
        | done a => simpa only [take, h] using idle
        | step u n =>
          rw [take_dispatch h]
          exact dispatch i u n h
    | job j =>
      cases h : b.jobs[j]? with
      | none => simpa only [take, h] using idle
      | some p =>
        cases p with
        | done a => simpa only [take, h] using idle
        | step u n =>
          rw [take_job h]
          exact job j u n h
  | start =>
    cases h : b.world.queue with
    | nil => simpa only [take, h] using idle
    | cons j rest =>
      rw [take_start h]
      exact start j rest h
  | meanwhile change => exact meanwhile change rfl

end Take

/-- One more move is that of whoever has made it. -/
theorem movesOf_moved (b : Bench ε) {b' : Bench ε} {who : Mover} {m : Move (World ε)}
    (h : b'.moves = b.moves ++ [(who, m)]) (other : Mover) :
    b'.movesOf other = b.movesOf other ++ if who = other then [m] else [] := by
  rw [movesOf, h, List.filter_append, List.map_append]
  by_cases hwho : who = other <;> simp [hwho, movesOf]

/-! ## Everybody follows the program -/

/-- Everybody on the bench has made the moves of the program. -/
structure Tracked (d : Dispatcher ε) (lines : List ChatMessage) (b : Bench ε) : Prop where
  dispatches : b.dispatches.length = lines.length
  jobs : b.jobs.length = b.started.length
  dispatched : ∀ {i m p}, lines[i]? = some m → b.dispatches[i]? = some p →
    Traced (d.dispatch m) (b.movesOf (.dispatch i)) p
  ran : ∀ {j job p}, b.started[j]? = some job → b.jobs[j]? = some p →
    Traced (d.runJob job) (b.movesOf (.job j)) p
  movers : ∀ m ∈ b.moves,
    (∃ i, m.1 = .dispatch i ∧ i < b.dispatches.length) ∨ ∃ j, m.1 = .job j ∧ j < b.jobs.length

section Tracked

variable {d : Dispatcher ε} {lines : List ChatMessage} {b : Bench ε}

/-- At the beginning, everybody has made the moves of the program: none. -/
theorem tracked_ofLines (w : World ε) : Tracked d lines (ofLines d lines w) := by
  refine ⟨List.length_map .., rfl, ?_, ?_, ?_⟩
  · intro i m p hm hp
    rw [ofLines, List.getElem?_map, hm] at hp
    obtain rfl := Option.some_inj.1 hp
    exact .start
  · intro j job p hjob
    cases hjob
  · intro m hm
    cases hm

/-- Nobody has moved who is not on the bench. -/
theorem Tracked.movesOf_job_of_le (h : Tracked d lines b) {j : Nat} (hj : b.jobs.length ≤ j) :
    b.movesOf (.job j) = [] := by
  refine List.map_eq_nil_iff.2 (List.filter_eq_nil_iff.2 fun m hm => ?_)
  rcases h.movers m hm with ⟨i, hi, -⟩ | ⟨k, hk, hlt⟩
  · simp [hi]
  · have hne : k ≠ j := by omega
    simp [hk, hne]

/-- The move of a dispatch is one of its program. -/
theorem Tracked.moveDispatch (h : Tracked d lines b) {i : Nat} {u : World ε → World ε}
    {n : World ε → Activity ε DispatchOutcome} (hi : b.dispatches[i]? = some (.step u n)) :
    Tracked d lines (b.moveDispatch i u n) := by
  have hlt : i < b.dispatches.length := (List.getElem?_eq_some_iff.1 hi).1
  have hlength : (b.moveDispatch i u n).dispatches.length = b.dispatches.length :=
    List.length_set ..
  refine ⟨hlength.trans h.dispatches, h.jobs, ?_, ?_, ?_⟩
  · intro k m p hm hp
    rw [movesOf_moved b rfl]
    rcases getElem?_set_cases hp with ⟨rfl, rfl⟩ | ⟨hne, hp⟩
    · rw [if_pos rfl]
      exact (h.dispatched hm hi).moved b.world
    · rw [if_neg (by simpa using hne), List.append_nil]
      exact h.dispatched hm hp
  · intro j job p hjob hp
    rw [movesOf_moved b rfl, if_neg (by simp), List.append_nil]
    exact h.ran hjob hp
  · intro m hm
    rw [hlength]
    rcases List.mem_append.1 hm with hm | hm
    · exact h.movers m hm
    · rw [List.mem_singleton.1 hm]
      exact .inl ⟨i, rfl, hlt⟩

/-- The move of a job is one of its program. -/
theorem Tracked.moveJob (h : Tracked d lines b) {j : Nat} {u : World ε → World ε}
    {n : World ε → Activity ε Unit} (hj : b.jobs[j]? = some (.step u n)) :
    Tracked d lines (b.moveJob j u n) := by
  have hlt : j < b.jobs.length := (List.getElem?_eq_some_iff.1 hj).1
  have hlength : (b.moveJob j u n).jobs.length = b.jobs.length := List.length_set ..
  refine ⟨h.dispatches, hlength.trans h.jobs, ?_, ?_, ?_⟩
  · intro i m p hm hp
    rw [movesOf_moved b rfl, if_neg (by simp), List.append_nil]
    exact h.dispatched hm hp
  · intro k job p hjob hp
    rw [movesOf_moved b rfl]
    rcases getElem?_set_cases hp with ⟨rfl, rfl⟩ | ⟨hne, hp⟩
    · rw [if_pos rfl]
      exact (h.ran hjob hj).moved b.world
    · rw [if_neg (by simpa using hne), List.append_nil]
      exact h.ran hjob hp
  · intro m hm
    rw [hlength]
    rcases List.mem_append.1 hm with hm | hm
    · exact h.movers m hm
    · rw [List.mem_singleton.1 hm]
      exact .inr ⟨j, rfl, hlt⟩

/-- A job that has just been started has made none of the moves of its program. -/
theorem Tracked.startJob (h : Tracked d lines b) (job : DetachedJob) (rest : List DetachedJob) :
    Tracked d lines (b.startJob d job rest) := by
  refine ⟨h.dispatches, ?_, h.dispatched, ?_, ?_⟩
  · simp [Bench.startJob, h.jobs]
  · intro j job' p hjob hp
    rcases Nat.lt_or_ge j b.started.length with hlt | hge
    · rw [Bench.startJob, List.getElem?_append_left hlt] at hjob
      rw [Bench.startJob, List.getElem?_append_left (h.jobs ▸ hlt)] at hp
      exact h.ran hjob hp
    · -- the job that has just been started
      have hjob' : [job][j - b.started.length]? = some job' := by
        rw [← hjob]
        exact (List.getElem?_append_right hge).symm
      have hp' : [d.runJob job][j - b.jobs.length]? = some p := by
        rw [← hp]
        exact (List.getElem?_append_right (h.jobs ▸ hge)).symm
      rw [h.jobs] at hp'
      have hj : j - b.started.length = 0 := by
        have := (List.getElem?_eq_some_iff.1 hp').1
        simpa using this
      rw [hj] at hjob' hp'
      obtain rfl := Option.some_inj.1 hjob'
      obtain rfl := Option.some_inj.1 hp'
      have hnone : b.movesOf (.job j) = [] := h.movesOf_job_of_le (h.jobs ▸ hge)
      show Traced _ (b.movesOf (.job j)) _
      rw [hnone]
      exact .start
  · intro m hm
    rcases h.movers m hm with hm | ⟨j, hj, hlt⟩
    · exact .inl hm
    · refine .inr ⟨j, hj, ?_⟩
      show j < (b.jobs ++ [_]).length
      rw [List.length_append]
      omega

end Tracked

end Bench

end ChatBot
