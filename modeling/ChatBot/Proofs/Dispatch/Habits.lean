import ChatBot.Dispatch.Dispatcher
import ChatBot.Proofs.Traces

/-!
# Habits of a dispatch

A *habit* is a property of programs that a row of programs has if each of them has it: that every
step goes from one kind of state to another, or that the program goes the same way from states that
are alike. A dispatch is made of a dozen programs of the dispatcher itself, of the awaited handlers
of the line, and of the compensations that these register. If all of them have a habit, so does the
dispatch (`Accustomed.dispatch`). The compensations in the log may have a stricter one (`L`).
-/

set_option autoImplicit false

namespace ChatBot

open Stepwise

variable {ε : Type}

/-- A property that passes from programs to programs in a row. -/
structure Habit (P : (α : Type) → Activity ε α → Prop) : Prop where
  done : ∀ {α : Type} (a : α), P α (.done a)
  bind : ∀ {α β : Type} {Q : α → Prop} {p : Activity ε α} {k : α → Activity ε β},
    P α p → p.Yields Q → (∀ a, Q a → P β (k a)) → P β (p.bind k)

/-- It is a habit to take steps of a kind only. -/
theorem habit_each (R : World ε → World ε → Prop) : Habit fun _ p => p.Each R :=
  ⟨each_done, each_bind⟩

/-- It is a habit to treat related states alike. -/
theorem habit_respects (R : World ε → World ε → Prop) : Habit fun _ p => p.Respects R :=
  ⟨respects_done, respects_bind_of_yields⟩

/-- It is a habit to leave a part of the state. -/
theorem habit_keeps {γ : Type} (f : World ε → γ) : Habit fun _ p => p.Keeps f :=
  ⟨keeps_done, fun hp hQ hk => (each_bind hp.each hQ fun a ha => (hk a ha).each).keeps⟩

/-- All compensations of a log have a property. -/
def RollbackLog.Within (L : Activity ε Bool → Prop) (l : RollbackLog ε) : Prop :=
  ∀ e ∈ l.entries, L e.compensation

/-- With a log of compensations that have `L`, the program has the habit `P`, and all that it
registers has `L`. -/
def Undoable.Within (P : (α : Type) → Activity ε α → Prop) (L : Activity ε Bool → Prop) {α : Type}
    (p : Undoable ε α) : Prop :=
  ∀ l : RollbackLog ε, l.Within L → P _ (p.run l) ∧ (p.run l).Yields fun r => r.2.Within L

section Within

variable {P : (α : Type) → Activity ε α → Prop} {L : Activity ε Bool → Prop} {α β : Type}

/-- A program that has a habit has any habit that follows from it. -/
theorem Undoable.Within.mono {P' : (α : Type) → Activity ε α → Prop} {p : Undoable ε α}
    (h : p.Within P L) (hP : ∀ {α : Type} {p : Activity ε α}, P α p → P' α p) : p.Within P' L :=
  fun l hl => ⟨hP (h l hl).1, (h l hl).2⟩

/-- A program that does nothing has every habit. -/
theorem Habit.within_pure (H : Habit P) (a : α) : Undoable.Within P L (pure a : Undoable ε α) :=
  fun _ hl => ⟨H.done _, hl⟩

/-- Programs in a row have the habit that each of them has. -/
theorem Habit.within_bind (H : Habit P) {p : Undoable ε α} {k : α → Undoable ε β}
    (hp : Undoable.Within P L p) (hk : ∀ a, Undoable.Within P L (k a)) :
    Undoable.Within P L (p >>= k) := by
  intro l hl
  obtain ⟨hhabit, hyields⟩ := hp l hl
  rw [StateT.run_bind]
  exact ⟨H.bind hhabit hyields fun r hr => (hk r.1 r.2 hr).1,
    yields_bind hyields fun r hr => (hk r.1 r.2 hr).2⟩

/-- A program over the shared state alone has its habit beside any log. -/
theorem Habit.within_lift (H : Habit P) {p : Activity ε α} (hp : P α p) :
    Undoable.Within P L (StateT.lift p : Undoable ε α) := by
  intro l hl
  rw [StateT.run_lift]
  exact ⟨H.bind hp (yields_true p) fun _ _ => H.done _, yields_bind (yields_true p) fun _ _ => hl⟩

/-- An empty log has no compensation without the property. -/
theorem RollbackLog.within_empty : ({} : RollbackLog ε).Within L := by
  simp [Within]

/-- Registering a compensation that has the property has every habit. -/
theorem Habit.within_register (H : Habit P) {e : RollbackEntry ε} (he : L e.compensation) :
    Undoable.Within P L (RollbackLog.register e) := by
  refine fun l hl => ⟨H.done _, fun f hf => ?_⟩
  rcases List.mem_append.1 hf with hf | hf
  · exact hl f (List.mem_filter.1 hf).1
  · rwa [List.mem_singleton.1 hf]

/-- Throwing the log away has every habit. -/
theorem Habit.within_discard (H : Habit P) :
    Undoable.Within P L (RollbackLog.discard : Undoable ε Nat) :=
  fun _ _ => ⟨H.done _, RollbackLog.within_empty⟩

/-- Compensations that have the habit are carried out in keeping with it. -/
theorem Habit.carryOut (H : Habit P) (hcount : P Unit (World.count .rollbackReplayed))
    {entries : List (RollbackEntry ε)} (h : ∀ e ∈ entries, P Bool e.compensation) :
    P Unit (RollbackLog.carryOut entries) := by
  induction entries with
  | nil => exact H.done ()
  | cons e rest ih =>
    obtain ⟨he, hrest⟩ := List.forall_mem_cons.1 h
    refine H.bind he (yields_true _) fun worked _ => ?_
    cases worked with
    | true => exact H.bind hcount (yields_true _) fun _ _ => ih hrest
    | false => exact ih hrest

/-- A log of compensations that have the habit is replayed in keeping with it. -/
theorem Habit.within_replay (H : Habit P) (hL : ∀ c, L c → P Bool c)
    (hcount : P Unit (World.count .rollbackReplayed)) :
    Undoable.Within P L (RollbackLog.replay : Undoable ε Nat) := by
  intro l hl
  have hentries : ∀ e ∈ l.entries.reverse, P Bool e.compensation :=
    fun e he => hL _ (hl e (List.mem_reverse.1 he))
  have hcarry := H.carryOut hcount hentries
  have hrun : (RollbackLog.replay : Undoable ε Nat).run l =
      (RollbackLog.carryOut l.entries.reverse).bind fun _ => .done (l.entries.length, {}) := by
    unfold RollbackLog.replay
    simp only [StateT.run_bind, StateT.run_get, StateT.run_set, StateT.run_lift, bind_eq,
      pure_eq_done, Stepwise.bind, bind_assoc, StateT.run_pure]
  rw [hrun]
  exact ⟨H.bind hcarry (yields_true _) fun _ _ => H.done _,
    yields_bind (yields_true _) fun _ _ => RollbackLog.within_empty⟩

end Within

namespace Dispatcher

/-- The programs that the dispatch of a line is made of have the habit. -/
structure Accustomed (d : Dispatcher ε) (m : ChatMessage)
    (P : (α : Type) → Activity ε α → Prop) (L : Activity ε Bool → Prop) : Prop where
  stricter : ∀ c, L c → P Bool c
  ignored : P _ (World.isIgnored m.sender)
  moderated : P _ (World.isModerated m)
  found : P _ (World.findUser m.sender.id)
  opened : ∀ caps, P _ (World.openCache (.ofSender caps))
  known : ∀ cache, P _ (World.readCache cache)
  checked : ∀ cache required, P _ (checkPermission d.owners cache m.sender.id required)
  queued : ∀ p ∈ d.registry.plan m.text, p.registration.mode = .fireAndForget → ∀ caps cache,
    P _ (enqueue ⟨p.index, invocation m caps cache p, m.quiet⟩)
  failed : ∀ reason, P _ (countFailure reason)
  repaid : P _ (World.count .rollbackReplayed)
  delivered : ∀ response, P _ (World.deliver response)
  answered : ∀ n, P _ (Stepwise.change fun w =>
    { w with stats := { w.stats with responsesDelivered := w.stats.responsesDelivered + n } })
  concluded : ∀ state responses, P _ (finish state responses)
  handlers : ∀ p ∈ d.registry.plan m.text, p.registration.mode = .awaited → ∀ i,
    Undoable.Within P L (p.registration.handler i)

namespace Accustomed

variable {P : (α : Type) → Activity ε α → Prop} {L : Activity ε Bool → Prop} {d : Dispatcher ε}
  {m : ChatMessage}

/-- Stopping a line keeps the habit. -/
theorem stop (h : d.Accustomed m P L) (H : Habit P) (reason : FailureReason)
    (earlier own : List OutboundMessage) :
    Undoable.Within P L (Dispatcher.stop reason earlier own : Undoable ε _) := by
  refine H.within_bind (H.within_lift (h.failed reason)) fun _ => ?_
  refine H.within_bind (H.within_replay h.stricter h.repaid) fun n => ?_
  split <;> exact H.within_pure _

/-- Delivering responses keeps the habit. -/
theorem deliverAll (h : d.Accustomed m P L) (H : Habit P) (responses : List OutboundMessage) :
    P _ (Dispatcher.deliverAll responses) := by
  induction responses with
  | nil => exact H.done ()
  | cons r rest ih => exact H.bind (h.delivered r) (yields_true _) fun _ _ => ih

/-- Running planned handlers keeps the habit. -/
theorem runPlan (h : d.Accustomed m P L) (H : Habit P) (caps : Capabilities) (cache : Nat)
    (skipping : Bool) (responses : List OutboundMessage) {plan : List (Planned ε)}
    (hplan : ∀ p ∈ plan, p ∈ d.registry.plan m.text) :
    Undoable.Within P L (Dispatcher.runPlan d m caps cache skipping responses plan) := by
  induction plan generalizing responses with
  | nil => exact H.within_pure _
  | cons p rest ih =>
    obtain ⟨hp, hrest⟩ := List.forall_mem_cons.1 hplan
    unfold Dispatcher.runPlan
    split
    · exact ih responses hrest
    · refine H.within_bind (H.within_lift (h.checked cache _)) fun permitted => ?_
      split
      · next hmode =>
        have hqueue := H.within_lift (L := L) (h.queued p hp hmode caps cache)
        cases permitted with
        | true => exact H.within_bind hqueue fun _ => ih responses hrest
        | false => exact ih responses hrest
      · next hmode =>
        cases permitted with
        | false => exact h.stop H .permission responses []
        | true =>
          refine H.within_bind (h.handlers p hp hmode _) fun verdict => ?_
          cases verdict with
          | allowed own => exact ih (responses ++ own) hrest
          | denied own => exact h.stop H .denied responses own
          | error => exact h.stop H .error responses []
          | panic => exact h.stop H .panic responses []

/-- Handling a line keeps the habit. -/
theorem conduct (h : d.Accustomed m P L) (H : Habit P) :
    Undoable.Within P L (Dispatcher.conduct d m) := by
  have hfinish (state : DispatchState) (responses : List OutboundMessage) :=
    H.within_lift (L := L) (h.concluded state responses)
  unfold Dispatcher.conduct
  refine H.within_bind (H.within_lift h.ignored) fun ignored => ?_
  split
  · exact hfinish .ignored []
  · refine H.within_bind (H.within_lift h.moderated) fun moderated => ?_
    split
    · exact hfinish .moderated []
    · refine H.within_bind (H.within_lift h.found) fun record => ?_
      refine H.within_bind (H.within_lift (h.opened _)) fun cache => ?_
      refine H.within_bind (H.within_lift (h.known cache)) fun known => ?_
      refine H.within_bind (h.runPlan H _ _ _ _ fun _ hp => hp) fun result => ?_
      refine H.within_bind H.within_discard fun _ => ?_
      split
      · exact hfinish _ _
      · refine H.within_bind (H.within_lift (h.deliverAll H _)) fun _ => ?_
        exact H.within_bind (H.within_lift (h.answered _)) fun _ => hfinish _ _

/-- A whole dispatch keeps the habit that the programs in it have. -/
theorem dispatch (h : d.Accustomed m P L) (H : Habit P) : P _ (d.dispatch m) := by
  obtain ⟨hhabit, -⟩ := h.conduct H {} RollbackLog.within_empty
  exact H.bind hhabit (yields_true _) fun _ _ => H.done _

end Accustomed

end Dispatcher

end ChatBot
