import ChatBot.Dispatch.Rollback
import ChatBot.Proofs.Stepwise

/-!
# Scenes

A program of a dispatch works on two things: the shared state and the log of what is to be given
back. A *scene* is the two together. `Scene.play` is a program that nobody disturbs, as a function
of the scene it starts from; the lemmas here say what it does for each way in which programs of a
dispatch are put together, so that nothing else has to look into the state transformer.

`Scene.Ensures` speaks of such a run as a whole: every shared state on the way has one property,
and the answer and the scene at the end have another.
-/

set_option autoImplicit false

namespace ChatBot

/-- What a program of a dispatch works on: the shared state, and the compensations registered so
far. -/
structure Scene (ε : Type) where
  world : World ε
  log : RollbackLog ε := {}

namespace Scene

variable {ε α β : Type}

/-- The answer of a program that nobody disturbs, and the scene that it leaves. -/
def play (s : Scene ε) (p : Undoable ε α) : α × Scene ε :=
  let r := (p.run s.log).run s.world
  (r.1.1, { world := r.2, log := r.1.2 })

/-- A program that only answers leaves the scene as it is. -/
@[simp] theorem play_pure (s : Scene ε) (a : α) : s.play (pure a : Undoable ε α) = (a, s) := rfl

/-- Programs in a row: the second one starts from the scene that the first one leaves. -/
@[simp] theorem play_bind (s : Scene ε) (p : Undoable ε α) (k : α → Undoable ε β) :
    s.play (p >>= k) = (s.play p).2.play (k (s.play p).1) := by
  simp only [play, StateT.run_bind, Stepwise.bind_eq, Stepwise.run_bind]

/-- A program over the shared state alone leaves the log as it is. -/
@[simp] theorem play_lift (s : Scene ε) (p : Activity ε α) :
    s.play (StateT.lift p) =
      ((p.run s.world).1, { world := (p.run s.world).2, log := s.log }) := by
  simp only [play, StateT.run_lift, Stepwise.bind_eq, Stepwise.run_bind, Stepwise.pure_eq_done,
    Stepwise.run_done]

/-- Reading the log gives it. -/
@[simp] theorem play_get (s : Scene ε) :
    s.play (get : Undoable ε (RollbackLog ε)) = (s.log, s) := rfl

/-- Writing the log replaces it. -/
@[simp] theorem play_set (s : Scene ε) (l : RollbackLog ε) :
    s.play (set l : Undoable ε Unit) = ((), { s with log := l }) := rfl

/-- Throwing the log away tells how many compensations were in it. -/
@[simp] theorem play_discard (s : Scene ε) :
    s.play RollbackLog.discard = (s.log.entries.length, { s with log := {} }) := rfl

/-- From the scene `s`, every shared state on the way through `p` has `P`, and its answer and the
scene that it leaves have `Q`. -/
def Ensures (s : Scene ε) (P : World ε → Prop) (p : Undoable ε α) (Q : α → Scene ε → Prop) : Prop :=
  (p.run s.log).Throughout P s.world ∧ Q (s.play p).1 (s.play p).2

section Ensures

variable {s : Scene ε} {P : World ε → Prop} {Q R : α → Scene ε → Prop}

/-- A program that does nothing stays where it is. -/
theorem ensures_pure {a : α} (hs : P s.world) (h : Q a s) :
    s.Ensures P (pure a : Undoable ε α) Q :=
  ⟨hs, h⟩

/-- Registering a compensation changes the log alone. -/
theorem ensures_register {e : RollbackEntry ε} {T : Unit → Scene ε → Prop} (hs : P s.world)
    (h : T () { s with log := s.log.add e }) : s.Ensures P (RollbackLog.register e) T :=
  ⟨hs, h⟩

/-- What is ensured of a program may be said more weakly. -/
theorem Ensures.mono {p : Undoable ε α} (h : s.Ensures P p R) (hRQ : ∀ a s', R a s' → Q a s') :
    s.Ensures P p Q :=
  ⟨h.1, hRQ _ _ h.2⟩

/-- Programs in a row: the second one may rely on what the first one ensures. -/
theorem Ensures.bind {p : Undoable ε α} {k : α → Undoable ε β} {T : β → Scene ε → Prop}
    (h : s.Ensures P p R) (hk : ∀ a s', R a s' → s'.Ensures P (k a) T) :
    s.Ensures P (p >>= k) T := by
  obtain ⟨hp, hR⟩ := h
  obtain ⟨hthrough, hT⟩ := hk _ _ hR
  refine ⟨?_, ?_⟩
  · rw [StateT.run_bind, Stepwise.bind_eq]
    exact hp.bind hthrough
  · rw [play_bind]
    exact hT

/-- A program over the shared state alone leaves the log as it is. -/
theorem ensures_lift {p : Activity ε α} (h : p.Throughout P s.world)
    (hQ : Q (p.run s.world).1 ⟨(p.run s.world).2, s.log⟩) :
    s.Ensures P (StateT.lift p) Q := by
  refine ⟨?_, ?_⟩
  · rw [StateT.run_lift, Stepwise.bind_eq]
    exact h.bind h.last
  · rw [play_lift]
    exact hQ

/-- A replay carries out what is pending, the latest first, and empties the log. -/
theorem ensures_replay {T : Nat → Scene ε → Prop}
    (h : (RollbackLog.carryOut s.log.entries.reverse).Throughout P s.world)
    (hT : T s.log.entries.length
      ⟨((RollbackLog.carryOut s.log.entries.reverse).run s.world).2, {}⟩) :
    s.Ensures P RollbackLog.replay T := by
  unfold RollbackLog.replay
  refine Ensures.bind (R := fun l s' => l = s.log ∧ s' = s) ⟨h.start, rfl, rfl⟩ ?_
  rintro _ _ ⟨rfl, rfl⟩
  refine Ensures.bind (R := fun _ s' => s' = ⟨_, {}⟩) ⟨h.start, rfl⟩ ?_
  rintro _ _ rfl
  refine Ensures.bind (R := fun _ s' => s' = ⟨_, {}⟩) (ensures_lift h rfl) ?_
  rintro _ _ rfl
  exact ensures_pure h.last hT

end Ensures

end Scene

end ChatBot
