import ChatBot.Proofs.Traces

/-!
# Programs that go through phases

A program among others may rely on an invariant of the shared state, and has to keep it. What it has
done so far is told by a *phase*: every step either leaves the phase or takes the program to another
one, and a relation says what a step may do to the state on the way from phase to phase
(`Stepwise.Phased`). Programs in a row go through the phases of the first one and then through those
of the second one (`phased_bind`).
-/

set_option autoImplicit false

namespace ChatBot.Stepwise

variable {σ Φ α β : Type} {I : σ → Prop} {T : Φ → σ → σ → Φ → Prop} {ph : Φ}

/-- In any state that has `I` a step keeps `I` and goes to some phase as `T` says; what the program
ends with, and the phase that it ends in, have `Q`. -/
def Phased (I : σ → Prop) (T : Φ → σ → σ → Φ → Prop) (Q : Φ → α → Prop) :
    Stepwise σ α → Φ → Prop
  | done a, ph => Q ph a
  | step u n, ph => ∀ s, I s → I (u s) ∧ ∃ ph', T ph s (u s) ph' ∧ (n s).Phased I T Q ph'

/-- Programs in a row: the second goes on from the phase that the first ends in. -/
theorem phased_bind {Q : Φ → α → Prop} {Q' : Φ → β → Prop} {p : Stepwise σ α}
    {k : α → Stepwise σ β} (hp : p.Phased I T Q ph)
    (hk : ∀ ph' a, Q ph' a → (k a).Phased I T Q' ph') : (p.bind k).Phased I T Q' ph := by
  induction p generalizing ph with
  | done a => exact hk ph a hp
  | step u n ih =>
    intro s hs
    obtain ⟨hI, ph', hT, hn⟩ := hp s hs
    exact ⟨hI, ph', hT, ih s hn⟩

/-- What a program ends with may be said more weakly. -/
theorem Phased.mono {Q Q' : Φ → α → Prop} {p : Stepwise σ α} (h : p.Phased I T Q ph)
    (hQ : ∀ ph' a, Q ph' a → Q' ph' a) : p.Phased I T Q' ph := by
  induction p generalizing ph with
  | done a => exact hQ ph a h
  | step u n ih =>
    intro s hs
    obtain ⟨hI, ph', hT, hn⟩ := h s hs
    exact ⟨hI, ph', hT, ih s hn⟩

/-- A single step is from one phase to another. -/
theorem phased_act {Q : Φ → α → Prop} {g : σ → α × σ}
    (h : ∀ s, I s → I (g s).2 ∧ ∃ ph', T ph s (g s).2 ph' ∧ Q ph' (g s).1) :
    (act g).Phased I T Q ph := h

/-- A change of the state is from one phase to another. -/
theorem phased_change {Q : Φ → Unit → Prop} {u : σ → σ}
    (h : ∀ s, I s → I (u s) ∧ ∃ ph', T ph s (u s) ph' ∧ Q ph' ()) :
    (change u).Phased I T Q ph := h

/-- A program none of whose steps leaves the phase. -/
theorem phased_of_each {Q : α → Prop} {p : Stepwise σ α}
    (h : p.Each fun s s' => I s → I s' ∧ T ph s s' ph) (hQ : p.Yields Q) :
    p.Phased I T (fun ph' a => ph' = ph ∧ Q a) ph := by
  induction p with
  | done a => exact ⟨rfl, hQ⟩
  | step u n ih =>
    intro s hs
    obtain ⟨hI, hT⟩ := (h s).1 hs
    exact ⟨hI, ph, hT, ih s (h s).2 (hQ s)⟩

end ChatBot.Stepwise
