import ChatBot.Stepwise

/-!
# What all steps of a program have in common

Properties that speak of every step and not only of the end. A program *keeps* a view of the
state if none of its steps changes it, whatever state the step finds (`Stepwise.Keeps`): then it
keeps the view however other programs come in between. A property holds *throughout* a run if
every state that the run passes through has it (`Stepwise.Throughout`).

Both go through `bind`, so a program is taken apart along its text; `Keeps.run` and
`Keeps.throughout` are what a kept view is good for.

A third one compares two runs. A program *respects* a relation between states if from related states
it goes the same way, through states that are related again (`Stepwise.Respects`).
-/

set_option autoImplicit false

namespace ChatBot.Stepwise

variable {σ α β γ δ : Type}

/-- No step of the program changes the view `f` of the state. -/
def Keeps (f : σ → γ) : Stepwise σ α → Prop
  | done _ => True
  | step u n => ∀ s, f (u s) = f s ∧ (n s).Keeps f

/-- Every state that an undisturbed run passes through has the property, the first and the last
one included. -/
def Throughout (P : σ → Prop) : Stepwise σ α → σ → Prop
  | done _, s => P s
  | step u n, s => P s ∧ (n s).Throughout P (u s)

section Keeps

variable {f : σ → γ}

/-- A program that has ended changes no view. -/
theorem keeps_done (a : α) : (done a : Stepwise σ α).Keeps f := trivial

/-- Programs in a row keep what each of them keeps. -/
theorem keeps_bind {p : Stepwise σ α} {k : α → Stepwise σ β} (hp : p.Keeps f)
    (hk : ∀ a, (k a).Keeps f) : (p.bind k).Keeps f := by
  induction p with
  | done a => exact hk a
  | step u n ih =>
    intro s
    obtain ⟨hu, hn⟩ := hp s
    exact ⟨hu, ih s hn⟩

/-- A single step keeps the views that it does not change. -/
theorem keeps_act {g : σ → α × σ} (h : ∀ s, f (g s).2 = f s) : (act g).Keeps f :=
  fun s => ⟨h s, trivial⟩

/-- Reading keeps every view. -/
theorem keeps_read (g : σ → α) : (read g).Keeps f :=
  fun _ => ⟨rfl, trivial⟩

/-- A change of the state keeps the views that it does not change. -/
theorem keeps_change {u : σ → σ} (h : ∀ s, f (u s) = f s) : (change u).Keeps f :=
  fun s => ⟨h s, trivial⟩

/-- An undisturbed run keeps what every step keeps. -/
theorem Keeps.run {p : Stepwise σ α} (h : p.Keeps f) (s : σ) : f (p.run s).2 = f s := by
  induction p generalizing s with
  | done a => rfl
  | step u n ih =>
    obtain ⟨hu, hn⟩ := h s
    rw [Stepwise.run, ih s hn, hu]

/-- A program that keeps a view keeps everything that can be told from the view. -/
theorem Keeps.comp {p : Stepwise σ α} (h : p.Keeps f) (g : γ → δ) : p.Keeps fun s => g (f s) := by
  induction p with
  | done a => trivial
  | step u n ih =>
    intro s
    obtain ⟨hu, hn⟩ := h s
    exact ⟨congrArg g hu, ih s hn⟩

/-- A property that can be told from a kept view holds throughout if it holds at the start. -/
theorem Keeps.throughout {p : Stepwise σ α} (h : p.Keeps f) {P : σ → Prop}
    (hP : ∀ s s', f s' = f s → P s → P s') {s : σ} (hs : P s) : p.Throughout P s := by
  induction p generalizing s with
  | done a => exact hs
  | step u n ih =>
    obtain ⟨hu, hn⟩ := h s
    exact ⟨hs, ih s hn (hP s (u s) hu hs)⟩

end Keeps

section Throughout

variable {P Q : σ → Prop}

/-- What holds throughout a run holds at its start. -/
theorem Throughout.start {p : Stepwise σ α} {s : σ} (h : p.Throughout P s) : P s := by
  cases p with
  | done a => exact h
  | step u n => exact h.1

/-- What holds throughout a run holds at its end. -/
theorem Throughout.last {p : Stepwise σ α} {s : σ} (h : p.Throughout P s) : P (p.run s).2 := by
  induction p generalizing s with
  | done a => exact h
  | step u n ih => exact ih s h.2

/-- What holds throughout two runs in a row holds throughout the whole. -/
theorem Throughout.bind {p : Stepwise σ α} {k : α → Stepwise σ β} {s : σ} (hp : p.Throughout P s)
    (hk : (k (p.run s).1).Throughout P (p.run s).2) : (p.bind k).Throughout P s := by
  induction p generalizing s with
  | done a => exact hk
  | step u n ih => exact ⟨hp.1, ih s hp.2 hk⟩

/-- What follows from what holds throughout a run holds throughout it. -/
theorem Throughout.mono {p : Stepwise σ α} {s : σ} (h : p.Throughout P s) (hPQ : ∀ s, P s → Q s) :
    p.Throughout Q s := by
  induction p generalizing s with
  | done a => exact hPQ s h
  | step u n ih => exact ⟨hPQ s h.1, ih s h.2⟩

end Throughout

/-- From related states every step leads to related states and goes on in the same way. -/
def Respects (R : σ → σ → Prop) : Stepwise σ α → Prop
  | done _ => True
  | step u n => ∀ s s', R s s' → R (u s) (u s') ∧ n s = n s' ∧ (n s).Respects R

section Respects

variable {R : σ → σ → Prop}

/-- A program that has ended respects every relation. -/
theorem respects_done (a : α) : (done a : Stepwise σ α).Respects R := trivial

/-- Programs in a row respect what each of them respects. -/
theorem respects_bind {p : Stepwise σ α} {k : α → Stepwise σ β} (hp : p.Respects R)
    (hk : ∀ a, (k a).Respects R) : (p.bind k).Respects R := by
  induction p with
  | done a => exact hk a
  | step u n ih =>
    intro s s' h
    obtain ⟨hu, hsame, hn⟩ := hp s s' h
    exact ⟨hu, congrArg (Stepwise.bind · k) hsame, ih s hn⟩

/-- A single step respects the relations that it preserves, if its answer is the same. -/
theorem respects_act {g : σ → α × σ}
    (h : ∀ s s', R s s' → (g s).1 = (g s').1 ∧ R (g s).2 (g s').2) : (act g).Respects R := by
  intro s s' hs
  obtain ⟨hanswer, hstate⟩ := h s s' hs
  exact ⟨hstate, congrArg done hanswer, trivial⟩

/-- Reading respects the relations under which it reads the same. -/
theorem respects_read {g : σ → α} (h : ∀ s s', R s s' → g s = g s') : (read g).Respects R :=
  fun s s' hs => ⟨hs, congrArg done (h s s' hs), trivial⟩

/-- A change of the state respects the relations that it preserves. -/
theorem respects_change {u : σ → σ} (h : ∀ s s', R s s' → R (u s) (u s')) :
    (change u).Respects R :=
  fun s s' hs => ⟨h s s' hs, rfl, trivial⟩

/-- Undisturbed runs from related states have the same answer, and end in related states. -/
theorem Respects.run {p : Stepwise σ α} (h : p.Respects R) {s s' : σ} (hs : R s s') :
    (p.run s).1 = (p.run s').1 ∧ R (p.run s).2 (p.run s').2 := by
  induction p generalizing s s' with
  | done a => exact ⟨rfl, hs⟩
  | step u n ih =>
    obtain ⟨hu, hsame, hn⟩ := h s s' hs
    rw [Stepwise.run, Stepwise.run, ← hsame]
    exact ih s hn hu

end Respects

end ChatBot.Stepwise
