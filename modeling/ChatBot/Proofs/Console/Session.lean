import ChatBot.Console
import ChatBot.Proofs.Interleaving

/-!
# Sessions at the console

The lines of a session are read one after the other, and the sender of each is welcomed before the
next one is read; but nobody waits for the dispatch of a line before reading on. A session holds the
lines that are still to be read, the welcome that is under way, and the dispatches; a list of turns
says who goes on next. From every point a session can be brought to its end (`exists_finished`).
-/

set_option autoImplicit false

namespace ChatBot.Console

open Stepwise

/-- A bot that reads on while the dispatches of earlier lines are on their way. -/
structure Session where
  /-- The lines that have not been read yet. -/
  lines : List String
  /-- The message that was read last, until its sender has been welcomed, and what is left of the
  welcome. -/
  entering : Option (ChatMessage × Activity Unit Unit) := none
  dispatches : List (Activity Unit DispatchOutcome) := []
  world : World Unit

/-- Whose turn it is. -/
inductive Turn where
  /-- Reads a line, goes on with a welcome, or starts the dispatch of whoever was welcomed. -/
  | reader
  | dispatch (i : Nat)

namespace Session

/-- A session before its first line. -/
def ofLines (c : Console) (lines : List String) : Session where
  lines := lines
  world := c.world

/-- The reader goes on. -/
def read (d : Dispatcher Unit) (s : Session) : Session :=
  match s.entering with
  | some (m, .step u n) => { s with entering := some (m, n s.world), world := u s.world }
  | some (m, .done ()) => { s with entering := none, dispatches := s.dispatches ++ [d.dispatch m] }
  | none =>
    match s.lines with
    | [] => s
    | line :: rest =>
      { s with
        lines := rest
        entering := (message? line).map fun m => (m, welcome m.sender) }

/-- Takes a turn: the reader or a dispatch goes on. -/
def take (d : Dispatcher Unit) (s : Session) : Turn → Session
  | .reader => s.read d
  | .dispatch i =>
    { s with
      dispatches := (advance i s.dispatches s.world).1
      world := (advance i s.dispatches s.world).2 }

/-- Takes turns, one after the other. -/
def play (d : Dispatcher Unit) (s : Session) (turns : List Turn) : Session :=
  turns.foldl (take d) s

/-- Turns are taken one list after the other. -/
theorem play_append (d : Dispatcher Unit) (s : Session) (turns more : List Turn) :
    s.play d (turns ++ more) = (s.play d turns).play d more :=
  List.foldl_append

/-- All lines have been read, and all dispatches have come to their end. -/
structure Finished (s : Session) : Prop where
  lines : s.lines = []
  entering : s.entering = none
  dispatches : ∀ p ∈ s.dispatches, ∃ outcome, p = .done outcome

/-! ## Coming to an end -/

/-- One session comes to another by some turns. -/
def Leads (d : Dispatcher Unit) (s s' : Session) : Prop :=
  ∃ turns, s.play d turns = s'

section Leads

variable {d : Dispatcher Unit} {s s' s'' : Session}

/-- A session comes to itself by no turns. -/
theorem leads_refl (s : Session) : Leads d s s := ⟨[], rfl⟩

/-- A session comes on by further turns. -/
theorem Leads.trans (h : Leads d s s') (h' : Leads d s' s'') : Leads d s s'' := by
  obtain ⟨turns, rfl⟩ := h
  obtain ⟨more, rfl⟩ := h'
  exact ⟨turns ++ more, play_append d s turns more⟩

/-- A session comes on by one turn. -/
theorem leads_take (s : Session) (turn : Turn) : Leads d s (s.take d turn) := ⟨[turn], rfl⟩

/-- A welcome goes on to its end if the reader always has the turn. -/
theorem leads_welcomed {m : ChatMessage} (p : Activity Unit Unit)
    (h : s.entering = some (m, p)) :
    Leads d s { s with entering := some (m, .done ()), world := (p.run s.world).2 } := by
  induction p generalizing s with
  | done a =>
    obtain ⟨lines, entering, dispatches, world⟩ := s
    obtain rfl := h
    exact leads_refl _
  | step u n ih =>
    have hnext : s.take d .reader =
        { s with entering := some (m, n s.world), world := u s.world } := by
      simp only [take, read, h]
    refine (leads_take s .reader).trans ?_
    rw [hnext]
    exact ih s.world rfl

/-- So does a dispatch. -/
theorem leads_dispatched {i : Nat} (p : Activity Unit DispatchOutcome)
    (h : s.dispatches[i]? = some p) :
    Leads d s
      { s with
        dispatches := s.dispatches.set i (.done (p.run s.world).1)
        world := (p.run s.world).2 } := by
  induction p generalizing s with
  | done a =>
    obtain ⟨hlt, hi⟩ := List.getElem?_eq_some_iff.1 h
    have hs : s.dispatches.set i (.done a) = s.dispatches := by
      rw [← hi, List.set_getElem_self]
    rw [run_done, hs]
    exact leads_refl s
  | step u n ih =>
    have hlt := (List.getElem?_eq_some_iff.1 h).1
    have hnext : s.take d (.dispatch i) =
        { s with dispatches := s.dispatches.set i (n s.world), world := u s.world } := by
      simp only [take, advance_of_step h]
    have hi : (s.take d (.dispatch i)).dispatches[i]? = some (n s.world) := by
      rw [hnext, List.getElem?_set_self hlt]
    have hrest := ih s.world hi
    rw [hnext, List.set_set] at hrest
    exact (hnext ▸ leads_take s (.dispatch i)).trans hrest

/-- When nobody is at the door, the reader takes the next line, and its sender to the door if it is
a message. -/
theorem leads_read {line : String} {rest : List String} (h : s.lines = line :: rest)
    (hentering : s.entering = none) :
    Leads d s { s with
      lines := rest
      entering := (message? line).map fun m => (m, welcome m.sender) } := by
  have hnext := leads_take (d := d) s .reader
  simp only [take, read, hentering, h] at hnext
  exact hnext

/-- The reader alone may take a line to the start of its dispatch. -/
theorem leads_started {line : String} {rest : List String} {m : ChatMessage}
    (h : s.lines = line :: rest) (hentering : s.entering = none) (hm : message? line = some m) :
    Leads d s { s with
      lines := rest
      dispatches := s.dispatches ++ [d.dispatch m]
      world := ((welcome m.sender).run s.world).2 } := by
  have hread := leads_read (d := d) h hentering
  rw [hm] at hread
  have hwelcomed := hread.trans (leads_welcomed (welcome m.sender) rfl)
  rw [hentering]
  exact hwelcomed.trans (leads_take _ .reader)

/-- A session in which nobody is at the door can come to the end of its lines. -/
theorem exists_read (lines : List String) (h : s.lines = lines) (hentering : s.entering = none) :
    ∃ s', Leads d s s' ∧ s'.lines = [] ∧ s'.entering = none := by
  induction lines generalizing s with
  | nil => exact ⟨s, leads_refl s, h, hentering⟩
  | cons line rest ih =>
    cases hm : message? line with
    | none =>
      have hread := leads_read (d := d) h hentering
      rw [hm] at hread
      obtain ⟨s', hs', hend⟩ := ih (s := { s with lines := rest, entering := none }) rfl rfl
      exact ⟨s', hread.trans hs', hend⟩
    | some m =>
      have hstarted := leads_started (d := d) h hentering hm
      obtain ⟨s', hs', hend⟩ := ih (s := { s with
        lines := rest
        dispatches := s.dispatches ++ [d.dispatch m]
        world := ((welcome m.sender).run s.world).2 }) rfl hentering
      exact ⟨s', hstarted.trans hs', hend⟩

/-- A session can always be brought to its end. -/
theorem exists_finished (s : Session) : ∃ s', Leads d s s' ∧ s'.Finished := by
  have hidle : ∃ s₁, Leads d s s₁ ∧ s₁.entering = none := by
    cases h : s.entering with
    | none => exact ⟨s, leads_refl s, h⟩
    | some e =>
      exact ⟨_, (leads_welcomed e.2 h).trans (leads_take _ .reader), rfl⟩
  obtain ⟨s₁, hs₁, hentering⟩ := hidle
  obtain ⟨s₂, hs₂, hlines, hentering⟩ := exists_read (d := d) s₁.lines rfl hentering
  let Read := { s : Session // s.lines = [] ∧ s.entering = none }
  obtain ⟨⟨s₃, hlines, hentering⟩, hs₃, hdispatches⟩ := exists_all_ended (S := Read)
    (R := fun s s' => Leads d s.1 s'.1) (f := fun s => s.1.dispatches)
    (E := fun p => ∃ outcome, p = .done outcome) (fun s => leads_refl s.1)
    (fun h h' => h.trans h')
    (fun ⟨s, hlines, hentering⟩ i p hi =>
      ⟨⟨{ s with
          dispatches := s.dispatches.set i (.done (p.run s.world).1)
          world := (p.run s.world).2 }, hlines, hentering⟩,
        _, leads_dispatched p hi, ⟨_, rfl⟩, rfl⟩)
    ⟨s₂, hlines, hentering⟩
  exact ⟨s₃, (hs₁.trans hs₂).trans hs₃, hlines, hentering, hdispatches⟩

end Leads

end Session

end ChatBot.Console
