import ChatBot.Proofs.Stepwise

/-!
# Programs and the moves they have made

A program that shares its state with others finds at each of its steps a state that others may have
left. Its *moves* are the states that it has found and left so far; they determine what is left of
the program (`Stepwise.Traced`). What holds of every step of a program holds of all of its moves
(`Each`), and the moves of programs in a row are those of the first one and then those of the second
one (`Traced.of_bind`).
-/

set_option autoImplicit false

namespace ChatBot.Stepwise

variable {σ α β : Type}

/-- Every step goes from the state that it finds to one that stands in the relation to it. -/
def Each (P : σ → σ → Prop) : Stepwise σ α → Prop
  | done _ => True
  | step u n => ∀ s, P s (u s) ∧ (n s).Each P

/-- Whatever the program finds on its way, what it ends with has the property. -/
def Yields (Q : α → Prop) : Stepwise σ α → Prop
  | done a => Q a
  | step _ n => ∀ s, (n s).Yields Q

section Each

variable {P P' : σ → σ → Prop}

/-- A view that no step changes is the same behind each step. -/
theorem Keeps.each {γ : Type} {f : σ → γ} {p : Stepwise σ α} (h : p.Keeps f) :
    p.Each fun s s' => f s' = f s := by
  induction p with
  | done a => trivial
  | step u n ih => exact fun s => ⟨(h s).1, ih s (h s).2⟩

/-- A view that is the same behind each step is kept. -/
theorem Each.keeps {γ : Type} {f : σ → γ} {p : Stepwise σ α}
    (h : p.Each fun s s' => f s' = f s) : p.Keeps f := by
  induction p with
  | done a => trivial
  | step u n ih => exact fun s => ⟨(h s).1, ih s (h s).2⟩

/-- What follows of each step follows of the program. -/
theorem Each.mono {p : Stepwise σ α} (h : p.Each P) (hP : ∀ s s', P s s' → P' s s') :
    p.Each P' := by
  induction p with
  | done a => trivial
  | step u n ih => exact fun s => ⟨hP s (u s) (h s).1, ih s (h s).2⟩

/-- A program that has ended makes no steps. -/
theorem each_done (a : α) : (done a : Stepwise σ α).Each P := trivial

/-- Programs in a row make the steps that each of them makes. -/
theorem each_bind {Q : α → Prop} {p : Stepwise σ α} {k : α → Stepwise σ β} (hp : p.Each P)
    (hQ : p.Yields Q) (hk : ∀ a, Q a → (k a).Each P) : (p.bind k).Each P := by
  induction p with
  | done a => exact hk a hQ
  | step u n ih => exact fun s => ⟨(hp s).1, ih s (hp s).2 (hQ s)⟩

/-- Something is yielded. -/
theorem yields_true (p : Stepwise σ α) : p.Yields fun _ => True := by
  induction p with
  | done a => trivial
  | step u n ih => exact ih

/-- An undisturbed run ends with what is yielded. -/
theorem Yields.run {Q : α → Prop} {p : Stepwise σ α} (h : p.Yields Q)
    (s : σ) : Q (p.run s).1 := by
  induction p generalizing s with
  | done a => exact h
  | step u n ih => exact ih s (h s) (u s)

/-- Programs in a row yield what the second one does. -/
theorem yields_bind {Q : α → Prop} {Q' : β → Prop} {p : Stepwise σ α} {k : α → Stepwise σ β}
    (hQ : p.Yields Q) (hk : ∀ a, Q a → (k a).Yields Q') : (p.bind k).Yields Q' := by
  induction p with
  | done a => exact hk a hQ
  | step u n ih => exact fun s => ih s (hQ s)

/-- Programs that agree on all that a program may end with agree behind it. -/
theorem bind_congr_of_yields {Q : α → Prop} {p : Stepwise σ α} {k k' : α → Stepwise σ β}
    (hQ : p.Yields Q) (hk : ∀ a, Q a → k a = k' a) : p.bind k = p.bind k' := by
  induction p with
  | done a => exact hk a hQ
  | step u n ih => exact congrArg (step u) (funext fun s => ih s (hQ s))

/-- Programs in a row respect a relation if the second does for all that the first may end with. -/
theorem respects_bind_of_yields {R : σ → σ → Prop} {Q : α → Prop} {p : Stepwise σ α}
    {k : α → Stepwise σ β} (hp : p.Respects R) (hQ : p.Yields Q)
    (hk : ∀ a, Q a → (k a).Respects R) : (p.bind k).Respects R := by
  induction p with
  | done a => exact hk a hQ
  | step u n ih =>
    intro s s' h
    obtain ⟨hu, hsame, hn⟩ := hp s s' h
    exact ⟨hu, congrArg (Stepwise.bind · k) hsame, ih s hn (hQ s)⟩

end Each

/-! ## Moves -/

/-- A step that has been made. -/
structure Move (σ : Type) where
  found : σ
  left : σ

/-- The program has made these moves, and the other one is left of it. -/
inductive Traced (p : Stepwise σ α) : List (Move σ) → Stepwise σ α → Prop where
  | start : Traced p [] p
  | moved {moves : List (Move σ)} {u : σ → σ} {n : σ → Stepwise σ α}
      (h : Traced p moves (step u n)) (s : σ) : Traced p (moves ++ [⟨s, u s⟩]) (n s)

section Traced

variable {p : Stepwise σ α} {moves : List (Move σ)}

/-- The moves that have been made are steps of the program, and so are those that are left. -/
theorem Traced.each {P : σ → σ → Prop} {q : Stepwise σ α} (h : Traced p moves q) (hp : p.Each P) :
    (∀ m ∈ moves, P m.found m.left) ∧ q.Each P := by
  induction h with
  | start => exact ⟨by simp, hp⟩
  | moved _ s ih =>
    obtain ⟨hmoves, hstep⟩ := ih
    refine ⟨?_, (hstep s).2⟩
    exact List.forall_mem_append.2 ⟨hmoves, by simpa using (hstep s).1⟩

/-- What is left of a program respects what the program does. -/
theorem Traced.respects {R : σ → σ → Prop} {q : Stepwise σ α} (h : Traced p moves q)
    (hrefl : ∀ s, R s s) (hp : p.Respects R) : q.Respects R := by
  induction h with
  | start => exact hp
  | moved _ s ih => exact (ih s s (hrefl s)).2.2

/-- A program that has ended makes no moves. -/
theorem Traced.of_done {a : α} {q : Stepwise σ α} (h : Traced (done a) moves q) :
    moves = [] ∧ q = done a := by
  induction h with
  | start => exact ⟨rfl, rfl⟩
  | moved _ s ih => cases ih.2

/-- The first move of a program, and those that come after it. -/
theorem Traced.of_step {u : σ → σ} {n : σ → Stepwise σ α} {q : Stepwise σ α}
    (h : Traced (step u n) moves q) :
    (moves = [] ∧ q = step u n) ∨
      ∃ s rest, moves = ⟨s, u s⟩ :: rest ∧ Traced (n s) rest q := by
  induction h with
  | start => exact .inl ⟨rfl, rfl⟩
  | @moved moves u' n' _ s ih =>
    rcases ih with ⟨rfl, hstep⟩ | ⟨s', rest, rfl, hrest⟩
    · cases hstep
      exact .inr ⟨s, [], rfl, .start⟩
    · exact .inr ⟨s', rest ++ [⟨s, u' s⟩], rfl, hrest.moved s⟩

/-- What programs in a row have moved: the first one is still at it, or it has ended and the second
one has moved since. -/
theorem Traced.of_bind {k : α → Stepwise σ β} {q : Stepwise σ β} (h : Traced (p.bind k) moves q) :
    (∃ p', Traced p moves p' ∧ q = p'.bind k) ∨
      ∃ before after a, moves = before ++ after ∧ Traced p before (done a) ∧
        Traced (k a) after q := by
  induction h with
  | start => exact .inl ⟨p, .start, rfl⟩
  | @moved moves u n _ s ih =>
    rcases ih with ⟨p', hp', hstep⟩ | ⟨before, after, a, rfl, hbefore, hafter⟩
    · cases p' with
      | done a =>
        have hk : Traced (k a) [] (step u n) := by
          rw [hstep]
          exact .start
        exact .inr ⟨moves, [⟨s, u s⟩], a, rfl, hp', hk.moved s⟩
      | step u' n' =>
        cases hstep
        exact .inl ⟨n' s, hp'.moved s, rfl⟩
    · exact .inr ⟨before, after ++ [⟨s, u s⟩], a, by rw [List.append_assoc], hbefore,
        hafter.moved s⟩

/-- Programs in a row that have come to an end. -/
theorem Traced.of_bind_done {k : α → Stepwise σ β} {b : β}
    (h : Traced (p.bind k) moves (done b)) :
    ∃ before after a, moves = before ++ after ∧ Traced p before (done a) ∧
      Traced (k a) after (done b) := by
  rcases h.of_bind with ⟨p', hp', hdone⟩ | h
  · cases p' with
    | done a =>
      have hk : Traced (k a) [] (done b) := by
        rw [hdone]
        exact .start
      exact ⟨moves, [], a, (List.append_nil moves).symm, hp', hk⟩
    | step u n => cases hdone
  · exact h

end Traced

end ChatBot.Stepwise
