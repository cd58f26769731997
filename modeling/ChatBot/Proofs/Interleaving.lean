import ChatBot.Stepwise

/-!
# Programs that take turns

A pool of programs shares one state. A schedule says whose turn it is, and whoever has the turn
makes one step; a program that has ended lets its turns pass. What holds for every schedule holds
however the programs come in between each other.
-/

set_option autoImplicit false

namespace ChatBot.Stepwise

variable {σ α β : Type}

/-- The program with a number makes one step. -/
def advance (i : Nat) (pool : List (Stepwise σ α)) (s : σ) : List (Stepwise σ α) × σ :=
  match pool[i]? with
  | some (.step u n) => (pool.set i (n s), u s)
  | _ => (pool, s)

/-- The programs take the turns of a schedule. -/
def interleave : List Nat → List (Stepwise σ α) → σ → List (Stepwise σ α) × σ
  | [], pool, s => (pool, s)
  | i :: schedule, pool, s =>
    let (pool', s') := advance i pool s
    interleave schedule pool' s'

/-- What holds of a program holds of whatever it comes to. -/
def Lasting (P : Stepwise σ α → Prop) : Prop :=
  ∀ u n, P (step u n) → ∀ s, P (n s)

section Advance

variable {i j : Nat} {pool : List (Stepwise σ α)} {s : σ}

/-- A program that has not ended makes its next step. -/
theorem advance_of_step {u : σ → σ} {n : σ → Stepwise σ α} (h : pool[i]? = some (.step u n)) :
    advance i pool s = (pool.set i (n s), u s) := by
  simp [advance, h]

/-- A program that has ended makes no step. -/
theorem advance_of_done {a : α} (h : pool[i]? = some (.done a)) : advance i pool s = (pool, s) := by
  simp [advance, h]

/-- A turn that gets an answer goes on with it. -/
theorem advance_of_act {g : σ → β × σ} {k : β → Stepwise σ α}
    (h : pool[i]? = some ((act g).bind k)) {b : β} {s' : σ} (hg : (act g).run s = (b, s')) :
    advance i pool s = (pool.set i (k b), s') := by
  have hstep : advance i pool s = (pool.set i (k (g s).1), (g s).2) := advance_of_step h
  rw [run_act] at hg
  rw [hstep, hg]

/-- A number without a program makes no step. -/
theorem advance_of_none (h : pool[i]? = none) : advance i pool s = (pool, s) := by
  simp [advance, h]

/-- The step of one program leaves the others. -/
theorem getElem?_advance_of_ne (h : i ≠ j) : (advance i pool s).1[j]? = pool[j]? := by
  match hp : pool[i]? with
  | none => rw [advance_of_none hp]
  | some (.done a) => rw [advance_of_done hp]
  | some (.step u n) => rw [advance_of_step hp, List.getElem?_set_ne h]

/-- What lasts along a program lasts through a step of anybody. -/
theorem Lasting.advance {P : Stepwise σ α → Prop} (hP : Lasting P)
    (h : ∀ p, pool[j]? = some p → P p) :
    ∀ p, (advance i pool s).1[j]? = some p → P p := by
  intro p
  match hp : pool[i]? with
  | none =>
    rw [advance_of_none hp]
    exact h p
  | some (.done a) =>
    rw [advance_of_done hp]
    exact h p
  | some (.step u n) =>
    rw [advance_of_step hp]
    by_cases hij : i = j
    · subst hij
      intro hnext
      have hlength : i < pool.length := (List.getElem?_eq_some_iff.1 hp).1
      rw [List.getElem?_set_self hlength] at hnext
      obtain rfl := Option.some_inj.1 hnext
      exact hP u n (h _ hp) s
    · rw [List.getElem?_set_ne hij]
      exact h p

end Advance

section Interleave

variable {schedule : List Nat} {pool : List (Stepwise σ α)} {s : σ}

/-- A schedule may be stopped at any point and taken up again. -/
theorem interleave_append (schedule later : List Nat) (pool : List (Stepwise σ α)) (s : σ) :
    interleave (schedule ++ later) pool s =
      interleave later (interleave schedule pool s).1 (interleave schedule pool s).2 := by
  induction schedule generalizing pool s with
  | nil => rfl
  | cons i schedule ih => exact ih (advance i pool s).1 (advance i pool s).2

/-- A schedule can be cut behind a turn. -/
theorem interleave_turn (schedule later : List Nat) (i : Nat) (pool : List (Stepwise σ α)) (s : σ) :
    interleave (schedule ++ i :: later) pool s =
      interleave later (interleave (schedule ++ [i]) pool s).1
        (interleave (schedule ++ [i]) pool s).2 := by
  rw [interleave_append, interleave_append]
  rfl

/-- A schedule can be cut behind two turns. -/
theorem interleave_turns (earlier between later : List Nat) (i : Nat)
    (pool : List (Stepwise σ α)) (s : σ) :
    let first := interleave (earlier ++ [i]) pool s
    let second := interleave (between ++ [i]) first.1 first.2
    interleave (earlier ++ i :: between ++ i :: later) pool s =
      interleave later second.1 second.2 := by
  intro first second
  have hsecond : interleave (earlier ++ i :: between ++ [i]) pool s = second := by
    rw [List.append_assoc, List.cons_append, interleave_turn]
  rw [interleave_turn, hsecond]

/-- A program that gets no turn stays as it is. -/
theorem getElem?_interleave_of_not_mem {j : Nat} (h : j ∉ schedule) :
    (interleave schedule pool s).1[j]? = pool[j]? := by
  induction schedule generalizing pool s with
  | nil => rfl
  | cons i schedule ih =>
    obtain ⟨hi, hrest⟩ := not_or.1 (mt List.mem_cons.2 h)
    change (interleave schedule (advance i pool s).1 (advance i pool s).2).1[j]? = pool[j]?
    rw [ih hrest, getElem?_advance_of_ne (Ne.symm hi)]

/-- What lasts along a program lasts through any schedule. -/
theorem Lasting.interleave {P : Stepwise σ α → Prop} (hP : Lasting P) {j : Nat}
    (h : ∀ p, pool[j]? = some p → P p) :
    ∀ p, (interleave schedule pool s).1[j]? = some p → P p := by
  induction schedule generalizing pool s with
  | nil => exact h
  | cons i schedule ih => exact ih (hP.advance h)

end Interleave

/-! ## Pools -/

/-- What is left of a pool in which one program has moved. -/
theorem getElem?_set_cases {α : Type} {pool : List α} {i k : Nat} {p q : α}
    (h : (pool.set i p)[k]? = some q) : (i = k ∧ q = p) ∨ (i ≠ k ∧ pool[k]? = some q) := by
  rw [List.getElem?_set] at h
  split at h
  · next hik =>
    split at h
    · exact .inl ⟨hik, (Option.some_inj.1 h).symm⟩
    · cases h
  · next hik => exact .inr ⟨hik, h⟩

/-- If each member of a pool can be brought to its end in turn, all of them can. -/
theorem exists_all_ended {S α : Type} {R : S → S → Prop} {f : S → List α} {E : α → Prop}
    (refl : ∀ s, R s s) (trans : ∀ {s s' s''}, R s s' → R s' s'' → R s s'')
    (one : ∀ s i a, (f s)[i]? = some a →
      ∃ s' a', R s s' ∧ E a' ∧ f s' = (f s).set i a') (s : S) :
    ∃ s', R s s' ∧ ∀ a ∈ f s', E a := by
  have first (n : Nat) (hn : n ≤ (f s).length) : ∃ s', R s s' ∧
      (f s').length = (f s).length ∧ ∀ i a, i < n → (f s')[i]? = some a → E a := by
    induction n with
    | zero => exact ⟨s, refl s, rfl, fun _ _ hi => absurd hi (Nat.not_lt_zero _)⟩
    | succ n ih =>
      obtain ⟨s₁, hs₁, hlength, hended⟩ := ih (by omega)
      have hlt : n < (f s₁).length := by omega
      obtain ⟨s₂, a', hs₂, ha', hf⟩ := one s₁ n _ (List.getElem?_eq_getElem hlt)
      refine ⟨s₂, trans hs₁ hs₂, by rw [hf, List.length_set, hlength], fun i a hi ha => ?_⟩
      rw [hf] at ha
      rcases getElem?_set_cases ha with ⟨rfl, rfl⟩ | ⟨hne, ha⟩
      · exact ha'
      · exact hended i a (by omega) ha
  obtain ⟨s', hs', hlength, hended⟩ := first _ (Nat.le_refl _)
  refine ⟨s', hs', fun a ha => ?_⟩
  obtain ⟨i, hi⟩ := List.getElem?_of_mem ha
  have hlt := (List.getElem?_eq_some_iff.1 hi).1
  exact hended i a (by omega) hi

end ChatBot.Stepwise
