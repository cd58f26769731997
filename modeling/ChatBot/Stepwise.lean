/-!
# Programs over a shared state

A `Stepwise σ α` is a program that shares a state of type `σ` with other programs. It advances by
atomic steps: each step reads the whole state, replaces it, and goes on with a program that may
depend on the state it read. What lies between two steps of one program is where the steps of
others may fall. `Stepwise.run` is the program alone, with nobody in between.
-/

set_option autoImplicit false

namespace ChatBot

/-- A program over a shared state that ends with a value. -/
inductive Stepwise (σ : Type) (α : Type) : Type where
  | done (value : α) : Stepwise σ α
  /-- One atomic step: the state is replaced, and what follows sees the state that was read. -/
  | step (update : σ → σ) (next : σ → Stepwise σ α) : Stepwise σ α

namespace Stepwise

variable {σ α β γ : Type}

/-- Runs `k` on the value that `p` ends with. -/
def bind : Stepwise σ α → (α → Stepwise σ β) → Stepwise σ β
  | done a, k => k a
  | step u n, k => step u (fun s => (n s).bind k)

instance : Monad (Stepwise σ) where
  pure := done
  bind := bind

/-- One atomic step that computes an answer from the state and replaces the state. -/
def act (f : σ → α × σ) : Stepwise σ α :=
  step (fun s => (f s).2) (fun s => done (f s).1)

/-- One atomic step that only reads. -/
def read (f : σ → α) : Stepwise σ α :=
  step id (fun s => done (f s))

/-- One atomic step that only changes the state. -/
def change (f : σ → σ) : Stepwise σ Unit :=
  step f (fun _ => done ())

/-- The answer and the final state of a program that runs undisturbed. -/
def run : Stepwise σ α → σ → α × σ
  | done a, s => (a, s)
  | step u n, s => (n s).run (u s)

/-- The program that does nothing has ended. -/
@[simp] theorem pure_eq_done (a : α) : (pure a : Stepwise σ α) = done a := rfl

/-- Programs in a row, by their name. -/
@[simp] theorem bind_eq (p : Stepwise σ α) (k : α → Stepwise σ β) : p >>= k = p.bind k := rfl

/-- A program with nothing behind it is the program. -/
@[simp] theorem bind_done (p : Stepwise σ α) : p.bind done = p := by
  induction p with
  | done a => rfl
  | step u n ih => simp only [bind]; congr 1; funext s; exact ih s

/-- Of three programs in a row, it does not matter which two are taken together. -/
theorem bind_assoc (p : Stepwise σ α) (f : α → Stepwise σ β) (g : β → Stepwise σ γ) :
    (p.bind f).bind g = p.bind (fun a => (f a).bind g) := by
  induction p with
  | done a => rfl
  | step u n ih => simp only [bind]; congr 1; funext s; exact ih s

instance : LawfulMonad (Stepwise σ) :=
  LawfulMonad.mk' _ (fun p => bind_done p) (fun _ _ => rfl) bind_assoc

/-- The run of a program that has ended leaves the state. -/
@[simp] theorem run_done (a : α) (s : σ) : (done a : Stepwise σ α).run s = (a, s) := rfl

/-- Programs in a row are run one after the other. -/
@[simp] theorem run_bind (p : Stepwise σ α) (k : α → Stepwise σ β) (s : σ) :
    (p.bind k).run s = (k (p.run s).1).run (p.run s).2 := by
  induction p generalizing s with
  | done a => rfl
  | step u n ih => exact ih s (u s)

/-- The run of a single step is the step. -/
@[simp] theorem run_act (f : σ → α × σ) (s : σ) : (act f).run s = f s := rfl

/-- The run of a reading leaves the state. -/
@[simp] theorem run_read (f : σ → α) (s : σ) : (read f).run s = (f s, s) := rfl

/-- The run of a change changes the state. -/
@[simp] theorem run_change (f : σ → σ) (s : σ) : (change f).run s = ((), f s) := rfl

end Stepwise

end ChatBot
