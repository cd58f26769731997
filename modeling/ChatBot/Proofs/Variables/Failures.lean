import ChatBot.Proofs.Variables.Operations

/-!
# What a failed operation leaves behind

An operation on variables makes a few calls to the backend, any of which may fail, and a note in the
history. An operation that fails has left no trace, with one exception: setting a value ends with
reading the variable again, and when it is only that read that fails, the value has been set and the
change has been noted (`records_of_error`).
-/

set_option autoImplicit false

namespace ChatBot.Variables

open Stepwise

variable {ε : Type}

/-- **A failed operation leaves the variables and their history as they were**, whichever calls to
the backend go wrong, unless it was to set a value and got as far as reading the variable again.
Then the change is there as a whole: the value is the new one, and the history has it. -/
theorem records_of_error (d : Disturbances) (op : Operation) (w : World ε) {e : VariableError}
    (h : ((op.perform d).run w).1 = .error e) :
    ((op.perform d).run w).2.records = w.records ∨
      ∃ name value actor v text, op = .setValue name value actor ∧
        w.store.table.get? name = some v ∧ storedText? v.kind value = some text ∧
        d (w.store.calls + 2) (.get name) ≠ none ∧
        ((op.perform d).run w).2.records = (w.store.table.written name v text,
          w.store.history.record name actor ⟨v.value, text⟩ w.clock) := by
  cases op with
  | create request =>
    rw [Operation.perform, run_settled] at h ⊢
    rcases run_create d w request with ⟨hrecords, -⟩ | ⟨hanswer, -⟩
    · exact .inl hrecords
    · rw [hanswer] at h
      cases h
  | update name request =>
    rw [Operation.perform, run_settled] at h ⊢
    rcases run_update d w name request with ⟨hrecords, -⟩ | ⟨v, -, hanswer, -⟩
    · exact .inl hrecords
    · rw [hanswer] at h
      cases h
  | setValue name value actor =>
    rw [Operation.perform, run_settled] at h ⊢
    rcases run_setValue d w name value actor with
      ⟨hrecords, -⟩ | ⟨v, text, hrow, htext, hanswer | ⟨hread, -⟩, hrecords⟩
    · exact .inl hrecords
    · rw [hanswer] at h
      cases h
    -- the change has been made, and only reading it back has failed
    · exact .inr ⟨name, value, actor, v, text, rfl, hrow, htext, hread, hrecords⟩
  | resolve name operand c silent =>
    rw [Operation.perform, run_settled] at h ⊢
    rcases run_resolve d w name operand c silent with
      hrecords | ⟨v, op, m, change, -, -, -, -, -, hanswer, -⟩
    · exact .inl hrecords
    · rw [hanswer] at h
      cases h
  | delete name =>
    rw [Operation.perform] at h ⊢
    rcases run_delete d w name with ⟨hrecords, -⟩ | ⟨hanswer, -⟩
    · exact .inl hrecords
    · rw [hanswer] at h
      cases h

/-! ## Setting a counter while the backend falters -/

namespace Faltering

/-- Every call is answered but the one with the given number. -/
def failsAt (n : Nat) : Disturbances := fun calls _ =>
  if calls = n then some (.fails (.unavailable "down")) else none

/-- The counter `$_count` stands at zero. -/
def start : World Unit where
  store := { table := ⟨NameMap.ofList [
    ("$_count", { name := "$_count", kind := .number, value := "0" })]⟩ }
  extra := ()

/-- The counter is to be set to five. -/
def set : Operation := .setValue "$_count" "5" "admin"

/-- When the write fails, the counter stays at zero. -/
theorem records_of_failed_write :
    ((set.perform (failsAt 1)).run start).1 = .error (.backend (.unavailable "down")) ∧
    ((set.perform (failsAt 1)).run start).2.records = start.records := by
  have herror : ((set.perform (failsAt 1)).run start).1 =
      .error (.backend (.unavailable "down")) := by
    rfl
  refine ⟨herror, ?_⟩
  rcases records_of_error (failsAt 1) set start herror with
    hrecords | ⟨name, value, actor, v, text, hset, -, -, hread, -⟩
  · exact hrecords
  · exact absurd (by simp [failsAt, start]) hread

/-- When only the last read fails, setting the counter fails, but the counter has been set and the
history says so. -/
theorem failed_set_leaves_trace :
    ((set.perform (failsAt 2)).run start).1 = .error (.backend (.unavailable "down")) ∧
    ((start.store.table.get? "$_count").map CustomVariable.value = some "0" ∧
      (start.store.history.held "$_count").length = 0) ∧
    ((((set.perform (failsAt 2)).run start).2.store.table.get? "$_count").map
      CustomVariable.value = some "5" ∧
      (((set.perform (failsAt 2)).run start).2.store.history.held "$_count").length = 1) :=
  ⟨rfl, by decide +kernel, by decide +kernel⟩

end Faltering

end ChatBot.Variables
