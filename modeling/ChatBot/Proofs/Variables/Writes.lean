import ChatBot.Proofs.Variables.Operations

/-!
# The writes that reach the backend

Setting a value and resolving a reference write at most once. Whether they do can be told before
they start: the calls that they make have to be served, and the variable has to admit the write.
Here the write is given in this way (`Operation.write?`), without the program. Main statement: the
program leaves the variables and their history as the write says (`records_perform_of_writes`).
-/

set_option autoImplicit false

namespace ChatBot

variable {ε : Type}

/-- Whether a call is served that comes after `n` others from now on. -/
def World.Serves (w : World ε) (d : Disturbances) (n : Nat) (c : BackendCall) : Prop :=
  w.store.kind = .memory ∧ d (w.store.calls + n) c = none

instance (w : World ε) (d : Disturbances) (n : Nat) (c : BackendCall) :
    Decidable (w.Serves d n c) :=
  inferInstanceAs (Decidable (_ ∧ _))

/-- Behind one call, the calls that are served are those that were one further on. -/
theorem World.serves_called (w : World ε) (t : VariableTable) (d : Disturbances) (n : Nat)
    (c : BackendCall) : (w.called t).Serves d n c ↔ w.Serves d (n + 1) c := by
  unfold Serves
  rw [called_kind, called_calls, Nat.add_assoc, Nat.add_comm 1 n]

namespace VariableTable

/-- Setting the value of a variable gives back the one before. -/
theorem setValue_of_some {t : VariableTable} {name : String} {v : CustomVariable}
    (h : t.get? name = some v) (value : String) :
    t.setValue name value = (some v.value, t.written name v value) := by
  simp [setValue, h, written]

/-- Setting the value of a name without a variable changes nothing. -/
theorem setValue_of_none {t : VariableTable} {name : String} (h : t.get? name = none)
    (value : String) : t.setValue name value = (none, t) := by
  simp [setValue, h]

/-- Swapping a value leaves the same variables. -/
theorem isSome_get?_setValue (t : VariableTable) (name value other : String) :
    ((t.setValue name value).2.get? other).isSome = (t.get? other).isSome := by
  cases hrow : t.get? name with
  | none => rw [setValue_of_none hrow]
  | some v =>
    rw [setValue_of_some hrow]
    by_cases hother : other = name
    · rw [hother, get?_written, hrow]
      rfl
    · rw [get?_written_of_ne t hother]

end VariableTable

namespace Variables

open Stepwise

/-! ## Calls that are served and calls that are not -/

section Calls

variable {α : Type} {d : Disturbances} {c : BackendCall} {w : World ε}

/-- A served call does what it is there for. -/
theorem run_call_of_serves (h : w.Serves d 0 c) (nothing : α)
    (f : VariableTable → Except BackendError α × VariableTable) :
    (call d c nothing f).run w = ((f w.store.table).1, w.called (f w.store.table).2) :=
  run_call_of_memory h.1 h.2 nothing f

/-- A call that is not served does nothing. -/
theorem run_call_of_not_serves (h : ¬ w.Serves d 0 c) (nothing : α)
    (f : VariableTable → Except BackendError α × VariableTable) :
    ∃ answer, (call d c nothing f).run w = (answer, w.called w.store.table) ∧
      (answer = .ok nothing ∨ ∃ e, answer = .error e) := by
  unfold call
  rw [run_act]
  unfold VariableStore.call
  dsimp only
  split
  · exact ⟨_, rfl, .inr ⟨_, rfl⟩⟩
  · exact ⟨_, rfl, .inr ⟨_, rfl⟩⟩
  · exact ⟨_, rfl, .inl rfl⟩
  · next hkind hd => exact absurd ⟨hkind, hd⟩ h

end Calls

/-! ## Writes -/

/-- A write to a variable. -/
structure Write where
  name : String
  actor : String
  change : VariableChange

/-- The call that writes a mutation. -/
def Mutation.call (name : String) : Mutation → BackendCall
  | .add _ => .increment name
  | .set _ => .setValue name

/-- What a mutation changes in a variable. -/
def Mutation.change? (v : CustomVariable) : Mutation → Option VariableChange
  | .add delta => (Number.parse? v.value).bind fun current =>
    if Number.isFinite (current + delta) then
      some ⟨Number.format (current + delta - delta), Number.format (current + delta)⟩
    else none
  | .set value => some ⟨v.value, value⟩

/-- The variable that an operation finds. -/
def found? (d : Disturbances) (w : World ε) (name : String) : Option CustomVariable :=
  if w.Serves d 0 (.get name) then w.store.table.get? name else none

/-- The write by which an operation reaches the backend, if it does. Creating, updating and deleting
a variable are not writes to it. -/
def Operation.write? (d : Disturbances) (w : World ε) : Operation → Option Write
  | .setValue name value actor => do
    let v ← found? d w name
    let text ← storedText? v.kind value
    if w.Serves d 1 (.setValue name) then some ⟨name, actor, ⟨v.value, text⟩⟩ else none
  | .resolve name operand c _ => do
    let v ← found? d w name
    let operand ← trimmedOperand operand
    if isWritable v c then
      let m ← mutation? v operand
      let change ← m.change? v
      if w.Serves d 1 (m.call name) then some ⟨name, c.username, change⟩ else none
    else none
  | _ => none

/-- The variables and their history once a write, if there is one, has been made and noted. -/
def recordsAfter (w : World ε) : Option Write → VariableTable × Changelog VariableChange
  | none => w.records
  | some x => ((w.store.table.setValue x.name x.change.newValue).2,
      w.store.history.record x.name x.actor x.change w.clock)

/-! ## Single calls -/

section Single

variable (d : Disturbances) (w : World ε) (name : String)

/-- A variable that is found is read; else there is none in the answer. -/
theorem run_fetch_found :
    ∃ answer, (fetch d name).run w = (answer, w.called w.store.table) ∧
      (answer = .ok (found? d w name) ∨ found? d w name = none ∧ ∃ e, answer = .error e) := by
  unfold found?
  by_cases hserved : w.Serves d 0 (.get name)
  · refine ⟨_, run_call_of_serves hserved none fun t => (.ok (t.get? name), t), .inl ?_⟩
    rw [if_pos hserved]
  · obtain ⟨answer, hrun, hanswer⟩ := run_call_of_not_serves hserved none fun t =>
      (.ok (t.get? name), t)
    refine ⟨answer, hrun, ?_⟩
    rw [if_neg hserved]
    exact hanswer.imp id fun h => ⟨rfl, h⟩

/-- A get answers the variable that is found, or an error. -/
theorem run_get_found :
    ∃ answer, (get d name).run w = (answer, w.called w.store.table) ∧
      ((∃ v, found? d w name = some v ∧ answer = .ok v) ∨
        found? d w name = none ∧ ∃ e, answer = .error e) := by
  obtain ⟨answer, hrun, hanswer⟩ := run_fetch_found d w name
  unfold get
  simp only [bind_eq, run_bind, hrun]
  rcases hanswer with rfl | ⟨hnone, e, rfl⟩
  · cases hfound : found? d w name with
    | none => exact ⟨_, rfl, .inr ⟨rfl, _, rfl⟩⟩
    | some v => exact ⟨_, rfl, .inl ⟨v, rfl, rfl⟩⟩
  · exact ⟨_, rfl, .inr ⟨hnone, _, rfl⟩⟩

variable {d w name}

/-- A served swap writes the value. -/
theorem run_swap_of_serves (h : w.Serves d 0 (.setValue name)) {v : CustomVariable}
    (hrow : w.store.table.get? name = some v) (value : String) :
    (swap d name value).run w =
      (.ok (some v.value), w.called (w.store.table.setValue name value).2) := by
  rw [swap, run_call_of_serves h]
  dsimp only
  rw [VariableTable.setValue_of_some hrow]

/-- A swap that is not served leaves the table, and answers no value. -/
theorem run_swap_of_not_serves (h : ¬ w.Serves d 0 (.setValue name)) (value : String) :
    ∃ answer, (swap d name value).run w = (answer, w.called w.store.table) ∧
      ∀ previous, answer ≠ .ok (some previous) := by
  obtain ⟨answer, hrun, hanswer⟩ := run_call_of_not_serves h none fun t =>
    (.ok (t.setValue name value).1, (t.setValue name value).2)
  refine ⟨answer, hrun, ?_⟩
  rcases hanswer with rfl | ⟨e, rfl⟩ <;> simp

/-- A mutation is written by a call that is served. -/
theorem run_write_of_serves {m : Mutation} (h : w.Serves d 0 (m.call name)) {v : CustomVariable}
    (hrow : w.store.table.get? name = some v) {change : VariableChange}
    (hchange : m.change? v = some change) :
    (write d name m).run w =
      (.ok (some change), w.called (w.store.table.setValue name change.newValue).2) := by
  cases m with
  | add delta =>
    change w.Serves d 0 (.increment name) at h
    obtain ⟨current, hcurrent, hsum⟩ := Option.bind_eq_some_iff.1 hchange
    obtain ⟨hfinite, hsum⟩ := Option.ite_none_right_eq_some.1 hsum
    obtain rfl := Option.some_inj.1 hsum
    have hincrement : w.store.table.increment name delta = (.ok (some (current + delta)),
        (w.store.table.setValue name (Number.format (current + delta))).2) := by
      rw [VariableTable.setValue_of_some hrow]
      simp [VariableTable.increment, VariableTable.written, hrow, hcurrent, hfinite]
    simp only [write, increment, bind_eq, run_bind]
    rw [run_call_of_serves h, hincrement]
    rfl
  | set value =>
    obtain rfl := Option.some_inj.1 hchange
    simp only [write, bind_eq, run_bind]
    rw [run_swap_of_serves h hrow]
    rfl

/-- A write that is not served leaves the table, and answers no change. -/
theorem run_write_of_not_serves {m : Mutation} (h : ¬ w.Serves d 0 (m.call name)) :
    ∃ answer, (write d name m).run w = (answer, w.called w.store.table) ∧
      ∀ change, answer ≠ .ok (some change) := by
  cases m with
  | add delta =>
    change ¬ w.Serves d 0 (.increment name) at h
    obtain ⟨answer, hrun, hanswer⟩ := run_call_of_not_serves h none fun t => t.increment name delta
    simp only [write, increment, bind_eq, run_bind]
    rw [hrun]
    rcases hanswer with rfl | ⟨e, rfl⟩
    · exact ⟨_, rfl, by simp⟩
    · exact ⟨_, rfl, by simp⟩
  | set value =>
    obtain ⟨answer, hrun, hanswer⟩ := run_swap_of_not_serves h value
    simp only [write, bind_eq, run_bind]
    rw [hrun]
    cases answer with
    | error e => exact ⟨_, rfl, by simp⟩
    | ok found =>
      cases found with
      | none => exact ⟨_, rfl, by simp⟩
      | some previous => exact absurd rfl (hanswer previous)

end Single

/-! ## Whole operations -/

/-- A mutation that an operand stands for makes a change. -/
theorem exists_change_of_mutation? {v : CustomVariable} {operand : String} {m : Mutation}
    (h : mutation? v operand = some m) : ∃ change, m.change? v = some change := by
  have hadd {delta : Float} (h : addition? v delta = some m) :
      ∃ change, m.change? v = some change := by
    obtain ⟨current, hcurrent, hsum⟩ := Option.bind_eq_some_iff.1 h
    obtain ⟨hfinite, hsum⟩ := Option.ite_none_right_eq_some.1 hsum
    obtain rfl := Option.some_inj.1 hsum
    exact ⟨_, by rw [Mutation.change?, hcurrent, Option.bind_some, if_pos hfinite]⟩
  unfold mutation? at h
  split at h
  · split at h
    · exact hadd h
    split at h
    · exact hadd h
    split at h
    · obtain ⟨delta, -, h⟩ := Option.bind_eq_some_iff.1 h
      exact hadd h
    · obtain ⟨x, -, rfl⟩ := Option.map_eq_some_iff.1 h
      exact ⟨_, rfl⟩
  · split at h
    · cases h
    · obtain rfl := Option.some_inj.1 h
      exact ⟨_, rfl⟩
  · cases h

section Operations

variable (d : Disturbances) (w : World ε)

/-- A variable that an operation finds stands in the table. -/
theorem get?_of_found? {name : String} {v : CustomVariable} (h : found? d w name = some v) :
    w.store.table.get? name = some v := by
  unfold found? at h
  split at h
  · exact h
  · cases h

/-- A get leaves the records. -/
theorem records_get (name : String) : ((get d name).run w).2.records = w.records := by
  obtain ⟨answer, hrun, -⟩ := run_get d name w
  rw [hrun]
  rfl

/-- Setting a value leaves the write that it stands for, also when the variable cannot be read again
afterwards. -/
theorem records_setValue (name value actor : String) :
    ((setValue d name value actor).run w).2.records =
      recordsAfter w (Operation.write? d w (.setValue name value actor)) := by
  obtain ⟨answer, hget, hanswer⟩ := run_get_found d w name
  simp only [setValue, bind_eq, run_bind, hget, Operation.write?]
  rcases hanswer with ⟨v, hfound, rfl⟩ | ⟨hnone, e, rfl⟩
  · have hrow := get?_of_found? d w hfound
    simp only [hfound, Option.bind_eq_bind, Option.bind_some]
    cases htext : storedText? v.kind value with
    | none => rfl
    | some text =>
      simp only [Option.bind_some, run_bind]
      by_cases hserved : w.Serves d 1 (.setValue name)
      · rw [if_pos hserved]
        rw [run_swap_of_serves ((World.serves_called ..).2 hserved) hrow text]
        -- the write is noted by now, and reading the variable once more adds nothing
        exact records_get d _ name
      · obtain ⟨answer, hswap, hanswer⟩ :=
          run_swap_of_not_serves (mt (World.serves_called w w.store.table d 0 _).1 hserved) text
        rw [if_neg hserved, hswap]
        cases answer with
        | error e => rfl
        | ok found =>
          cases found with
          | none => rfl
          | some previous => exact absurd rfl (hanswer previous)
  · rw [hnone]
    rfl

/-- Resolving a reference leaves the write that it stands for. -/
theorem records_resolve (name : String) (operand : Option String) (c : Capabilities)
    (silent : Bool) :
    ((resolve d name operand c silent).run w).2.records =
      recordsAfter w (Operation.write? d w (.resolve name operand c silent)) := by
  obtain ⟨answer, hfetch, hanswer⟩ := run_fetch_found d w name
  simp only [resolve, bind_eq, run_bind, hfetch, Operation.write?]
  rcases hanswer with rfl | ⟨hnone, e, rfl⟩
  · cases hfound : found? d w name with
    | none => rfl
    | some v =>
      have hrow := get?_of_found? d w hfound
      simp only [Option.bind_eq_bind, Option.bind_some]
      cases hoperand : trimmedOperand operand with
      | none => rfl
      | some op =>
        simp only [Option.bind_some]
        by_cases hwritable : isWritable v c
        · rw [if_neg (by simpa using hwritable), if_pos hwritable]
          cases hmutation : mutation? v op with
          | none => rfl
          | some m =>
            obtain ⟨change, hchange⟩ := exists_change_of_mutation? hmutation
            simp only [Option.bind_some, hchange, run_bind]
            by_cases hserved : w.Serves d 1 (m.call name)
            · rw [if_pos hserved]
              rw [run_write_of_serves ((World.serves_called ..).2 hserved) hrow hchange]
              rfl
            · obtain ⟨answer, hwrite, hanswer⟩ := run_write_of_not_serves
                (mt (World.serves_called w w.store.table d 0 _).1 hserved)
              rw [if_neg hserved, hwrite]
              cases answer with
              | error e =>
                cases e with
                | notNumeric text => cases m <;> rfl
                | unavailable | unreachable => rfl
              | ok changed =>
                cases changed with
                | none => rfl
                | some change => exact absurd rfl (hanswer change)
        · rw [if_pos (by simpa using hwritable), if_neg hwritable]
          rfl
  · rw [hnone]
    rfl

/-- The operations that write to a variable. -/
def Operation.Writes : Operation → Prop
  | .setValue .. => True
  | .resolve .. => True
  | _ => False

/-- What becomes of the variables and their history is what the write says, whether or not the
operation succeeds. -/
theorem records_perform_of_writes {op : Operation} (h : op.Writes) :
    ((op.perform d).run w).2.records = recordsAfter w (op.write? d w) := by
  cases op with
  | create | update | delete => cases h
  | setValue name value actor =>
    rw [Operation.perform, run_settled]
    exact records_setValue d w name value actor
  | resolve name operand c silent =>
    rw [Operation.perform, run_settled]
    exact records_resolve d w name operand c silent

end Operations

end Variables

end ChatBot
