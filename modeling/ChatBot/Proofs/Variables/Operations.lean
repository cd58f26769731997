import ChatBot.Proofs.Changelog.Held
import ChatBot.Variables.Operations

/-!
# What operations on variables do

An operation on variables is a few calls to the backend, any of which may go wrong, and notes in the
history. Here it is said once for each operation what may come of it as a whole: it leaves the
*records*, which are the variables and the history of their changes, as they were, or it makes one
change to them that depends on the variable it has found. Nothing else looks into the single calls.
-/

set_option autoImplicit false

namespace ChatBot

variable {ε : Type}

/-- The variables and the history of their changes. -/
def World.records (w : World ε) : VariableTable × Changelog VariableChange :=
  (w.store.table, w.store.history)

/-- The state after a call to the backend that leaves the given table. -/
def World.called (w : World ε) (table : VariableTable) : World ε :=
  { w with store := { w.store with calls := w.store.calls + 1, table } }

/-- A call to the backend leaves the table that it gives back. -/
@[simp] theorem World.called_table (w : World ε) (table : VariableTable) :
    (w.called table).store.table = table := rfl

/-- A call to the backend is counted. -/
@[simp] theorem World.called_calls (w : World ε) (table : VariableTable) :
    (w.called table).store.calls = w.store.calls + 1 := rfl

/-- A call to the backend leaves the history. -/
@[simp] theorem World.called_history (w : World ε) (table : VariableTable) :
    (w.called table).store.history = w.store.history := rfl

/-- A call to the backend leaves the clock. -/
@[simp] theorem World.called_clock (w : World ε) (table : VariableTable) :
    (w.called table).clock = w.clock := rfl

/-- A call to the backend leaves the wording of notices. -/
@[simp] theorem World.called_announcement (w : World ε) (table : VariableTable) :
    (w.called table).store.announcement = w.store.announcement := rfl

/-- A call to the backend leaves its kind. -/
@[simp] theorem World.called_kind (w : World ε) (table : VariableTable) :
    (w.called table).store.kind = w.store.kind := rfl

/-- The state after a note in the history. -/
def World.noted (w : World ε) (name actor : String) (change : VariableChange) : World ε :=
  { w with store := { w.store with history := w.store.history.record name actor change w.clock } }

/-- A note leaves the table. -/
@[simp] theorem World.noted_table (w : World ε) (name actor : String) (change : VariableChange) :
    (w.noted name actor change).store.table = w.store.table := rfl

/-- A note records the change in the history. -/
@[simp] theorem World.noted_history (w : World ε) (name actor : String) (change : VariableChange) :
    (w.noted name actor change).store.history =
      w.store.history.record name actor change w.clock := rfl

/-- A note is no call to the backend. -/
@[simp] theorem World.noted_calls (w : World ε) (name actor : String) (change : VariableChange) :
    (w.noted name actor change).store.calls = w.store.calls := rfl

/-- A note leaves the kind of the backend. -/
@[simp] theorem World.noted_kind (w : World ε) (name actor : String) (change : VariableChange) :
    (w.noted name actor change).store.kind = w.store.kind := rfl

namespace VariableTable

/-- The table with the value of the variable `v` of a name changed. -/
def written (t : VariableTable) (name : String) (v : CustomVariable) (value : String) :
    VariableTable :=
  ⟨t.rows.insert name { v with value }⟩

/-- A written variable has the new value, and is itself otherwise. -/
@[simp] theorem get?_written (t : VariableTable) (name : String) (v : CustomVariable)
    (value : String) : (t.written name v value).get? name = some { v with value } := by
  simp [written, get?]

/-- Writing a variable leaves the others. -/
theorem get?_written_of_ne (t : VariableTable) {name other : String} (h : other ≠ name)
    (v : CustomVariable) (value : String) : (t.written name v value).get? other = t.get? other := by
  simp [written, get?, Std.ExtTreeMap.getElem?_insert, h.symm]

end VariableTable

namespace Variables

open Stepwise

variable {α : Type}

/-! ## Calls to the backend -/

/-- What a call to the backend may answer, and the table that it leaves: it fails, it finds nothing,
or it does what it is there for. -/
inductive CallResult (nothing : α) (f : VariableTable → Except BackendError α × VariableTable)
    (t : VariableTable) : Except BackendError α → VariableTable → Prop where
  | fails (error : BackendError) : CallResult nothing f t (.error error) t
  | findsNothing : CallResult nothing f t (.ok nothing) t
  | answers : CallResult nothing f t (f t).1 (f t).2

/-- A call to the backend does what it is there for, or finds nothing, or fails; and it
is counted. -/
theorem run_call (d : Disturbances) (c : BackendCall) (nothing : α)
    (f : VariableTable → Except BackendError α × VariableTable) (w : World ε) :
    ∃ answer table, (call d c nothing f).run w = (answer, w.called table) ∧
      CallResult nothing f w.store.table answer table := by
  unfold call
  rw [run_act]
  unfold VariableStore.call
  dsimp only
  split
  · exact ⟨_, _, rfl, .fails _⟩
  · exact ⟨_, _, rfl, .fails _⟩
  · exact ⟨_, _, rfl, .findsNothing⟩
  · exact ⟨_, _, rfl, .answers⟩

/-- A call to the backend in memory that is not disturbed does what it is there for. -/
theorem run_call_of_memory {d : Disturbances} {c : BackendCall} {w : World ε}
    (hkind : w.store.kind = .memory) (hd : d w.store.calls c = none) (nothing : α)
    (f : VariableTable → Except BackendError α × VariableTable) :
    (call d c nothing f).run w = ((f w.store.table).1, w.called (f w.store.table).2) := by
  simp [call, VariableStore.call, World.called, hkind, hd]

/-- No call reaches the server. -/
theorem run_call_of_redis {w : World ε} (hkind : w.store.kind = .redis) (d : Disturbances)
    (c : BackendCall) (nothing : α) (f : VariableTable → Except BackendError α × VariableTable) :
    (call d c nothing f).run w = (.error .unreachable, w.called w.store.table) := by
  simp [call, VariableStore.call, World.called, hkind]

/-- Reading a variable changes nothing, and what is read is there. -/
theorem run_fetch (d : Disturbances) (name : String) (w : World ε) :
    ∃ answer, (fetch d name).run w = (answer, w.called w.store.table) ∧
      ∀ v, answer = .ok (some v) → w.store.table.get? name = some v := by
  obtain ⟨answer, table, hrun, hresult⟩ :=
    run_call (ε := ε) d (.get name) none (fun t => (.ok (t.get? name), t)) w
  cases hresult with
  | fails e => exact ⟨_, hrun, by simp⟩
  | findsNothing => exact ⟨_, hrun, by simp⟩
  | answers => exact ⟨_, hrun, by simp⟩

/-- A variable that is found stands in the table. -/
theorem run_get (d : Disturbances) (name : String) (w : World ε) :
    ∃ answer, (get d name).run w = (answer, w.called w.store.table) ∧
      ∀ v, answer = .ok v → w.store.table.get? name = some v := by
  obtain ⟨answer, hrun, hfound⟩ := run_fetch d name w
  unfold get
  simp only [bind_eq, run_bind, hrun]
  match answer with
  | .error e => exact ⟨_, rfl, by simp⟩
  | .ok none => exact ⟨_, rfl, by simp⟩
  | .ok (some v) => exact ⟨_, rfl, fun u hu => hfound u (by simp_all)⟩

/-- A variable in memory is read unless the call is disturbed. -/
theorem run_get_of_memory (d : Disturbances) {name : String} {w : World ε} {v : CustomVariable}
    (hkind : w.store.kind = .memory) (hrow : w.store.table.get? name = some v) :
    let r := (get d name).run w
    (r.1 = .ok v ∨ (d w.store.calls (.get name) ≠ none ∧ ∃ e, r.1 = .error e)) ∧
      r.2.records = w.records := by
  intro r
  obtain ⟨answer, hrun, hread⟩ := run_get d name w
  have hr : r = (answer, w.called w.store.table) := hrun
  rw [hr]
  refine ⟨?_, rfl⟩
  cases hd : d w.store.calls (.get name) with
  | some disturbance =>
    match answer, hread with
    | .error e, _ => exact .inr ⟨by simp, e, rfl⟩
    | .ok u, hread => exact .inl (by simpa [hrow] using (hread u rfl).symm)
  | none =>
    have hfetch := run_call_of_memory hkind hd none fun t => (.ok (t.get? name), t)
    simp only [get, fetch, bind_eq, run_bind] at hrun
    rw [hfetch, hrow] at hrun
    exact .inl (Prod.mk.inj hrun).1.symm

/-- A note is recorded. -/
@[simp] theorem run_note (name actor : String) (change : VariableChange) (w : World ε) :
    (note name actor change).run w = ((), w.noted name actor change) := rfl

/-- A call that may refuse: it is refused, fails or finds nothing, and then nothing changes, or it
is carried out. -/
theorem run_attempt (d : Disturbances) (c : BackendCall) {f : VariableTable → Bool × VariableTable}
    (refused : ∀ t, (f t).1 = false → (f t).2 = t) (w : World ε) :
    ∃ answer table,
      (call d c false fun t => let (b, t) := f t; (.ok b, t)).run w = (answer, w.called table) ∧
      ((answer ≠ .ok true ∧ table = w.store.table) ∨
        (answer = .ok true ∧ f w.store.table = (true, table))) := by
  obtain ⟨answer, table, hrun, hresult⟩ :=
    run_call (ε := ε) d c false (fun t => let (b, t) := f t; (.ok b, t)) w
  refine ⟨answer, table, hrun, ?_⟩
  cases hresult with
  | fails e => exact .inl ⟨by simp, rfl⟩
  | findsNothing => exact .inl ⟨by simp, rfl⟩
  | answers =>
    cases hb : (f w.store.table).1 with
    | true => exact .inr ⟨by simp [hb], Prod.ext hb rfl⟩
    | false => exact .inl ⟨by simp [hb], refused _ hb⟩

/-- A swap leaves the table, or it writes the value of a variable and answers the one before. -/
theorem run_swap (d : Disturbances) (name value : String) (w : World ε) :
    ∃ answer table, (swap d name value).run w = (answer, w.called table) ∧
      ((table = w.store.table ∧ ∀ previous, answer ≠ .ok (some previous)) ∨
        ∃ v, w.store.table.get? name = some v ∧ answer = .ok (some v.value) ∧
          table = w.store.table.written name v value) := by
  obtain ⟨answer, table, hrun, hresult⟩ := run_call (ε := ε) d (.setValue name) none
    (fun t => (.ok (t.setValue name value).1, (t.setValue name value).2)) w
  refine ⟨answer, table, hrun, ?_⟩
  cases hresult with
  | fails e => exact .inl ⟨rfl, by simp⟩
  | findsNothing => exact .inl ⟨rfl, by simp⟩
  | answers =>
    cases hrow : w.store.table.get? name with
    | none => exact .inl (by simp [VariableTable.setValue, hrow])
    | some v => exact .inr ⟨v, rfl, by simp [VariableTable.setValue, VariableTable.written, hrow]⟩

/-- An increment leaves the table, or it writes the sum, which is finite. -/
theorem run_increment (d : Disturbances) (name : String) (delta : Float) (w : World ε) :
    ∃ answer table, (increment d name delta).run w = (answer, w.called table) ∧
      ((table = w.store.table ∧ ∀ x, answer ≠ .ok (some x)) ∨
        ∃ v current, w.store.table.get? name = some v ∧ Number.parse? v.value = some current ∧
          Number.isFinite (current + delta) ∧ answer = .ok (some (current + delta)) ∧
          table = w.store.table.written name v (Number.format (current + delta))) := by
  obtain ⟨answer, table, hrun, hresult⟩ := run_call (ε := ε) d (.increment name) none
    (fun t => t.increment name delta) w
  refine ⟨answer, table, hrun, ?_⟩
  cases hresult with
  | fails e => exact .inl ⟨rfl, by simp⟩
  | findsNothing => exact .inl ⟨rfl, by simp⟩
  | answers =>
    unfold VariableTable.increment
    cases hrow : w.store.table.get? name with
    | none => exact .inl ⟨rfl, by simp⟩
    | some v =>
      cases hvalue : Number.parse? v.value with
      | none => exact .inl (by simp [hvalue])
      | some current =>
        by_cases hfinite : Number.isFinite (current + delta)
        · exact .inr ⟨v, current, rfl, hvalue, hfinite, by simp [hvalue, hfinite],
            by simp [hvalue, hfinite, VariableTable.written]⟩
        · exact .inl (by simp [hvalue, hfinite])

/-- A mutation of a variable makes a change: the value before and after. A sum counts only if it is
finite; the value before it is worked back from the sum. -/
def Mutation.Makes (v : CustomVariable) (change : VariableChange) : Mutation → Prop
  | .add delta => ∃ current, Number.parse? v.value = some current ∧
      Number.isFinite (current + delta) ∧
      change = ⟨Number.format (current + delta - delta), Number.format (current + delta)⟩
  | .set value => change = ⟨v.value, value⟩

/-- A write leaves the table, or it writes the value of the change that it answers. -/
theorem run_write (d : Disturbances) (name : String) (m : Mutation) (w : World ε) :
    ∃ answer table, (write d name m).run w = (answer, w.called table) ∧
      ((table = w.store.table ∧ ∀ change, answer ≠ .ok (some change)) ∨
        ∃ v change, w.store.table.get? name = some v ∧ m.Makes v change ∧
          answer = .ok (some change) ∧ table = w.store.table.written name v change.newValue) := by
  cases m with
  | add delta =>
    obtain ⟨answer, table, hrun, hresult⟩ := run_increment d name delta w
    refine ⟨answer.map (·.map fun x => ⟨Number.format (x - delta), Number.format x⟩), table, ?_, ?_⟩
    · simp only [write, bind_eq, run_bind]
      rw [hrun]
      cases answer <;> rfl
    · obtain ⟨htable, hanswer⟩ | ⟨v, current, hrow, hvalue, hfinite, rfl, htable⟩ := hresult
      · refine .inl ⟨htable, ?_⟩
        match answer with
        | .error e => simp [Except.map]
        | .ok none => simp [Except.map]
        | .ok (some x) => exact absurd rfl (hanswer x)
      · exact .inr ⟨v, _, hrow, ⟨current, hvalue, hfinite, rfl⟩, rfl, htable⟩
  | set value =>
    obtain ⟨answer, table, hrun, hresult⟩ := run_swap d name value w
    refine ⟨answer.map (·.map fun old => ⟨old, value⟩), table, ?_, ?_⟩
    · simp only [write, bind_eq, run_bind]
      rw [hrun]
      cases answer <;> rfl
    · obtain ⟨htable, hanswer⟩ | ⟨v, hrow, rfl, htable⟩ := hresult
      · refine .inl ⟨htable, ?_⟩
        match answer with
        | .error e => simp [Except.map]
        | .ok none => simp [Except.map]
        | .ok (some old) => exact absurd rfl (hanswer old)
      · exact .inr ⟨v, ⟨v.value, value⟩, hrow, rfl, rfl, htable⟩

/-! ## Whole operations -/

section Operations

variable (d : Disturbances) (w : World ε)

/-- Creating a variable fails and changes nothing, or adds a variable without fault under a name
that was free. -/
theorem run_create (request : CreateVariable) :
    let r := (create d request).run w
    let v := request.variableOf
    (r.2.records = w.records ∧ ∃ e, r.1 = .error e) ∨
      (r.1 = .ok v ∧ v.fault? = none ∧ w.store.table.get? v.name = none ∧
        r.2.records = (⟨w.store.table.rows.insert v.name v⟩, w.store.history)) := by
  intro r v
  cases hfault : v.fault? with
  | some fault =>
    have hr : r = (.error fault, w) := by simp [r, create, v, hfault]
    exact .inl ⟨by rw [hr], fault, by rw [hr]⟩
  | none =>
    obtain ⟨answer, table, hrun, hresult⟩ := run_attempt d (.insert v.name) (f := (·.insert v))
      (fun t => by unfold VariableTable.insert; split <;> simp) w
    simp only [r, create, v, hfault, bind_eq, run_bind]
    rw [hrun]
    match answer, hresult with
    | .error e, .inl ⟨_, htable⟩ => exact .inl ⟨by simp [htable, World.records], _, rfl⟩
    | .ok false, .inl ⟨_, htable⟩ => exact .inl ⟨by simp [htable, World.records], _, rfl⟩
    | .ok true, .inr ⟨_, hinsert⟩ =>
      unfold VariableTable.insert at hinsert
      split at hinsert
      · simp at hinsert
      · obtain ⟨-, rfl⟩ := Prod.mk.inj hinsert
        exact .inr ⟨rfl, trivial, ‹_›, rfl⟩

/-- Updating a variable fails and changes nothing, or replaces the variable by one without fault. -/
theorem run_update (name : String) (request : UpdateVariable) :
    let r := (update d name request).run w
    (r.2.records = w.records ∧ ∃ e, r.1 = .error e) ∨
      ∃ v, w.store.table.get? name = some v ∧ r.1 = .ok (request.apply v) ∧
        (request.apply v).fault? = none ∧
        r.2.records =
          (⟨w.store.table.rows.insert v.name (request.apply v)⟩, w.store.history) := by
  intro r
  obtain ⟨found, hget, hfound⟩ := run_get d name w
  simp only [r, update, bind_eq, run_bind]
  rw [hget]
  match found, hfound with
  | .error e, _ => exact .inl ⟨rfl, e, rfl⟩
  | .ok v, hfound =>
    cases hfault : (request.apply v).fault? with
    | some fault => exact .inl (by simp [hfault, World.records])
    | none =>
      obtain ⟨answer, table, hrun, hresult⟩ := run_attempt d (.replace (request.apply v).name)
        (f := (·.replace (request.apply v)))
        (fun t => by unfold VariableTable.replace; split <;> simp) (w.called w.store.table)
      simp only [hfault, run_bind]
      rw [hrun]
      match answer, hresult with
      | .error e, .inl ⟨_, htable⟩ => exact .inl ⟨by simp [htable, World.records], _, rfl⟩
      | .ok false, .inl ⟨_, htable⟩ => exact .inl ⟨by simp [htable, World.records], _, rfl⟩
      | .ok true, .inr ⟨_, hreplace⟩ =>
        unfold VariableTable.replace at hreplace
        split at hreplace
        · obtain ⟨-, rfl⟩ := Prod.mk.inj hreplace
          exact .inr ⟨v, hfound v rfl, rfl, hfault, rfl⟩
        · simp at hreplace

/-- Setting a value fails and changes nothing, or stores a text that the kind of the variable admits
and notes the change; even then it fails if the variable cannot be read again afterwards. -/
theorem run_setValue (name value actor : String) :
    let r := (setValue d name value actor).run w
    (r.2.records = w.records ∧ ∃ e, r.1 = .error e) ∨
      ∃ v text, w.store.table.get? name = some v ∧ storedText? v.kind value = some text ∧
        (r.1 = .ok { v with value := text } ∨
          (d (w.store.calls + 2) (.get name) ≠ none ∧ ∃ e, r.1 = .error e)) ∧
        r.2.records = (w.store.table.written name v text,
          w.store.history.record name actor ⟨v.value, text⟩ w.clock) := by
  intro r
  cases hkind : w.store.kind with
  -- no call reaches the server, so that nothing is found
  | redis =>
    have hfetch := run_call_of_redis hkind d (.get name) none fun t => (.ok (t.get? name), t)
    have hr : r = (.error (.backend .unreachable), w.called w.store.table) := by
      simp only [r, setValue, get, fetch, bind_eq, run_bind]
      rw [hfetch]
      rfl
    exact .inl (by rw [hr]; exact ⟨rfl, _, rfl⟩)
  | memory =>
    obtain ⟨found, hget, hfound⟩ := run_get d name w
    simp only [r, setValue, bind_eq, run_bind]
    rw [hget]
    match found, hfound with
    | .error e, _ => exact .inl ⟨rfl, e, rfl⟩
    | .ok v, hfound =>
      have hrow := hfound v rfl
      dsimp only
      cases htext : storedText? v.kind value with
      | none => exact .inl ⟨rfl, _, rfl⟩
      | some text =>
        obtain ⟨answer, table, hswap, hresult⟩ := run_swap d name text (w.called w.store.table)
        simp only [run_bind]
        rw [hswap]
        obtain ⟨htable, hanswer⟩ | ⟨u, hu, rfl, rfl⟩ := hresult
        · have hrecords : ((w.called w.store.table).called table).records = w.records := by
            simp [htable, World.records]
          match answer with
          | .error e => exact .inl ⟨hrecords, _, rfl⟩
          | .ok none => exact .inl ⟨hrecords, _, rfl⟩
          | .ok (some previous) => exact absurd rfl (hanswer previous)
        -- the variable that is written is the one that was read, as nobody comes between
        · obtain rfl : u = v := by simpa [hrow] using hu.symm
          simp only [run_bind, run_note]
          exact .inr ⟨u, text, hrow, htext, run_get_of_memory d (by simpa using hkind) (by simp)⟩

/-- Deleting a variable fails and changes nothing, or removes the variable and its history. -/
theorem run_delete (name : String) :
    let r := (delete d name).run w
    (r.2.records = w.records ∧ ∃ e, r.1 = .error e) ∨
      (r.1 = .ok () ∧ (w.store.table.get? name).isSome ∧
        r.2.records = (⟨w.store.table.rows.erase name⟩, w.store.history.clear name)) := by
  intro r
  obtain ⟨answer, table, hrun, hresult⟩ := run_attempt d (.delete name) (f := (·.delete name))
    (fun t => by unfold VariableTable.delete; split <;> simp) w
  simp only [r, delete, bind_eq, run_bind]
  rw [hrun]
  match answer, hresult with
  | .error e, .inl ⟨_, htable⟩ => exact .inl ⟨by simp [htable, World.records], _, rfl⟩
  | .ok false, .inl ⟨_, htable⟩ => exact .inl ⟨by simp [htable, World.records], _, rfl⟩
  | .ok true, .inr ⟨_, hdelete⟩ =>
    unfold VariableTable.delete at hdelete
    split at hdelete
    · obtain ⟨-, rfl⟩ := Prod.mk.inj hdelete
      exact .inr ⟨rfl, by simp [*], rfl⟩
    · simp at hdelete

/-- Resolving a reference changes nothing and shows at most the stored text, or it makes one change
to a variable that the sender may write, with an operand that fits it, and notes the change; then it
succeeds. -/
theorem run_resolve_answer (name : String) (operand : Option String) (c : Capabilities)
    (silent : Bool) :
    let r := (resolve d name operand c silent).run w
    (r.2.records = w.records ∧ ∀ resolution, r.1 = .ok (some resolution) →
      ∃ v, w.store.table.get? name = some v ∧ resolution = { display := v.value }) ∨
      ∃ v op m change, w.store.table.get? name = some v ∧ trimmedOperand operand = some op ∧
        isWritable v c ∧ mutation? v op = some m ∧ m.Makes v change ∧
        r.1 = .ok (some (shown { v with name } w.store.announcement change c silent)) ∧
        r.2.records = (w.store.table.written name v change.newValue,
          w.store.history.record name c.username change w.clock) := by
  intro r
  obtain ⟨found, hget, hfound⟩ := run_fetch d name w
  simp only [r, resolve, bind_eq, run_bind]
  rw [hget]
  match found, hfound with
  | .error e, _ => exact .inl ⟨rfl, by simp⟩
  | .ok none, _ => exact .inl ⟨rfl, by simp⟩
  | .ok (some v), hfound =>
    have hrow := hfound v rfl
    have hunchanged (resolution : Resolution)
        (h : Except.ok (ε := VariableError) (some { display := v.value }) =
          .ok (some resolution)) :
        ∃ u, w.store.table.get? name = some u ∧ resolution = { display := u.value } :=
      ⟨v, hrow, by cases h; rfl⟩
    dsimp only
    cases hoperand : trimmedOperand operand with
    | none => exact .inl ⟨rfl, hunchanged⟩
    | some op =>
      dsimp only
      by_cases hwritable : isWritable v c
      · rw [if_neg (by simpa using hwritable)]
        cases hmutation : mutation? v op with
        | none => exact .inl ⟨rfl, hunchanged⟩
        | some m =>
          obtain ⟨answer, table, hrun, hresult⟩ := run_write d name m (w.called w.store.table)
          simp only [run_bind]
          rw [hrun]
          obtain ⟨htable, hanswer⟩ | ⟨u, change, hu, hmakes, rfl, rfl⟩ := hresult
          · refine .inl ?_
            have hrecords : ((w.called w.store.table).called table).records = w.records := by
              simp [htable, World.records]
            match answer, m with
            | .error (.notNumeric _), .add _ => exact ⟨hrecords, hunchanged⟩
            | .error (.notNumeric _), .set _ => exact ⟨hrecords, by simp⟩
            | .error (.unavailable _), _ => exact ⟨hrecords, by simp⟩
            | .error .unreachable, _ => exact ⟨hrecords, by simp⟩
            | .ok none, _ => exact ⟨hrecords, by simp⟩
            | .ok (some change), _ => exact absurd rfl (hanswer change)
          · obtain rfl : u = v := by simpa [hrow] using hu.symm
            exact .inr ⟨u, op, m, change, hrow, rfl, hwritable, hmutation, hmakes, rfl, rfl⟩
      · rw [if_pos (by simpa using hwritable)]
        exact .inl ⟨rfl, hunchanged⟩

/-- Resolving a reference changes nothing, or it makes one change to a variable that the sender may
write, with an operand that fits it, and notes the change; then it succeeds. -/
theorem run_resolve (name : String) (operand : Option String) (c : Capabilities) (silent : Bool) :
    let r := (resolve d name operand c silent).run w
    r.2.records = w.records ∨
      ∃ v op m change, w.store.table.get? name = some v ∧ trimmedOperand operand = some op ∧
        isWritable v c ∧ mutation? v op = some m ∧ m.Makes v change ∧
        r.1 = .ok (some (shown { v with name } w.store.announcement change c silent)) ∧
        r.2.records = (w.store.table.written name v change.newValue,
          w.store.history.record name c.username change w.clock) :=
  (run_resolve_answer d w name operand c silent).imp_left And.left

end Operations

/-! ## Operations as data -/

/-- An operation that may change variables, with what it is given. -/
inductive Operation where
  | create (request : CreateVariable)
  | update (name : String) (request : UpdateVariable)
  | setValue (name value actor : String)
  | resolve (name : String) (operand : Option String) (c : Capabilities) (silent : Bool)
  | delete (name : String)

/-- The program with nothing but its error for an answer. -/
def settled {α : Type} (p : Activity ε (Except VariableError α)) :
    Activity ε (Except VariableError Unit) := do
  return (← p).map fun _ => ()

/-- A settled program answers its error, and leaves what the program leaves. -/
theorem run_settled {α : Type} (p : Activity ε (Except VariableError α)) (w : World ε) :
    (settled p).run w = ((p.run w).1.map fun _ => (), (p.run w).2) := by
  simp only [settled, bind_eq, run_bind]
  rfl

/-- Carries an operation out, and says whether it failed. -/
def Operation.perform (d : Disturbances) : Operation → Activity ε (Except VariableError Unit)
  | .create request => settled (Variables.create d request)
  | .update name request => settled (Variables.update d name request)
  | .setValue name value actor => settled (Variables.setValue d name value actor)
  | .resolve name operand c silent => settled (Variables.resolve d name operand c silent)
  | .delete name => Variables.delete d name

end Variables

end ChatBot
