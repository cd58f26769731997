import ChatBot.Proofs.Changelog.Recent
import ChatBot.Proofs.Variables.Changes
import ChatBot.Proofs.Variables.Validity
import ChatBot.Proofs.Variables.Writes

/-!
# The history of a variable and its life

Variables are held by the backend, and their history by a changelog beside it. The *life* of a
variable is the list of the writes that have reached the backend since it was created. Main
statement: whatever operations there are, and whichever calls to the backend go wrong, the history
of a variable is its life, cut down by the retention policy and by nothing else, and names without a
variable have no history (`history_of_chronicle`).
-/

set_option autoImplicit false

namespace ChatBot.Variables

open Changelog Stepwise

variable {ε : Type}

/-! ## Operations take no time -/

/-- A program that keeps the clock does so with nothing but its error for an answer. -/
theorem keeps_clock_settled {α : Type} {p : Activity ε (Except VariableError α)}
    (h : p.Keeps World.clock) : (settled p).Keeps World.clock :=
  keeps_bind h fun _ => keeps_done _

/-- Creating a variable keeps the clock. -/
theorem keeps_clock_create (d : Disturbances) (request : CreateVariable) :
    (create (ε := ε) d request).Keeps World.clock := by
  unfold create
  dsimp only
  split
  · exact keeps_done _
  · refine keeps_bind (keeps_call (fun _ _ => rfl) d _ _ _) fun answer => ?_
    split <;> exact keeps_done _

/-- Updating a variable keeps the clock. -/
theorem keeps_clock_update (d : Disturbances) (name : String) (request : UpdateVariable) :
    (update (ε := ε) d name request).Keeps World.clock := by
  refine keeps_bind (writeSteps_keeps_clock d name).get fun answer => ?_
  split
  · exact keeps_done _
  dsimp only
  split
  · exact keeps_done _
  refine keeps_bind (keeps_call (fun _ _ => rfl) d _ _ _) fun answer => ?_
  split <;> exact keeps_done _

/-- Deleting a variable keeps the clock. -/
theorem keeps_clock_delete (d : Disturbances) (name : String) :
    (delete (ε := ε) d name).Keeps World.clock := by
  refine keeps_bind (keeps_call (fun _ _ => rfl) d _ _ _) fun answer => ?_
  split
  · exact keeps_done _
  · exact keeps_done _
  · exact keeps_bind (keeps_change fun _ => rfl) fun _ => keeps_done _

/-- No operation changes the clock. -/
theorem keeps_clock_perform (d : Disturbances) (op : Operation) :
    (op.perform (ε := ε) d).Keeps World.clock := by
  cases op with
  | create request => exact keeps_clock_settled (keeps_clock_create d request)
  | update name request => exact keeps_clock_settled (keeps_clock_update d name request)
  | setValue name value actor => exact keeps_clock_settled (keeps_clock_setValue d name value actor)
  | resolve name operand c silent =>
    exact keeps_clock_settled (keeps_clock_resolve d name operand c silent)
  | delete name => exact keeps_clock_delete d name

/-! ## Lives -/

/-- The lives of variables after an operation: one that is created starts anew, and a write that
reaches the backend is added. -/
def Operation.livesAfter (d : Disturbances) (w : World ε) (op : Operation)
    (lives : Timelines VariableChange) : Timelines VariableChange :=
  match op with
  | .create request =>
    if ((Variables.create d request).run w).1.isOk then lives.set request.variableOf.name []
    else lives
  | op =>
    match op.write? d w with
    | some x => lives.set x.name (lives x.name ++ [⟨x.change, x.actor, w.clock⟩])
    | none => lives

/-- The states that a store comes to from the beginning, by operations that succeed or fail, with
the lives of its variables. In between time passes, and all but the variables and their history may
change. -/
inductive Chronicle : World ε → Timelines VariableChange → Prop
  | empty {w : World ε} (htable : w.store.table = {}) (hlogs : w.store.history.logs = ∅) :
      Chronicle w fun _ => []
  | operation {w : World ε} {lives : Timelines VariableChange} (h : Chronicle w lives)
      (d : Disturbances) (op : Operation) :
      Chronicle ((op.perform d).run w).2 (op.livesAfter d w lives)
  | elsewhere {w w' : World ε} {lives : Timelines VariableChange} (h : Chronicle w lives)
      (hrecords : w'.records = w.records) (hclock : w.clock ≤ w'.clock) : Chronicle w' lives

/-! ## What holds along the way -/

/-- Every variable stands under its name, there is no history without a variable, and the history
of each variable retains its life. -/
structure Remembered (w : World ε) (lives : Timelines VariableChange) : Prop where
  valid : w.store.table.Valid
  tidy : Tidy w
  retained : ∀ name, (w.store.table.get? name).isSome →
    Retains w.store.history.retention w.clock (w.store.history.held name) (lives name)

section Remembered

variable {w w' : World ε} {lives : Timelines VariableChange}

/-- An empty store remembers lives in which nothing has happened. -/
theorem Remembered.empty (htable : w.store.table = {}) (hlogs : w.store.history.logs = ∅) :
    Remembered w fun _ => [] := by
  have hrow (name : String) : w.store.table.get? name = none := by
    simp [htable, VariableTable.get?]
  refine ⟨htable ▸ VariableTable.valid_empty, ?_, ?_⟩
  · intro name _
    simp [Changelog.held, hlogs]
  · intro name hname
    rw [hrow] at hname
    cases hname

/-- What happens elsewhere, and the time that passes, leave what is remembered. -/
theorem Remembered.elsewhere (h : Remembered w lives) (hrecords : w'.records = w.records)
    (hclock : w.clock ≤ w'.clock) : Remembered w' lives := by
  obtain ⟨htable, hhistory⟩ := Prod.mk.inj hrecords
  refine ⟨htable ▸ h.valid, h.tidy.of_records hrecords, ?_⟩
  intro name hname
  rw [htable] at hname
  rw [hhistory]
  exact (h.retained name hname).mono hclock

/-- What is left to show of an operation is that it retains the lives. -/
theorem Remembered.perform (h : Remembered w lives) (d : Disturbances) (op : Operation)
    {lives' : Timelines VariableChange}
    (hretained : let r := ((op.perform d).run w).2
      ∀ name, (r.store.table.get? name).isSome →
        Retains r.store.history.retention w.clock (r.store.history.held name) (lives' name)) :
    Remembered ((op.perform d).run w).2 lives' := by
  refine ⟨valid_perform d op h.valid, tidy_perform d op h.tidy, ?_⟩
  rw [(keeps_clock_perform d op).run w]
  exact hretained

/-- Nothing is to be shown where nothing has changed. -/
theorem Remembered.retained_of_records (h : Remembered w lives) (hrecords : w'.records = w.records)
    (name : String) (hname : (w'.store.table.get? name).isSome) :
    Retains w'.store.history.retention w.clock (w'.store.history.held name) (lives name) := by
  obtain ⟨htable, hhistory⟩ := Prod.mk.inj hrecords
  rw [htable] at hname
  rw [hhistory]
  exact h.retained name hname

/-- A write is noted in the history of its variable, and in no other. -/
theorem Remembered.retained_of_write (h : Remembered w lives) {write : Write}
    (hrecords : w'.records = recordsAfter w (some write)) (name : String)
    (hname : (w'.store.table.get? name).isSome) :
    Retains w'.store.history.retention w.clock (w'.store.history.held name)
      (lives.set write.name (lives write.name ++ [⟨write.change, write.actor, w.clock⟩]) name) := by
  obtain ⟨htable, hhistory⟩ := Prod.mk.inj hrecords
  rw [htable, VariableTable.isSome_get?_setValue] at hname
  have hretained := h.retained name hname
  rw [hhistory]
  by_cases hself : name = write.name
  · rw [hself, held_record, Timelines.set_self]
    exact (hself ▸ hretained).record rfl
  · rw [held_record_of_ne _ hself, Timelines.set_of_ne _ hself]
    exact hretained

end Remembered

section Operations

variable (d : Disturbances) {w : World ε} {lives : Timelines VariableChange}

/-- A created variable starts a life without a past. -/
theorem remembered_create (h : Remembered w lives) (request : CreateVariable) :
    Remembered (((Operation.create request).perform d).run w).2
      ((Operation.create request).livesAfter d w lives) := by
  refine h.perform d _ ?_
  intro r name hname
  have hr : r = ((create d request).run w).2 := by
    simp only [r, Operation.perform, run_settled]
  rcases run_create d w request with ⟨hrecords, e, herror⟩ | ⟨hok, -, hfree, hrecords⟩
  · have hlives : (Operation.create request).livesAfter d w lives = lives := by
      simp [Operation.livesAfter, herror, Except.isOk, Except.toBool]
    rw [hlives]
    exact h.retained_of_records (hr ▸ hrecords) name hname
  · have hlives : (Operation.create request).livesAfter d w lives =
        lives.set request.variableOf.name [] := by
      simp [Operation.livesAfter, hok, Except.isOk, Except.toBool]
    obtain ⟨htable, hhistory⟩ := Prod.mk.inj (hr ▸ hrecords)
    rw [hlives, hhistory]
    by_cases hself : name = request.variableOf.name
    · -- the name was free, and so there was no history
      rw [hself, Timelines.set_self, h.tidy _ hfree]
      exact .nil
    · rw [htable, VariableTable.get?, Std.ExtTreeMap.getElem?_insert,
        if_neg (by simpa using Ne.symm hself)] at hname
      rw [Timelines.set_of_ne _ hself]
      exact h.retained name hname

/-- An update leaves the lives as they were. -/
theorem remembered_update (h : Remembered w lives) (name : String) (request : UpdateVariable) :
    Remembered (((Operation.update name request).perform d).run w).2 lives := by
  refine h.perform d _ ?_
  intro r other hother
  have hr : r = ((update d name request).run w).2 := by
    simp only [r, Operation.perform, run_settled]
  rcases run_update d w name request with ⟨hrecords, -⟩ | ⟨v, hrow, -, -, hrecords⟩
  · exact h.retained_of_records (hr ▸ hrecords) other hother
  · obtain ⟨htable, hhistory⟩ := Prod.mk.inj (hr ▸ hrecords)
    rw [hhistory]
    refine h.retained other ?_
    by_cases hself : other = v.name
    · -- the variable that is replaced was there before
      rw [hself, (h.valid name v hrow).1, hrow]
      rfl
    · rw [htable, VariableTable.get?, Std.ExtTreeMap.getElem?_insert,
        if_neg (by simpa using Ne.symm hself)] at hother
      exact hother

/-- A deleted variable ends its life. -/
theorem remembered_delete (h : Remembered w lives) (name : String) :
    Remembered (((Operation.delete name).perform d).run w).2 lives := by
  refine h.perform d _ ?_
  intro r other hother
  have hr : r = ((delete d name).run w).2 := rfl
  rcases run_delete d w name with ⟨hrecords, -⟩ | ⟨-, -, hrecords⟩
  · exact h.retained_of_records (hr ▸ hrecords) other hother
  · obtain ⟨htable, hhistory⟩ := Prod.mk.inj (hr ▸ hrecords)
    rw [htable, VariableTable.get?, Std.ExtTreeMap.getElem?_erase] at hother
    split at hother
    · cases hother
    · next hself =>
      have hne : other ≠ name := by
        rintro rfl
        simp at hself
      rw [hhistory, held_clear_of_ne _ hne]
      exact h.retained other hother

/-- A write adds its change to the life of the variable. -/
theorem remembered_writes (h : Remembered w lives) {op : Operation} (hop : op.Writes) :
    Remembered ((op.perform d).run w).2 (op.livesAfter d w lives) := by
  have hrecords := records_perform_of_writes d w hop
  have hlives : op.livesAfter d w lives = match op.write? d w with
      | some x => lives.set x.name (lives x.name ++ [⟨x.change, x.actor, w.clock⟩])
      | none => lives := by
    cases op with
    | create => cases hop
    | _ => rfl
  refine h.perform d op ?_
  intro r name hname
  rw [hlives]
  cases hwrite : op.write? d w with
  | none =>
    rw [hwrite] at hrecords
    exact h.retained_of_records hrecords name hname
  | some write =>
    rw [hwrite] at hrecords
    exact h.retained_of_write hrecords name hname

/-- Every operation is remembered. -/
theorem remembered_perform (h : Remembered w lives) (op : Operation) :
    Remembered ((op.perform d).run w).2 (op.livesAfter d w lives) := by
  cases op with
  | create request => exact remembered_create d h request
  | update name request => exact remembered_update d h name request
  | setValue name value actor => exact remembered_writes d h trivial
  | resolve name operand c silent => exact remembered_writes d h trivial
  | delete name => exact remembered_delete d h name

end Operations

/-- In all states of a chronicle, the lives are remembered. -/
theorem Chronicle.remembered {w : World ε} {lives : Timelines VariableChange}
    (h : Chronicle w lives) : Remembered w lives := by
  induction h with
  | empty htable hlogs => exact .empty htable hlogs
  | operation _ d op ih => exact remembered_perform d ih op
  | elsewhere _ hrecords hclock ih => exact ih.elsewhere hrecords hclock

/-- **The history of a variable is its life.** From an empty store on there are any operations,
whichever calls to the backend go wrong, while the clock does not go backwards. Then a name has a
history only if the variable exists, and its history consists of the writes that have reached the
backend since it was created, one entry for each, in their order: of those that have not expired the
most recent, as many as are kept at most. A variable that is created, for the first time or again,
starts without a history. The writes are those that change the variables: setting a value and
resolving a reference leave the table with the write that they stand for, or as it was. -/
theorem history_of_chronicle {w : World ε} {lives : Timelines VariableChange}
    (h : Chronicle w lives) (name : String) :
    let shown := ((history name).run w).1
    let r := w.store.history.retention
    (shown ≠ [] → (w.store.table.get? name).isSome) ∧
      ((w.store.table.get? name).isSome → shown = r.recent (r.live w.clock (lives name))) ∧
      (∀ d request v, ((create d request).run w).1 = .ok v →
        let w' := ((create d request).run w).2
        ((history v.name).run w').1 = [] ∧
          (Operation.create request).livesAfter d w lives v.name = []) ∧
      ∀ d (op : Operation), op.Writes → ((op.perform d).run w).2.store.table =
        match op.write? d w with
        | some x => (w.store.table.setValue x.name x.change.newValue).2
        | none => w.store.table := by
  intro shown r
  have hremembered := h.remembered
  have hshown : shown = r.live w.clock (w.store.history.held name) := rfl
  refine ⟨?_, ?_, ?_, ?_⟩
  · intro hne
    cases hrow : w.store.table.get? name with
    | some v => rfl
    | none =>
      rw [hshown, hremembered.tidy name hrow] at hne
      exact absurd rfl hne
  · intro hname
    exact (hremembered.retained name hname).live_eq
  · intro d request v hcreated
    rcases run_create d w request with ⟨-, e, herror⟩ | ⟨hok, -, hfree, hrecords⟩
    · rw [herror] at hcreated
      cases hcreated
    · obtain rfl : request.variableOf = v := by
        rw [hok] at hcreated
        exact Except.ok.inj hcreated
      have hheld :
          ((create d request).run w).2.store.history.held request.variableOf.name = [] := by
        rw [(Prod.mk.inj hrecords).2]
        exact hremembered.tidy _ hfree
      refine ⟨?_, by simp [Operation.livesAfter, hok, Except.isOk, Except.toBool]⟩
      rw [history, run_read, entries_eq_live, hheld]
      rfl
  · intro d op hop
    have htable := (Prod.mk.inj (records_perform_of_writes d w hop)).1
    rw [htable]
    cases op.write? d w <;> rfl

/-! ## A life of gold -/

namespace Gold

def coining : Operation := .create request

def raise : Operation := .resolve "$_gold" (some "+") alice false

def gift : Operation := .setValue "$_gold" "7" "bob"

def coined : World Unit :=
  ((coining.perform undisturbed).run start).2

def risen : World Unit :=
  ((raise.perform undisturbed).run coined).2

/-- The hoard of two pieces an hour later. -/
def kept : World Unit :=
  { risen with clock := 3600000 }

/-- The life of the hoard when it has been set to seven pieces. -/
def life : Timelines VariableChange :=
  gift.livesAfter undisturbed kept
    (raise.livesAfter undisturbed coined (coining.livesAfter undisturbed start fun _ => []))

/-- Both writes are told by the history. -/
theorem history_of_gift :
    let w := ((gift.perform undisturbed).run kept).2
    Chronicle w life ∧ (w.store.table.get? "$_gold").isSome ∧
      (life "$_gold").map ChangeEntry.change = [⟨"1", "2"⟩, ⟨"2", "7"⟩] ∧
      ((history "$_gold").run w).1.map ChangeEntry.change = [⟨"1", "2"⟩, ⟨"2", "7"⟩] := by
  intro w
  have hchronicle : Chronicle w life := by
    have hclock : risen.clock ≤ kept.clock := by decide +kernel
    have hcoined : Chronicle coined _ :=
      .operation (w := start) (.empty rfl rfl) undisturbed coining
    have hrisen : Chronicle risen _ := .operation hcoined undisturbed raise
    have hkept : Chronicle kept _ := .elsewhere hrisen rfl hclock
    exact .operation hkept undisturbed gift
  have hrow : (w.store.table.get? "$_gold").isSome := by decide +kernel
  refine ⟨hchronicle, hrow, by decide +kernel, ?_⟩
  rw [(history_of_chronicle hchronicle "$_gold").2.1 hrow]
  decide +kernel

end Gold

end ChatBot.Variables
