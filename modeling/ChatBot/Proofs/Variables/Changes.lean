import ChatBot.Proofs.Number.Whole
import ChatBot.Proofs.Stepwise
import ChatBot.Proofs.Variables.Operations
import ChatBot.Proofs.Variables.Steps

/-!
# What a change reports

A write to a variable makes a change known in three ways: in the history, in the notice that is sent
and in the text where the reference stands. All three come from one pair of an old and a new value.
The new value is the text that is stored. The old value is the text that was stored before, with one
exception: after an addition it is worked back from the sum, by taking the addend away again, and so
it may differ from the text in its notation or even in its value. For whole numbers of up to fifteen
digits it does not. Main statement: the changes of a variable lead from the value that it was
created with to the value that is stored, whatever writes there were (`reports_of_rewritten`).
-/

set_option autoImplicit false

namespace ChatBot

open Stepwise

variable {ε : Type}

namespace Variables

/-! ## Single changes -/

/-- A change of a variable reports the text that it replaces as the old value, or it is an addition
to a number, other than of whole numbers of up to fifteen digits, and reports what is left of the
sum when the addend is taken away again. -/
def Reports (kind : VariableKind) (text : String) (change : VariableChange) : Prop :=
  change.oldValue = text ∨
    ∃ current delta, kind = .number ∧ Number.parse? text = some current ∧
      ¬ Number.WholeSum text delta ∧
      change = ⟨Number.format (current + delta - delta), Number.format (current + delta)⟩

/-- Only numbers are added to. -/
theorem kind_of_mutation? {v : CustomVariable} {operand : String} {delta : Float}
    (h : mutation? v operand = some (.add delta)) : v.kind = .number := by
  unfold mutation? at h
  split at h
  · assumption
  · split at h <;> simp at h
  · cases h

/-- A mutation reports the text that it replaces, unless it is an addition that is not of whole
numbers. -/
theorem reports_of_makes {v : CustomVariable} {operand : String} {m : Mutation}
    {change : VariableChange} (h : mutation? v operand = some m) (hmakes : m.Makes v change) :
    Reports v.kind v.value change := by
  cases m with
  | set value => exact .inl (congrArg VariableChange.oldValue hmakes)
  | add delta =>
    obtain ⟨current, hcurrent, -, rfl⟩ := hmakes
    by_cases hwhole : Number.WholeSum v.value delta
    · exact .inl (Number.format_add_sub_of_wholeSum hwhole hcurrent)
    · exact .inr ⟨current, delta, kind_of_mutation? h, hcurrent, hwhole, rfl⟩

/-- Where the old value stands in the text, and in the notice if there is one, it is the one of the
change. -/
theorem shown_oldValue (v : CustomVariable) (announcement : String) (change : VariableChange)
    (c : Capabilities) (silent : Bool) :
    let shown := shown v announcement change c silent
    (v.responseType ≠ .inline → shown.display = change.oldValue) ∧
      ∀ notice, shown.notification = some notice →
        notice.oldValue = change.oldValue ∧ notice.newValue = change.newValue := by
  unfold shown
  dsimp only
  split
  · exact ⟨fun h => absurd ‹_› h, by simp⟩
  · cases silent <;> simp +contextual [notification]
  · cases silent <;> simp +contextual [notification]

/-! ## Writes -/

/-- The records after a change of a variable has been made and noted. -/
def changed (w : World ε) (v : CustomVariable) (actor : String) (change : VariableChange) :
    VariableTable × Changelog VariableChange :=
  (w.store.table.written v.name v change.newValue,
    w.store.history.record v.name actor change w.clock)

/-- Setting a value reports the text that it replaces. -/
theorem setValue_reports (d : Disturbances) {w : World ε} {v : CustomVariable}
    (hrow : w.store.table.get? v.name = some v) (value actor : String) :
    let r := (setValue d v.name value actor).run w
    (r.2.records = w.records ∧ ∃ e, r.1 = .error e) ∨
      ∃ change, change.oldValue = v.value ∧ r.2.records = changed w v actor change := by
  intro r
  rcases run_setValue d w v.name value actor with
    hfailed | ⟨u, text, hu, -, -, hrecords⟩
  · exact .inl hfailed
  · obtain rfl : u = v := by simpa [hrow] using hu.symm
    exact .inr ⟨⟨u.value, text⟩, rfl, hrecords⟩

/-- A reference changes nothing and shows at most the stored text, or it shows the old value that it
notes in the history. -/
theorem resolve_reports (d : Disturbances) {w : World ε} {v : CustomVariable}
    (hrow : w.store.table.get? v.name = some v) (operand : Option String) (c : Capabilities)
    (silent : Bool) :
    let r := (resolve d v.name operand c silent).run w
    (r.2.records = w.records ∧
      ∀ resolution, r.1 = .ok (some resolution) → resolution = { display := v.value }) ∨
      ∃ change resolution, Reports v.kind v.value change ∧
        r.2.records = changed w v c.username change ∧ r.1 = .ok (some resolution) ∧
        (v.responseType ≠ .inline → resolution.display = change.oldValue) ∧
        ∀ notice, resolution.notification = some notice →
          notice.oldValue = change.oldValue ∧ notice.newValue = change.newValue := by
  intro r
  rcases run_resolve_answer d w v.name operand c silent with
    ⟨hkept, hshown⟩ | ⟨u, op, m, change, hu, -, -, hmutation, hmakes, hanswer, hrecords⟩
  · refine .inl ⟨hkept, fun resolution hanswer => ?_⟩
    obtain ⟨u, hu, hresolution⟩ := hshown resolution hanswer
    obtain rfl : u = v := by simpa [hrow] using hu.symm
    exact hresolution
  · obtain rfl : u = v := by simpa [hrow] using hu.symm
    exact .inr ⟨change, _, reports_of_makes hmutation hmakes, hrecords, hanswer,
      shown_oldValue _ _ change c silent⟩

/-! ### Time -/

/-- Writes take no time. -/
theorem writeSteps_keeps_clock (d : Disturbances) (name : String) :
    WriteSteps (fun p : Activity ε _ => p.Keeps World.clock) d name :=
  writeSteps_keeps (fun _ _ => rfl) (fun _ _ => rfl) d name

/-- Setting a value takes no time. -/
theorem keeps_clock_setValue (d : Disturbances) (name value actor : String) :
    (setValue (ε := ε) d name value actor).Keeps World.clock :=
  (writeSteps_keeps_clock d name).setValue value actor

/-- Resolving a reference takes no time. -/
theorem keeps_clock_resolve (d : Disturbances) (name : String) (operand : Option String)
    (c : Capabilities) (silent : Bool) :
    (resolve (ε := ε) d name operand c silent).Keeps World.clock :=
  (writeSteps_keeps_clock d name).resolve operand c silent

/-! ## Courses of writes -/

/-- The changes lead from one text to another, each from the text that the one before has led to. -/
inductive Leads (kind : VariableKind) : String → List VariableChange → String → Prop where
  | nil (text : String) : Leads kind text [] text
  | cons {text last : String} {change : VariableChange} {changes : List VariableChange}
      (h : Reports kind text change) (hrest : Leads kind change.newValue changes last) :
      Leads kind text (change :: changes) last

/-- Changes that lead to a text go on with one that reports it. -/
theorem Leads.snoc {kind : VariableKind} {text last : String} {changes : List VariableChange}
    (h : Leads kind text changes last) {change : VariableChange}
    (hnext : Reports kind last change) : Leads kind text (changes ++ [change]) change.newValue := by
  induction h with
  | nil text => exact .cons hnext (.nil _)
  | cons hfirst _ ih => exact .cons hfirst (ih hnext)

/-- The states that a store comes to from the beginning, by operations that succeed or fail. In
between, all but the variables and their history may change. -/
inductive Lived : World ε → Prop
  | empty {w : World ε} (htable : w.store.table = {}) (hlogs : w.store.history.logs = ∅) : Lived w
  | operation {w : World ε} (h : Lived w) (d : Disturbances) (op : Operation) :
      Lived ((op.perform d).run w).2
  | elsewhere {w w' : World ε} (h : Lived w) (hrecords : w'.records = w.records) : Lived w'

/-- The states that come after a state by writes to one variable, by an administrator or through
references to it. In between, time passes and everything may change but the variable and its
history. -/
inductive Rewritten (name : String) (w : World ε) : World ε → Prop
  | refl : Rewritten name w w
  | set {w' : World ε} (h : Rewritten name w w') (d : Disturbances) (value actor : String) :
      Rewritten name w ((setValue d name value actor).run w').2
  | reference {w' : World ε} (h : Rewritten name w w') (d : Disturbances) (operand : Option String)
      (c : Capabilities) (silent : Bool) :
      Rewritten name w ((resolve d name operand c silent).run w').2
  | elsewhere {w' w'' : World ε} (h : Rewritten name w w')
      (hrow : w''.store.table.get? name = w'.store.table.get? name)
      (hheld : w''.store.history.held name = w'.store.history.held name)
      (hclock : w'.clock ≤ w''.clock) : Rewritten name w w''

/-! ## What holds along the way -/

/-- Names without a variable have no history. -/
def Tidy (w : World ε) : Prop :=
  ∀ name, w.store.table.get? name = none → w.store.history.held name = []

/-- Whether names without a variable have a history depends on the records alone. -/
theorem Tidy.of_records {w w' : World ε} (h : Tidy w) (hrecords : w'.records = w.records) :
    Tidy w' := by
  obtain ⟨htable, hhistory⟩ := Prod.mk.inj hrecords
  intro name
  rw [htable, hhistory]
  exact h name

/-- Adding or replacing a variable leaves no history without one. -/
theorem Tidy.of_insert {w w' : World ε} (h : Tidy w) {name : String} {v : CustomVariable}
    (hrecords : w'.records = (⟨w.store.table.rows.insert name v⟩, w.store.history)) :
    Tidy w' := by
  obtain ⟨htable, hhistory⟩ := Prod.mk.inj hrecords
  intro other hother
  rw [htable, VariableTable.get?, Std.ExtTreeMap.getElem?_insert] at hother
  rw [hhistory]
  split at hother
  · cases hother
  · exact h other hother

/-- Changing a variable leaves no history without one. -/
theorem Tidy.of_written {w w' : World ε} (h : Tidy w) {name actor value : String}
    {v : CustomVariable} {change : VariableChange}
    (hrecords : w'.records = (w.store.table.written name v value,
      w.store.history.record name actor change w.clock)) : Tidy w' := by
  obtain ⟨htable, hhistory⟩ := Prod.mk.inj hrecords
  intro other hother
  rw [htable] at hother
  have hne : other ≠ name := by
    rintro rfl
    simp at hother
  rw [VariableTable.get?_written_of_ne _ hne] at hother
  rw [hhistory, Changelog.held_record_of_ne _ hne]
  exact h other hother

/-- Removing a variable with its history leaves no history without a variable. -/
theorem Tidy.of_delete {w w' : World ε} (h : Tidy w) {name : String}
    (hrecords : w'.records = (⟨w.store.table.rows.erase name⟩, w.store.history.clear name)) :
    Tidy w' := by
  obtain ⟨htable, hhistory⟩ := Prod.mk.inj hrecords
  intro other hother
  rw [htable, VariableTable.get?, Std.ExtTreeMap.getElem?_erase] at hother
  rw [hhistory]
  by_cases hne : other = name
  · rw [hne, Changelog.held_clear]
  · rw [Changelog.held_clear_of_ne _ hne]
    refine h other ?_
    rwa [if_neg (by simpa using Ne.symm hne)] at hother

/-- No operation leaves a history without its variable. -/
theorem tidy_perform (d : Disturbances) (op : Operation) {w : World ε} (h : Tidy w) :
    Tidy ((op.perform d).run w).2 := by
  cases op with
  | create request =>
    rw [Operation.perform, run_settled]
    rcases run_create d w request with ⟨hrecords, -⟩ | ⟨-, -, -, hrecords⟩
    · exact h.of_records hrecords
    · exact h.of_insert hrecords
  | update name request =>
    rw [Operation.perform, run_settled]
    rcases run_update d w name request with ⟨hrecords, -⟩ | ⟨v, -, -, -, hrecords⟩
    · exact h.of_records hrecords
    · exact h.of_insert hrecords
  | setValue name value actor =>
    rw [Operation.perform, run_settled]
    rcases run_setValue d w name value actor with ⟨hrecords, -⟩ | ⟨v, text, -, -, -, hrecords⟩
    · exact h.of_records hrecords
    · exact h.of_written hrecords
  | resolve name operand c silent =>
    rw [Operation.perform, run_settled]
    rcases run_resolve d w name operand c silent with
      hrecords | ⟨v, op, m, change, -, -, -, -, -, -, hrecords⟩
    · exact h.of_records hrecords
    · exact h.of_written hrecords
  | delete name =>
    rw [Operation.perform]
    rcases run_delete d w name with ⟨hrecords, -⟩ | ⟨-, -, hrecords⟩
    · exact h.of_records hrecords
    · exact h.of_delete hrecords

/-- In every state that a store comes to, names without a variable have no history. -/
theorem Lived.tidy {w : World ε} (h : Lived w) : Tidy w := by
  induction h with
  | empty _ hlogs =>
    intro name _
    simp [Changelog.held, hlogs]
  | operation _ d op ih => exact tidy_perform d op ih
  | elsewhere _ hrecords ih => exact ih.of_records hrecords

/-- A variable has come from one value to another by changes, of which the history holds the latest,
in the order of their times. -/
structure Told (w : World ε) (v : CustomVariable) (text : String) : Prop where
  row : w.store.table.get? v.name = some { v with value := text }
  past : ∃ past : List (ChangeEntry VariableChange),
    Leads v.kind v.value (past.map ChangeEntry.change) text ∧
    w.store.history.held v.name <:+ past ∧
    (past.Pairwise fun e e' => e.recordedAt ≤ e'.recordedAt) ∧
    ∀ e ∈ past, e.recordedAt ≤ w.clock

/-- A variable that has just been created has not been changed. -/
theorem told_create {w : World ε} (h : Tidy w) {d : Disturbances} {request : CreateVariable}
    {v : CustomVariable} (hcreated : ((create d request).run w).1 = .ok v) :
    Told ((create d request).run w).2 v v.value := by
  rcases run_create d w request with ⟨-, e, herror⟩ | ⟨hanswer, -, hfree, hrecords⟩
  · rw [herror] at hcreated
    cases hcreated
  · rw [hanswer] at hcreated
    cases hcreated
    obtain ⟨htable, hhistory⟩ := Prod.mk.inj hrecords
    refine ⟨by simp [htable, VariableTable.get?], [], .nil _, ?_, .nil, by simp⟩
    rw [hhistory, h _ hfree]

/-- A change that reports what it replaces takes the story on. -/
theorem Told.changed {w w' : World ε} {v : CustomVariable} {text actor : String}
    {change : VariableChange} (h : Told w v text) (hreports : Reports v.kind text change)
    (hrecords : w'.records = changed w { v with value := text } actor change)
    (hclock : w.clock ≤ w'.clock) : Told w' v change.newValue := by
  obtain ⟨htable, hhistory⟩ := Prod.mk.inj hrecords
  obtain ⟨past, hleads, hheld, hsorted, hclocks⟩ := h.past
  have htimed : Changelog.Timed w'.clock (past ++ [⟨change, actor, w.clock⟩]) :=
    (Changelog.Timed.snoc ⟨hsorted, hclocks⟩ rfl).mono hclock
  refine ⟨by simp [htable], past ++ [⟨change, actor, w.clock⟩], ?_, ?_, htimed.ordered,
    htimed.past⟩
  · rw [List.map_append]
    exact hleads.snoc hreports
  · rw [hhistory]
    have hkept := (Changelog.trimmed_suffix w.store.history.retention w.clock _).trans hheld
    obtain ⟨dropped, rfl⟩ := hkept
    exact ⟨dropped, by simp⟩

/-- The story stays as it is where the variable and its history do. -/
theorem Told.elsewhere {w w' : World ε} {v : CustomVariable} {text : String} (h : Told w v text)
    (hrow : w'.store.table.get? v.name = w.store.table.get? v.name)
    (hheld : w'.store.history.held v.name = w.store.history.held v.name)
    (hclock : w.clock ≤ w'.clock) : Told w' v text := by
  obtain ⟨past, hleads, hpast, hsorted, hclocks⟩ := h.past
  exact ⟨hrow.trans h.row, past, hleads, hheld ▸ hpast, hsorted,
    fun e he => Nat.le_trans (hclocks e he) hclock⟩

/-- What the history tells stays so as time passes and the records stay. -/
theorem Told.of_records {w w' : World ε} {v : CustomVariable} {text : String} (h : Told w v text)
    (hrecords : w'.records = w.records) (hclock : w.clock ≤ w'.clock) : Told w' v text := by
  obtain ⟨htable, hhistory⟩ := Prod.mk.inj hrecords
  exact h.elsewhere (by rw [htable]) (by rw [hhistory]) hclock

/-- Writes take the story of a variable on. -/
theorem Rewritten.told {w₀ w : World ε} {v : CustomVariable} (h : Rewritten v.name w₀ w)
    (h₀ : Told w₀ v v.value) : ∃ text, Told w v text := by
  induction h with
  | refl => exact ⟨v.value, h₀⟩
  | @set w _ d value actor ih =>
    obtain ⟨text, htold⟩ := ih
    have hclock := (keeps_clock_setValue (ε := ε) d v.name value actor).run w
    rcases setValue_reports (v := { v with value := text }) d htold.row value actor with
      ⟨hrecords, -⟩ | ⟨change, hreports, hrecords⟩
    · exact ⟨text, htold.of_records hrecords hclock.ge⟩
    · exact ⟨_, htold.changed (.inl hreports) hrecords hclock.ge⟩
  | @reference w _ d operand c silent ih =>
    obtain ⟨text, htold⟩ := ih
    have hclock := (keeps_clock_resolve (ε := ε) d v.name operand c silent).run w
    rcases resolve_reports (v := { v with value := text }) d htold.row operand c silent with
      ⟨hrecords, -⟩ | ⟨change, resolution, hreports, hrecords, -⟩
    · exact ⟨text, htold.of_records hrecords hclock.ge⟩
    · exact ⟨_, htold.changed hreports hrecords hclock.ge⟩
  | elsewhere _ hrow hheld hclock ih =>
    obtain ⟨text, htold⟩ := ih
    exact ⟨text, htold.elsewhere hrow hheld hclock⟩

/-- The changes that count are the latest. -/
theorem Told.history_suffix {w : World ε} {v : CustomVariable} {text : String}
    (h : Told w v text) :
    ∃ changes, Leads v.kind v.value changes text ∧
      ((history v.name).run w).1.map ChangeEntry.change <:+ changes := by
  obtain ⟨past, hleads, hheld, hsorted, -⟩ := h.past
  have hlive := Changelog.live_suffix w.store.history.retention.maxAge w.clock
    (hsorted.sublist hheld.sublist)
  exact ⟨_, hleads, (hlive.trans hheld).map _⟩

/-- **Changes report what they replace, additions what they work back.** A variable is created in a
store that has lived from the beginning, and then there are any writes to it, by an administrator or
through references to it, whichever of them fail and however late they come. Then the history is the
end of a list of changes that lead from the value that the variable was created with to the one that
is stored, each from where the one before has led to. Setting the value once more fails and changes
nothing, or notes the stored text as the old value. A reference to the variable changes nothing and
shows the stored text, or it notes a change and shows the same old value in the text and in the
notice. The old value is the stored text, except where the reference adds to a number and not all of
text, addend and sum are whole numbers, text and sum of up to fifteen digits: there it is what is
left of the sum when the addend is taken away again. -/
theorem reports_of_rewritten {w₀ w : World ε} (h₀ : Lived w₀) {d₀ : Disturbances}
    {request : CreateVariable} {v : CustomVariable}
    (hcreated : ((create d₀ request).run w₀).1 = .ok v)
    (h : Rewritten v.name ((create d₀ request).run w₀).2 w) :
    ∃ u, w.store.table.get? v.name = some u ∧ u = { v with value := u.value } ∧
      (∃ changes, Leads v.kind v.value changes u.value ∧
        ((history v.name).run w).1.map ChangeEntry.change <:+ changes) ∧
      (∀ d value actor, let r := (setValue d v.name value actor).run w
        (r.2.records = w.records ∧ ∃ e, r.1 = .error e) ∨
          ∃ change, change.oldValue = u.value ∧ r.2.records = changed w u actor change) ∧
      ∀ d operand c silent, let r := (resolve d v.name operand c silent).run w
        (r.2.records = w.records ∧
          ∀ resolution, r.1 = .ok (some resolution) → resolution = { display := u.value }) ∨
          ∃ change resolution, Reports v.kind u.value change ∧
            r.2.records = changed w u c.username change ∧ r.1 = .ok (some resolution) ∧
            (v.responseType ≠ .inline → resolution.display = change.oldValue) ∧
            ∀ notice, resolution.notification = some notice →
              notice.oldValue = change.oldValue ∧ notice.newValue = change.newValue := by
  obtain ⟨text, htold⟩ := h.told (told_create h₀.tidy hcreated)
  refine ⟨{ v with value := text }, htold.row, rfl, htold.history_suffix, ?_, ?_⟩
  · intro d value actor
    exact setValue_reports (v := { v with value := text }) d htold.row value actor
  · intro d operand c silent
    exact resolve_reports (v := { v with value := text }) d htold.row operand c silent

/-! ## A hoard of gold -/

namespace Gold

/-- One piece of gold to begin with. -/
def request : CreateVariable := { name := "$_gold", kind := .number, value := some "1" }

def start : World Unit := { extra := () }

/-- The hoard as it is created. -/
def created : World Unit :=
  ((create undisturbed request).run start).2

def alice : Capabilities :=
  .viewer ⟨"1", "alice"⟩

/-- The hoard after one more piece. -/
def raised : World Unit :=
  ((resolve undisturbed "$_gold" (some "+") alice false).run created).2

/-- The hoard can be created. -/
theorem created_ok : ((create undisturbed request).run start).1 = .ok request.variableOf := by
  have hok : ((create undisturbed request).run start).1.isOk := by decide +kernel
  rcases run_create undisturbed start request with ⟨-, e, herror⟩ | ⟨hanswer, -⟩
  · rw [herror] at hok
    cases hok
  · exact hanswer

/-- The hoard has been raised by a reference. -/
theorem rewritten_raised : Rewritten "$_gold" created raised :=
  .reference .refl undisturbed (some "+") alice false

/-- One piece is added to one, and the history leads from one to two. -/
theorem reports_raised :
    Lived start ∧ ((create undisturbed request).run start).1 = .ok request.variableOf ∧
    Rewritten "$_gold" created raised ∧
    ∃ u, raised.store.table.get? "$_gold" = some u ∧ u.value = "2" ∧
      ∃ changes, Leads .number "1" changes u.value ∧
        ((history "$_gold").run raised).1.map ChangeEntry.change <:+ changes := by
  have hlived : Lived start := .empty rfl rfl
  obtain ⟨u, hrow, -, hhistory, -, -⟩ := reports_of_rewritten hlived created_ok rewritten_raised
  have hvalue : (raised.store.table.get? "$_gold").map CustomVariable.value = some "2" := by
    decide +kernel
  refine ⟨hlived, created_ok, rewritten_raised, u, hrow, ?_, hhistory⟩
  change raised.store.table.get? "$_gold" = some u at hrow
  rwa [hrow, Option.map_some, Option.some.injEq] at hvalue

/-- A sum so large that the one piece is lost in it reports that nothing was there before, in the
text, in the notice and in the history, though it replaces the text of one. -/
theorem large_sum_reports_zero :
    let r := (resolve undisturbed "$_gold" (some "+1e20") alice false).run created
    (created.store.table.get? "$_gold").map CustomVariable.value = some "1" ∧
    r.1.toOption.join.map Resolution.display = some "0" ∧
    (r.1.toOption.join.bind Resolution.notification).map VariableNotification.oldValue =
      some "0" ∧
    ((history "$_gold").run r.2).1.map ChangeEntry.change =
      [⟨"0", "100000000000000000000"⟩] := by
  decide +kernel

end Gold

end Variables

end ChatBot
