import ChatBot.Proofs.Variables.Writes

/-!
# What a reference to a variable does

A reference to a variable that is held in memory either writes once or leaves everything as it is.
Which of the two it does is told here without the program, from the variable, the sender and the
operand alone: the operand has to have an effect on a variable of this kind (`Effect`), and the
variable has to be open to the sender (`Admits`). Main statement: an admitted reference leaves its
change in the variable, one entry in the history and one count, and shows the change in the way that
the variable asks for (`Wrote`); any other shows the value, and counts as refused unless it has no
operand (`Kept`). Nothing else comes of it (`resolves_by_admission`).
-/

set_option autoImplicit false

namespace ChatBot.Variables

open Stepwise

variable {ε : Type}

/-! ## The effect of an operand -/

/-- An operand that stands for a number to be added. -/
inductive Addend (step : Float) : String → Float → Prop
  | up : Addend step "+" step
  | down : Addend step "-" (-step)
  | signed {op : String} {delta : Float} (hsigned : startsSigned op = true)
      (hnumber : Number.parse? op = some delta) : Addend step op delta

/-- What an operand without blanks around it changes in a variable, whoever may change it. -/
inductive Effect (v : CustomVariable) : String → VariableChange → Prop
  | sum {op : String} {delta current : Float} (hkind : v.kind = .number)
      (haddend : Addend v.step op delta) (hcurrent : Number.parse? v.value = some current)
      (hfinite : Number.isFinite (current + delta) = true) :
      Effect v op ⟨Number.format (current + delta - delta), Number.format (current + delta)⟩
  | number {op : String} {x : Float} (hkind : v.kind = .number)
      (hunsigned : startsSigned op = false) (hnumber : Number.parse? op = some x) :
      Effect v op ⟨v.value, Number.format x⟩
  | text {op : String} (hkind : v.kind = .text) (hplus : op ≠ "+") (hminus : op ≠ "-") :
      Effect v op ⟨v.value, op⟩

/-- A variable that a sender may change through a template. -/
def Changeable (v : CustomVariable) (c : Capabilities) : Prop :=
  v.readOnly = false ∧ v.kind ≠ .eval ∧ v.permission ≤ c.tier

instance (v : CustomVariable) (c : Capabilities) : Decidable (Changeable v c) :=
  inferInstanceAs (Decidable (_ ∧ _ ∧ _))

/-- A reference that writes, and the change that it makes. -/
structure Admits (v : CustomVariable) (c : Capabilities) (operand : Option String)
    (change : VariableChange) : Prop where
  effect : ∃ text, operand = some text ∧ Text.trim text ≠ "" ∧ Effect v (Text.trim text) change
  changeable : Changeable v c

/-- No operand, or one of blanks. -/
def Blank (operand : Option String) : Prop :=
  ∀ text, operand = some text → Text.trim text = ""

/-- How a reference counts that is not blank and does not write: as invalid if only the operand does
not fit. -/
def refusal (v : CustomVariable) (c : Capabilities) : MutationResult :=
  if Changeable v c then .invalid else .rejected

/-! ## What may come of a reference -/

/-- The wording of the notice of a change, if the variable asks for one. -/
def wording? (v : CustomVariable) (announcement : String) : Option String :=
  match v.responseType with
  | .inline => none
  | .announce => some announcement
  | .custom text => some text

/-- A reference has written a change. -/
structure Wrote (w w' : World ε) (name : String) (v : CustomVariable) (c : Capabilities)
    (silent : Bool) (change : VariableChange) (r : Resolution) : Prop where
  row : w'.store.table.get? name = some { v with value := change.newValue }
  rows : ∀ other, other ≠ name → w'.store.table.get? other = w.store.table.get? other
  held : w'.store.history.held name =
    Changelog.trimmed w.store.history.retention w.clock (w.store.history.held name) ++
      [⟨change, c.username, w.clock⟩]
  helds : ∀ other, other ≠ name → w'.store.history.held other = w.store.history.held other
  counts : ∀ counter, w'.metrics.count counter =
    w.metrics.count counter + if counter = .variableMutation .applied then 1 else 0
  calls : w'.store.calls = w.store.calls + 2
  display : r.display = if v.responseType = .inline then change.newValue else change.oldValue
  notification : r.notification =
    if silent then none
    else (wording? v w.store.announcement).map fun wording =>
      Variables.notification name wording change c

/-- A reference has left everything as it was. -/
structure Kept (w w' : World ε) (v : CustomVariable) (c : Capabilities) (operand : Option String)
    (r : Resolution) : Prop where
  records : w'.records = w.records
  calls : w'.store.calls = w.store.calls + 1
  blank : Blank operand → w'.metrics = w.metrics
  refused : ¬ Blank operand → ∀ counter, w'.metrics.count counter =
    w.metrics.count counter + if counter = .variableMutation (refusal v c) then 1 else 0
  display : r.display = v.value
  notification : r.notification = none

/-! ## The program -/

/-- There is no operand if none is given or it is blank. -/
theorem trimmedOperand_eq_none_iff {operand : Option String} :
    trimmedOperand operand = none ↔ Blank operand := by
  cases operand with
  | none => simp [trimmedOperand, Blank]
  | some text => simp [trimmedOperand, Blank]

/-- The operand is what is left of the given one without the blanks at its ends. -/
theorem trimmedOperand_eq_some_iff {operand : Option String} {op : String} :
    trimmedOperand operand = some op ↔
      ∃ text, operand = some text ∧ Text.trim text ≠ "" ∧ Text.trim text = op := by
  cases operand with
  | none => simp [trimmedOperand]
  | some text =>
    have hsome : trimmedOperand (some text) = some op ↔ Text.trim text = op ∧ op ≠ "" := by
      simp [trimmedOperand, Option.filter_eq_some_iff]
    rw [hsome]
    constructor
    · rintro ⟨rfl, hop⟩
      exact ⟨text, rfl, hop, rfl⟩
    · rintro ⟨text', htext, hop, rfl⟩
      obtain rfl := Option.some_inj.1 htext
      exact ⟨rfl, hop⟩

/-- The check of references lets those write who may change the variable. -/
theorem isWritable_iff {v : CustomVariable} {c : Capabilities} :
    isWritable v c = true ↔ Changeable v c := by
  simp [isWritable, Changeable, Capabilities.satisfies, and_assoc]

/-- An addition makes the change to the sum, if that is finite. -/
theorem change?_addition?_iff {v : CustomVariable} {delta : Float} {change : VariableChange} :
    (∃ m, addition? v delta = some m ∧ m.change? v = some change) ↔
      ∃ current, Number.parse? v.value = some current ∧
        Number.isFinite (current + delta) = true ∧
        ⟨Number.format (current + delta - delta), Number.format (current + delta)⟩ = change := by
  cases hcurrent : Number.parse? v.value with
  | none => simp [addition?, hcurrent]
  | some current =>
    by_cases hfinite : Number.isFinite (current + delta) = true
    · simp [addition?, Mutation.change?, hcurrent, hfinite]
    · simp [addition?, hcurrent, hfinite]

/-- An addition that the program makes is the effect of its operand. -/
theorem effect_of_addition {v : CustomVariable} {op : String} {delta : Float}
    {change : VariableChange} (hkind : v.kind = .number) (haddend : Addend v.step op delta)
    (h : ∃ m, addition? v delta = some m ∧ m.change? v = some change) : Effect v op change := by
  obtain ⟨current, hcurrent, hfinite, rfl⟩ := change?_addition?_iff.1 h
  exact .sum hkind haddend hcurrent hfinite

/-- For a number variable, an operand that stands for an addend is an addition. -/
theorem mutation?_of_addend {v : CustomVariable} {op : String} {delta : Float}
    (hkind : v.kind = .number) (h : Addend v.step op delta) :
    mutation? v op = addition? v delta := by
  rw [mutation?, hkind]
  dsimp only
  cases h with
  | up => rw [if_pos rfl]
  | down => rw [if_neg (by decide), if_pos rfl]
  | signed hsigned hnumber =>
    -- a bare sign is no number
    have hbare : Number.parse? "+" = none ∧ Number.parse? "-" = none := by decide +kernel
    have hplus : op ≠ "+" := by
      rintro rfl
      rw [hbare.1] at hnumber
      cases hnumber
    have hminus : op ≠ "-" := by
      rintro rfl
      rw [hbare.2] at hnumber
      cases hnumber
    rw [if_neg hplus, if_neg hminus, if_pos hsigned, hnumber, Option.bind_some]

/-- For a number variable, an operand without a sign sets the number that it is read as. -/
theorem mutation?_of_unsigned {v : CustomVariable} {op : String} (hkind : v.kind = .number)
    (hunsigned : startsSigned op = false) :
    mutation? v op = (Number.parse? op).map fun x => .set (Number.format x) := by
  have hplus : op ≠ "+" := by rintro rfl; revert hunsigned; decide
  have hminus : op ≠ "-" := by rintro rfl; revert hunsigned; decide
  rw [mutation?, hkind]
  dsimp only
  rw [if_neg hplus, if_neg hminus, if_neg (by simp [hunsigned])]

/-- An operand with a sign changes a number only if it stands for a number to be added. -/
theorem exists_addend {v : CustomVariable} {op : String} {m : Mutation} (hkind : v.kind = .number)
    (hsigned : startsSigned op = true) (h : mutation? v op = some m) :
    ∃ delta, Addend v.step op delta := by
  rw [mutation?, hkind] at h
  dsimp only at h
  by_cases hplus : op = "+"
  · exact ⟨v.step, hplus ▸ .up⟩
  by_cases hminus : op = "-"
  · exact ⟨-v.step, hminus ▸ .down⟩
  rw [if_neg hplus, if_neg hminus, if_pos hsigned] at h
  obtain ⟨delta, hnumber, -⟩ := Option.bind_eq_some_iff.1 h
  exact ⟨delta, .signed hsigned hnumber⟩

/-- The changes that the program makes are the effects of operands. -/
theorem change?_mutation?_iff {v : CustomVariable} {op : String} {change : VariableChange} :
    (∃ m, mutation? v op = some m ∧ m.change? v = some change) ↔ Effect v op change := by
  constructor
  · rintro ⟨m, hm, hchange⟩
    cases hkind : v.kind with
    | number =>
      by_cases hunsigned : startsSigned op = false
      · rw [mutation?_of_unsigned hkind hunsigned] at hm
        obtain ⟨x, hnumber, rfl⟩ := Option.map_eq_some_iff.1 hm
        obtain rfl := Option.some_inj.1 hchange
        exact .number hkind hunsigned hnumber
      · obtain ⟨delta, haddend⟩ := exists_addend hkind (by simpa using hunsigned) hm
        rw [mutation?_of_addend hkind haddend] at hm
        exact effect_of_addition hkind haddend ⟨m, hm, hchange⟩
    | text =>
      rw [mutation?, hkind] at hm
      obtain ⟨hsign, hm⟩ := Option.ite_none_left_eq_some.1 hm
      obtain rfl := Option.some_inj.1 hm
      obtain rfl := Option.some_inj.1 hchange
      have hbare : op ≠ "+" ∧ op ≠ "-" := by simpa using hsign
      exact .text hkind hbare.1 hbare.2
    | eval =>
      rw [mutation?, hkind] at hm
      cases hm
  · intro h
    cases h with
    | sum hkind haddend hcurrent hfinite =>
      rw [mutation?_of_addend hkind haddend]
      exact change?_addition?_iff.2 ⟨_, hcurrent, hfinite, rfl⟩
    | number hkind hunsigned hnumber =>
      rw [mutation?_of_unsigned hkind hunsigned, hnumber]
      exact ⟨_, rfl, rfl⟩
    | text hkind hplus hminus =>
      rw [mutation?, hkind]
      exact ⟨_, if_neg (by simp [hplus, hminus]), rfl⟩

/-! ## Its run -/

/-- The state after an attempt to change a variable has been counted. -/
def tallied (w : World ε) (result : MutationResult) : World ε :=
  { w with metrics := w.metrics.bump (.variableMutation result) }

/-- An attempt is counted with those of its result. -/
theorem count_tallied (w : World ε) (result : MutationResult) (counter : Counter) :
    (tallied w result).metrics.count counter =
      w.metrics.count counter + if counter = .variableMutation result then 1 else 0 := by
  rw [tallied, Metrics.count_bump]
  split <;> rfl

section Run

variable {w : World ε} {name : String} {v : CustomVariable}

/-- An undisturbed store finds the variable that stands there. -/
theorem run_fetch_of_memory (hkind : w.store.kind = .memory)
    (hrow : w.store.table.get? name = some v) :
    (fetch undisturbed name).run w = (.ok (some v), w.called w.store.table) := by
  rw [← hrow]
  exact run_call_of_memory hkind rfl none fun t => (.ok (t.get? name), t)

variable (hkind : w.store.kind = .memory) (hrow : w.store.table.get? name = some v)
  {operand : Option String} {op : String} (c : Capabilities) (silent : Bool)

include hkind hrow

/-- A reference without an operand shows the value. -/
theorem run_resolve_blank (hoperand : trimmedOperand operand = none) :
    (resolve undisturbed name operand c silent).run w =
      (.ok (some { display := v.value }), w.called w.store.table) := by
  simp only [resolve, bind_eq, run_bind, run_fetch_of_memory hkind hrow, hoperand]
  rfl

/-- A reference that may not write shows the value, and is counted by why it may not. -/
theorem run_resolve_refused (hoperand : trimmedOperand operand = some op)
    (hrefused : ¬ (Changeable v c ∧ ∃ change, Effect v op change)) :
    (resolve undisturbed name operand c silent).run w =
      (.ok (some { display := v.value }), tallied (w.called w.store.table) (refusal v c)) := by
  simp only [resolve, bind_eq, run_bind, run_fetch_of_memory hkind hrow, hoperand]
  by_cases hchangeable : Changeable v c
  · have hmutation : mutation? v op = none := by
      refine Option.eq_none_iff_forall_ne_some.2 fun m hm => hrefused ⟨hchangeable, ?_⟩
      obtain ⟨change, hchange⟩ := exists_change_of_mutation? hm
      exact ⟨change, change?_mutation?_iff.1 ⟨m, hm, hchange⟩⟩
    rw [if_neg (by simpa using isWritable_iff.2 hchangeable), hmutation, refusal,
      if_pos hchangeable]
    rfl
  · rw [if_pos (by simpa using mt isWritable_iff.1 hchangeable), refusal, if_neg hchangeable]
    rfl

/-- A reference that may write does so, notes the change and is counted as applied. -/
theorem run_resolve_applied (hoperand : trimmedOperand operand = some op)
    (hchangeable : Changeable v c) {change : VariableChange} (heffect : Effect v op change) :
    (resolve undisturbed name operand c silent).run w =
      (.ok (some (shown { v with name } w.store.announcement change c silent)),
        tallied (((w.called w.store.table).called
          (w.store.table.written name v change.newValue)).noted name c.username change)
          .applied) := by
  obtain ⟨m, hm, hchange⟩ := change?_mutation?_iff.2 heffect
  have hserves : (w.called w.store.table).Serves undisturbed 0 (m.call name) := ⟨hkind, rfl⟩
  have hwrite := run_write_of_serves hserves (v := v) hrow hchange
  rw [World.called_table, VariableTable.setValue_of_some hrow] at hwrite
  simp only [resolve, bind_eq, run_bind, run_fetch_of_memory hkind hrow, hoperand]
  rw [if_neg (by simpa using isWritable_iff.2 hchangeable), hm]
  simp only [run_bind, hwrite]
  rfl

end Run

/-! ## What has come of it -/

/-- What stands in the text is the new value for variables that show inline, and the old one for
others. -/
theorem display_shown (v : CustomVariable) (announcement : String) (change : VariableChange)
    (c : Capabilities) (silent : Bool) :
    (shown v announcement change c silent).display =
      if v.responseType = .inline then change.newValue else change.oldValue := by
  rw [shown]
  cases v.responseType <;> rfl

/-- There is a notice with the wording of the variable, unless the reference is silent or there is
no wording. -/
theorem notification_shown (v : CustomVariable) (announcement : String) (change : VariableChange)
    (c : Capabilities) (silent : Bool) :
    (shown v announcement change c silent).notification =
      if silent then none
      else (wording? v announcement).map fun wording => notification v.name wording change c := by
  rw [shown, wording?]
  cases v.responseType <;> cases silent <;> rfl

section Outcome

variable {w : World ε} {name : String} {v : CustomVariable} (hkind : w.store.kind = .memory)
  (hrow : w.store.table.get? name = some v) {operand : Option String} {c : Capabilities}

include hkind hrow

/-- A reference that is admitted writes. -/
theorem wrote_of_admits (silent : Bool) {change : VariableChange}
    (h : Admits v c operand change) :
    ∃ r, ((resolve undisturbed name operand c silent).run w).1 = .ok (some r) ∧
      Wrote w ((resolve undisturbed name operand c silent).run w).2 name v c silent change r := by
  obtain ⟨text, htext, hsome, heffect⟩ := h.effect
  have hoperand := trimmedOperand_eq_some_iff.2 ⟨text, htext, hsome, rfl⟩
  rw [run_resolve_applied hkind hrow c silent hoperand h.changeable heffect]
  refine ⟨_, rfl, ?_⟩
  exact {
    row := VariableTable.get?_written ..
    rows := fun other hother => VariableTable.get?_written_of_ne _ hother v _
    held := Changelog.held_record ..
    helds := fun other hother => Changelog.held_record_of_ne _ hother _ _ _
    counts := fun counter => count_tallied _ .applied counter
    calls := rfl
    display := display_shown ..
    notification := notification_shown .. }

/-- A reference that is not admitted leaves everything. -/
theorem kept_of_not_admits (silent : Bool) (h : ¬ ∃ change, Admits v c operand change) :
    ∃ r, ((resolve undisturbed name operand c silent).run w).1 = .ok (some r) ∧
      Kept w ((resolve undisturbed name operand c silent).run w).2 v c operand r := by
  cases hoperand : trimmedOperand operand with
  | none =>
    have hblank := trimmedOperand_eq_none_iff.1 hoperand
    rw [run_resolve_blank hkind hrow c silent hoperand]
    refine ⟨_, rfl, ?_⟩
    exact {
      records := rfl
      calls := rfl
      blank := fun _ => rfl
      refused := fun hnot => absurd hblank hnot
      display := rfl
      notification := rfl }
  | some op =>
    have hnot : ¬ Blank operand := by
      rw [← trimmedOperand_eq_none_iff, hoperand]
      exact Option.some_ne_none op
    obtain ⟨text, htext, hsome, htrim⟩ := trimmedOperand_eq_some_iff.1 hoperand
    have hrefused : ¬ (Changeable v c ∧ ∃ change, Effect v op change) := by
      rintro ⟨hchangeable, change, heffect⟩
      exact h ⟨change, ⟨text, htext, hsome, htrim ▸ heffect⟩, hchangeable⟩
    rw [run_resolve_refused hkind hrow c silent hoperand hrefused]
    refine ⟨_, rfl, ?_⟩
    exact {
      records := rfl
      calls := rfl
      blank := fun hblank => absurd hblank hnot
      refused := fun _ counter => count_tallied _ _ counter
      display := rfl
      notification := rfl }

omit hkind hrow in
/-- What is kept is not counted as applied. -/
theorem Kept.count_applied {w' : World ε} {r : Resolution} (h : Kept w w' v c operand r) :
    w'.metrics.count (.variableMutation .applied) =
      w.metrics.count (.variableMutation .applied) := by
  by_cases hblank : Blank operand
  · rw [h.blank hblank]
  · have hne : Counter.variableMutation .applied ≠ .variableMutation (refusal v c) := by
      rw [refusal]
      split <;> decide
    rw [h.refused hblank, if_neg hne, Nat.add_zero]

/-- **A reference writes just if it is admitted.** The variable is held in memory under the name.
The reference always resolves. If the variable is open to the sender, and the operand is not blank
and has an effect, it has written that change, noted it and counted it as applied; else it has left
everything as it was and shows the value, and if the operand is not blank, it has counted one
refusal. So the references that are counted as applied are those that are admitted. -/
theorem resolves_by_admission (operand : Option String) (c : Capabilities) (silent : Bool) :
    let ran := (resolve undisturbed name operand c silent).run w
    ∃ r, ran.1 = .ok (some r) ∧
      (∀ change, Admits v c operand change → Wrote w ran.2 name v c silent change r) ∧
      ((¬ ∃ change, Admits v c operand change) → Kept w ran.2 v c operand r) ∧
      (ran.2.metrics.count (.variableMutation .applied) =
          w.metrics.count (.variableMutation .applied) + 1 ↔
        ∃ change, Admits v c operand change) := by
  intro ran
  by_cases hadmits : ∃ change, Admits v c operand change
  · obtain ⟨change, hchange⟩ := hadmits
    obtain ⟨r, hr, hwrote⟩ := wrote_of_admits hkind hrow silent hchange
    refine ⟨r, hr, fun other hother => ?_, fun hnot => absurd ⟨change, hchange⟩ hnot, ?_⟩
    · obtain ⟨r', hr', hwrote'⟩ := wrote_of_admits hkind hrow silent hother
      obtain rfl : r = r' := by simpa [hr] using hr'
      exact hwrote'
    · rw [hwrote.counts, if_pos rfl]
      exact iff_of_true rfl ⟨change, hchange⟩
  · obtain ⟨r, hr, hkept⟩ := kept_of_not_admits hkind hrow silent hadmits
    refine ⟨r, hr, fun change hchange => absurd ⟨change, hchange⟩ hadmits, fun _ => hkept, ?_⟩
    rw [hkept.count_applied]
    exact iff_of_false (by omega) hadmits

end Outcome

namespace Sword

/-- Moderators say who owns it, and the new owner stands in the text. -/
def sword : CustomVariable where
  name := "$_sword"
  value := "nobody"
  permission := .moderator
  responseType := .inline

def world : World Unit where
  store := { table := ⟨(∅ : NameMap CustomVariable).insert "$_sword" sword⟩ }
  extra := ()

def alice : Capabilities :=
  { Capabilities.viewer ⟨"1", "alice"⟩ with tier := .moderator }

/-- Alice gives the sword to Bob. -/
theorem given_to_bob :
    world.store.kind = .memory ∧ world.store.table.get? "$_sword" = some sword ∧
      let ran := (resolve undisturbed "$_sword" (some " bob ") alice false).run world
      ∃ r, ran.1 = .ok (some r) ∧ r.display = "bob" ∧ r.notification = none ∧
        ran.2.store.history.held "$_sword" = [⟨⟨"nobody", "bob"⟩, "alice", 0⟩] ∧
        ran.2.metrics.count (.variableMutation .applied) = 1 := by
  have hrow : world.store.table.get? "$_sword" = some sword := rfl
  have htrim : Text.trim " bob " = "bob" := by decide +kernel
  have hadmits : Admits sword alice (some " bob ") ⟨"nobody", "bob"⟩ := by
    refine ⟨⟨" bob ", rfl, ?_, ?_⟩, by decide⟩
    · rw [htrim]
      decide
    · rw [htrim]
      exact .text rfl (by decide) (by decide)
  obtain ⟨r, hr, hwrote, -, -⟩ := resolves_by_admission rfl hrow (some " bob ") alice false
  have h := hwrote _ hadmits
  refine ⟨rfl, hrow, r, hr, h.display, h.notification, ?_, h.counts _⟩
  rw [h.held]
  rfl

end Sword

end ChatBot.Variables
