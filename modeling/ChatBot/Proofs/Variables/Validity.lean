import ChatBot.Proofs.Number.Writing
import ChatBot.Proofs.Variables.Operations

/-!
# Stored variables are valid

What is checked when a variable is created or updated holds of every variable at all times, whatever
is done to it by other ways: values are set, references with operands add to them or replace them,
kinds change, and calls to the backend fail. The step is that each operation keeps the table valid
(`valid_perform`); it rests on the fact that the text of a finite number reads as one. Main
statement: in every state that operations lead to, each variable stands under its own name and is
sound (`sound_of_reached`).
-/

set_option autoImplicit false

namespace ChatBot

open Stepwise

variable {ε : Type}

namespace CustomVariable

/-- What a variable must be: its name is the mark and up to sixty-four letters, digits and
underscores of ASCII, and if it is a number, its value is the text of a finite number and its step
is finite and not zero. -/
structure Sound (v : CustomVariable) : Prop where
  name : ∃ rest : String, v.name = variableMark ++ rest ∧ 1 ≤ rest.length ∧ rest.length ≤ 64 ∧
    ∀ c ∈ rest.toList, Text.isAsciiAlnum c ∨ c = '_'
  value : v.kind = .number → ∃ x, Number.parse? v.value = some x ∧ Number.isFinite x
  step : v.kind = .number → Number.isFinite v.step ∧ v.step != 0.0

end CustomVariable

/-- Only finite numbers are read. -/
theorem Number.isFinite_of_parse? {s : String} {x : Float} (h : Number.parse? s = some x) :
    Number.isFinite x :=
  (Option.filter_eq_some_iff.1 h).2

/-- Texts of ASCII characters are as many bytes long as they have characters. -/
theorem utf8ByteSize_of_ascii {cs : List Char} (h : ∀ c ∈ cs, c.toNat < 0x80) :
    (String.ofList cs).utf8ByteSize = cs.length := by
  induction cs with
  | nil => rfl
  | cons c cs ih =>
    have hc : c.utf8Size = 1 := if_pos (Nat.le_of_lt_succ (h c List.mem_cons_self))
    rw [String.ofList_cons, String.utf8ByteSize_append, String.utf8ByteSize_singleton, hc,
      ih fun d hd => h d (List.mem_cons_of_mem c hd), List.length_cons, Nat.add_comm]

/-- The characters of names are ASCII. -/
theorem toNat_lt_of_nameChar {c : Char} (h : Text.isAsciiAlnum c ∨ c = '_') : c.toNat < 0x80 := by
  rcases h with h | rfl
  · simp only [Text.isAsciiAlnum, Bool.or_eq_true, Bool.and_eq_true, decide_eq_true_eq] at h
    omega
  · decide

/-- What stands behind a beginning is found if the text starts with it. -/
theorem after?_eq_some_iff {s beginning rest : String} :
    Text.after? s beginning = some rest ↔ s = beginning ++ rest := by
  simp only [Text.after?, Option.map_eq_some_iff, Text.afterPiece?_eq_some]
  constructor
  · rintro ⟨cs, hcs, rfl⟩
    rw [← String.toList_inj, hcs, String.toList_append, String.toList_ofList]
  · rintro rfl
    exact ⟨rest.toList, String.toList_append .., String.ofList_toList⟩

/-- The check of names accepts the mark with one to sixty-four letters, digits and underscores
behind it. -/
theorem nameFault?_eq_none_iff (name : String) :
    nameFault? name = none ↔ ∃ rest : String, name = variableMark ++ rest ∧ 1 ≤ rest.length ∧
      rest.length ≤ 64 ∧ ∀ c ∈ rest.toList, Text.isAsciiAlnum c ∨ c = '_' := by
  -- the length is checked in bytes, but the characters are all of ASCII
  have hsize (rest : String) (h : ∀ c ∈ rest.toList, Text.isAsciiAlnum c ∨ c = '_') :
      rest.utf8ByteSize = rest.length := by
    have := utf8ByteSize_of_ascii fun c hc => toNat_lt_of_nameChar (h c hc)
    rwa [String.ofList_toList, String.length_toList] at this
  unfold nameFault?
  cases hafter : Text.after? name variableMark with
  | none =>
    refine iff_of_false (by simp) ?_
    rintro ⟨rest, hname, -⟩
    simp [after?_eq_some_iff.2 hname] at hafter
  | some rest =>
    have hname := after?_eq_some_iff.1 hafter
    have hall : (rest.toList.all fun c => Text.isAsciiAlnum c || c == '_') = true ↔
        ∀ c ∈ rest.toList, Text.isAsciiAlnum c ∨ c = '_' := by simp
    have hlength (h : ∀ c ∈ rest.toList, Text.isAsciiAlnum c ∨ c = '_') :
        (rest.isEmpty || maxNameLength < rest.utf8ByteSize) = false ↔
          1 ≤ rest.length ∧ rest.length ≤ 64 := by
      rw [String.isEmpty_eq_utf8ByteSize_beq_zero, hsize rest h, maxNameLength]
      simp only [Bool.or_eq_false_iff, beq_eq_false_iff_ne, decide_eq_false_iff_not]
      omega
    dsimp only
    constructor
    · intro h
      split at h
      · cases h
      split at h
      · have hchars := hall.1 ‹_›
        obtain ⟨hpos, hmax⟩ := (hlength hchars).1 (Bool.eq_false_iff.2 ‹_›)
        exact ⟨rest, hname, hpos, hmax, hchars⟩
      · cases h
    · rintro ⟨rest', hname', hpos, hmax, hchars⟩
      obtain rfl : rest' = rest := by
        simpa [after?_eq_some_iff.2 hname'] using hafter
      rw [(hlength hchars).2 ⟨hpos, hmax⟩, if_neg Bool.false_ne_true, if_pos (hall.2 hchars)]

/-- What is checked when a variable is created or updated is that it is sound. -/
theorem CustomVariable.fault?_eq_none_iff (v : CustomVariable) : v.fault? = none ↔ v.Sound := by
  have hvalue : (Number.parse? v.value).isNone = false ↔
      ∃ x, Number.parse? v.value = some x ∧ Number.isFinite x := by
    cases hparse : Number.parse? v.value with
    | none => simp
    | some x => simpa using Number.isFinite_of_parse? hparse
  have hstep : isStep v.step = true ↔ Number.isFinite v.step ∧ v.step != 0.0 := by
    rw [isStep, Bool.and_eq_true]
  unfold fault?
  cases hname : nameFault? v.name with
  | some fault =>
    refine iff_of_false (by simp) fun h => ?_
    simp [(nameFault?_eq_none_iff v.name).2 h.name] at hname
  | none =>
    have hname' := (nameFault?_eq_none_iff v.name).1 hname
    dsimp only
    by_cases hkind : v.kind = .number
    · rw [if_pos hkind]
      constructor
      · intro h
        split at h
        · cases h
        split at h
        · cases h
        · rename_i hnumeric hisStep
          exact ⟨hname', fun _ => hvalue.1 (Bool.eq_false_iff.2 hnumeric),
            fun _ => hstep.1 (by simpa using hisStep)⟩
      · intro h
        rw [hvalue.2 (h.value hkind), hstep.2 (h.step hkind)]
        rfl
    · rw [if_neg hkind]
      exact iff_of_true rfl ⟨hname', fun h => absurd h hkind, fun h => absurd h hkind⟩

/-- A value may be replaced by one that is the text of a finite number if it must be. -/
theorem CustomVariable.Sound.withValue {v : CustomVariable} (h : v.Sound) {value : String}
    (hvalue : v.kind = .number → (Number.parse? value).isSome) : { v with value }.Sound where
  name := h.name
  value hkind := by
    obtain ⟨x, hx⟩ := Option.isSome_iff_exists.1 (hvalue hkind)
    exact ⟨x, hx, Number.isFinite_of_parse? hx⟩
  step := h.step

namespace VariableTable

/-- Every variable stands under its own name and is sound. -/
def Valid (t : VariableTable) : Prop :=
  ∀ name v, t.get? name = some v → v.name = name ∧ v.Sound

/-- An empty table is valid. -/
theorem valid_empty : ({} : VariableTable).Valid := by
  intro name v h
  simp [get?] at h

/-- A sound variable under its own name leaves a table valid. -/
theorem Valid.insert {t : VariableTable} (h : t.Valid) {v : CustomVariable} (hv : v.Sound) :
    (⟨t.rows.insert v.name v⟩ : VariableTable).Valid := by
  intro name u hu
  rw [get?, Std.ExtTreeMap.getElem?_insert] at hu
  split at hu
  · cases hu
    exact ⟨by simpa using ‹compare v.name name = .eq›, hv⟩
  · exact h name u hu

/-- Erasing a variable leaves a table valid. -/
theorem Valid.erase {t : VariableTable} (h : t.Valid) (name : String) :
    (⟨t.rows.erase name⟩ : VariableTable).Valid := by
  intro other u hu
  rw [get?, Std.ExtTreeMap.getElem?_erase] at hu
  split at hu
  · cases hu
  · exact h other u hu

/-- Writing a value that a variable may have leaves a table valid. -/
theorem Valid.written {t : VariableTable} (h : t.Valid) {name : String} {v : CustomVariable}
    (hrow : t.get? name = some v) {value : String}
    (hvalue : v.kind = .number → (Number.parse? value).isSome) :
    (t.written name v value).Valid := by
  obtain ⟨rfl, hv⟩ := h name v hrow
  exact h.insert (v := { v with value }) (hv.withValue hvalue)

end VariableTable

namespace Variables

/-- A text that a kind admits is stored as the text of a finite number if it must be. -/
theorem parse?_storedText? {kind : VariableKind} {value text : String}
    (h : storedText? kind value = some text) (hkind : kind = .number) :
    (Number.parse? text).isSome := by
  subst hkind
  obtain ⟨x, hx, rfl⟩ := Option.map_eq_some_iff.1 h
  exact Number.parse?_format (Number.isFinite_of_parse? hx)

/-- What a mutation makes of a number is the text of a finite number. -/
theorem parse?_mutation? {v : CustomVariable} {op : String} {m : Mutation} {change : VariableChange}
    (h : mutation? v op = some m) (hmakes : m.Makes v change) (hkind : v.kind = .number) :
    (Number.parse? change.newValue).isSome := by
  cases m with
  | add delta =>
    obtain ⟨current, -, hfinite, rfl⟩ := hmakes
    exact Number.parse?_format hfinite
  | set value =>
    -- steps and signed operands are added; only a bare number is set
    have hset : ∀ delta, addition? v delta ≠ some (.set value) := by
      intro delta hset
      simp only [addition?, Option.bind_eq_some_iff] at hset
      obtain ⟨current, -, hset⟩ := hset
      split at hset <;> cases hset
    cases hmakes
    simp only [mutation?, hkind] at h
    split at h
    · exact absurd h (hset _)
    split at h
    · exact absurd h (hset _)
    split at h
    · obtain ⟨x, -, hx⟩ := Option.bind_eq_some_iff.1 h
      exact absurd hx (hset x)
    · obtain ⟨x, hx, hset⟩ := Option.map_eq_some_iff.1 h
      cases hset
      exact Number.parse?_format (Number.isFinite_of_parse? hx)

/-- An operation keeps the table valid, whether it succeeds or fails and whichever calls to the
backend go wrong. -/
theorem valid_perform (d : Disturbances) (op : Operation) {w : World ε}
    (h : w.store.table.Valid) : ((op.perform d).run w).2.store.table.Valid := by
  have hkept {w' : World ε} (hrecords : w'.records = w.records) : w'.store.table.Valid := by
    rw [(Prod.mk.inj hrecords).1]
    exact h
  have hchanged {w' : World ε} {t : VariableTable} {l : Changelog VariableChange}
      (hrecords : w'.records = (t, l)) (ht : t.Valid) : w'.store.table.Valid := by
    rw [(Prod.mk.inj hrecords).1]
    exact ht
  cases op with
  | create request =>
    rw [Operation.perform, run_settled]
    rcases run_create d w request with ⟨hrecords, -⟩ | ⟨-, hfault, -, hrecords⟩
    · exact hkept hrecords
    · exact hchanged hrecords (h.insert ((CustomVariable.fault?_eq_none_iff _).1 hfault))
  | update name request =>
    rw [Operation.perform, run_settled]
    rcases run_update d w name request with ⟨hrecords, -⟩ | ⟨v, -, -, hfault, hrecords⟩
    · exact hkept hrecords
    · exact hchanged hrecords
        (h.insert (v := request.apply v) ((CustomVariable.fault?_eq_none_iff _).1 hfault))
  | setValue name value actor =>
    rw [Operation.perform, run_settled]
    rcases run_setValue d w name value actor with
      ⟨hrecords, -⟩ | ⟨v, text, hrow, htext, -, hrecords⟩
    · exact hkept hrecords
    · exact hchanged hrecords (h.written hrow (parse?_storedText? htext))
  | resolve name operand c silent =>
    rw [Operation.perform, run_settled]
    rcases run_resolve d w name operand c silent with
      hrecords | ⟨v, op, m, change, hrow, -, -, hmutation, hmakes, -, hrecords⟩
    · exact hkept hrecords
    · exact hchanged hrecords (h.written hrow (parse?_mutation? hmutation hmakes))
  | delete name =>
    rw [Operation.perform]
    rcases run_delete d w name with ⟨hrecords, -⟩ | ⟨-, -, hrecords⟩
    · exact hkept hrecords
    · exact hchanged hrecords (h.erase name)

/-- The states that operations lead to from an empty store, one after the other, whether they
succeed or fail. In between, all but the variables may change. -/
inductive Reached : World ε → Prop where
  | empty {w : World ε} (h : w.store.table = {}) : Reached w
  | operation {w : World ε} (h : Reached w) (d : Disturbances) (op : Operation) :
      Reached ((op.perform d).run w).2
  | elsewhere {w w' : World ε} (h : Reached w) (htable : w'.store.table = w.store.table) :
      Reached w'

/-- Every table that operations lead to is valid. -/
theorem Reached.valid {w : World ε} (h : Reached w) : w.store.table.Valid := by
  induction h with
  | empty h =>
    rw [h]
    exact VariableTable.valid_empty
  | operation _ d op ih => exact valid_perform d op ih
  | elsewhere _ htable ih =>
    rw [htable]
    exact ih

/-- **Stored variables are valid.** In every state that operations lead to from an empty store,
whichever of them fail and whichever calls to the backend go wrong, each variable stands under its
own name and passes the check that is made of new and updated variables; so it is sound. -/
theorem sound_of_reached {w : World ε} (h : Reached w) {name : String} {v : CustomVariable}
    (hv : w.store.table.get? name = some v) : v.name = name ∧ v.fault? = none ∧ v.Sound := by
  obtain ⟨hname, hsound⟩ := h.valid name v hv
  exact ⟨hname, (CustomVariable.fault?_eq_none_iff v).2 hsound, hsound⟩

/-! ## A counter -/

namespace Deaths

/-- A counter is created at seven, a text is refused as its value, and a reference raises it. -/
def counted : World Unit :=
  let request : CreateVariable := { name := "$_deaths", kind := .number, value := some "7" }
  let created := ((Operation.create request).perform undisturbed).run { extra := () }
  let refused := ((Operation.setValue "$_deaths" "many" "admin").perform undisturbed).run created.2
  (((Operation.resolve "$_deaths" (some "+") (.viewer ⟨"1", "alice"⟩) false).perform
    undisturbed).run refused.2).2

/-- The counter of the fixture has been reached by operations. -/
theorem reached_counted : Reached counted :=
  .operation (.operation (.operation (.empty rfl) _ _) _ _) _ _

/-- The counter stands at eight, under its own name, and is sound. -/
theorem sound_counted : Reached counted ∧ ∃ v, counted.store.table.get? "$_deaths" = some v ∧
    v.value = "8" ∧ v.name = "$_deaths" ∧ v.fault? = none ∧ v.Sound := by
  have hvalue : (counted.store.table.get? "$_deaths").map CustomVariable.value = some "8" := by
    decide +kernel
  obtain ⟨v, hv, height⟩ := Option.map_eq_some_iff.1 hvalue
  exact ⟨reached_counted, v, hv, height, sound_of_reached reached_counted hv⟩

end Deaths

end Variables

end ChatBot
