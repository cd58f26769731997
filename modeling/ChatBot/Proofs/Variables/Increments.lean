import ChatBot.Proofs.Number.Whole
import ChatBot.Proofs.Variables.Concurrency
import Mathlib.Algebra.BigOperators.Fin

/-!
# Increments come to their sum

References that add to a number may be resolved concurrently. Each of them reads the variable,
decides by what it has read, and then adds in a step of its own to whatever the variable holds by
then; what it has read only tells it that it may add. So however the references come in between
each other, every one of them adds once, and the variable holds the sum of what it held in the
beginning and of all that has been added (`Underway`). Main statement: `sum_of_interleaved`.

A reference takes five turns: it reads, adds, notes the change, counts it, and looks up the wording
of notices.
-/

set_option autoImplicit false

namespace ChatBot

open Number

/-! ## Whole numbers as operands -/

namespace Number

/-- The text is read as a whole number. -/
def Spells (text : String) (n : Int) : Prop :=
  ∃ x, parse? text = some x ∧ Denotes x n

/-- The text of a whole number is read as it. -/
theorem spells_wholeText {n : Int} (hn : n.natAbs < 2 ^ 53) : Spells (wholeText n) n :=
  exists_parse?_wholeText hn

/-- Digits behind a sign are read without loss. -/
theorem spells_signed {digits : List Char} (hne : digits ≠ [])
    (hdigits : ∀ c ∈ digits, Text.isAsciiDigit c) (hsmall : digitsValue 0 digits < 2 ^ 53) :
    Spells (String.ofList ('+' :: digits)) (digitsValue 0 digits) ∧
      Spells (String.ofList ('-' :: digits)) (-digitsValue 0 digits) := by
  have hplain := Plain.whole hne hdigits
  obtain ⟨c, rest, hcons, hc⟩ := hplain.head_digit
  obtain ⟨hread, hread'⟩ := readFloat?_of_plain hplain
  have hplus : readFloat? (String.ofList ('+' :: digits)) = readFloat? (String.ofList digits) := by
    simp only [readFloat?, String.toList_ofList, hcons, takeSign_cons_of_isAsciiDigit hc]
    rfl
  have hdenotes := denotes_ofDecimal hsmall
  constructor
  · exact parse?_of_readFloat? (List.forall_mem_cons.2 ⟨rfl, hplain.not_blank⟩)
      (hplus.trans hread) hdenotes
  · exact parse?_of_readFloat? (List.forall_mem_cons.2 ⟨rfl, hplain.not_blank⟩) hread'
      hdenotes.neg

end Number

namespace Variables

open Stepwise

variable {ε : Type}

/-- A number variable that templates may change, with a whole number for a value and another one
for a step. -/
structure Counts (v : CustomVariable) (start step : Int) : Prop where
  kind : v.kind = .number
  unprotected : v.readOnly = false
  value : ∃ x, parse? v.value = some x ∧ isWhole x ∧ wholePart? x = some start
  step : isWhole v.step ∧ wholePart? v.step = some step

/-- An operand without blanks around it that adds a whole number to a variable with the step. -/
inductive Adds (step : Int) : String → Int → Prop where
  | up : Adds step "+" step
  | down : Adds step "-" (-step)
  | plus {digits : List Char} (hne : digits ≠ []) (hdigits : ∀ c ∈ digits, Text.isAsciiDigit c) :
      Adds step (String.ofList ('+' :: digits)) (digitsValue 0 digits)
  | minus {digits : List Char} (hne : digits ≠ []) (hdigits : ∀ c ∈ digits, Text.isAsciiDigit c) :
      Adds step (String.ofList ('-' :: digits)) (-digitsValue 0 digits)

/-- To a text that is read as a whole number another one can be added. -/
theorem addition?_of_spells {u : CustomVariable} {n m : Int} (hvalue : Spells u.value n)
    {delta : Float} (hdelta : Denotes delta m) (hsum : (n + m).natAbs < 2 ^ 53) :
    addition? u delta = some (.add delta) := by
  obtain ⟨x, hx, hdenotes⟩ := hvalue
  have hfinite := (hdenotes.add hdelta hsum).isFinite
  rw [addition?, hx]
  exact if_pos hfinite

/-- Digits behind a sign are more than a sign. -/
theorem signed_ne (sign : Char) {digits : List Char} (hne : digits ≠ []) :
    String.ofList (sign :: digits) ≠ "+" ∧ String.ofList (sign :: digits) ≠ "-" := by
  constructor
  all_goals
    intro h
    have hlist := congrArg String.toList h
    simp [hne] at hlist

/-- An operand that adds a whole number is one that adds a number to what is read. -/
theorem mutation?_of_adds {v u : CustomVariable} {start step n m : Int} (hv : Counts v start step)
    (hkind : u.kind = v.kind) (hstep : u.step = v.step) (hvalue : Spells u.value n)
    (hm : m.natAbs < 2 ^ 53) (hsum : (n + m).natAbs < 2 ^ 53) {op : String} (h : Adds step op m) :
    ∃ delta, mutation? u op = some (.add delta) ∧ Denotes delta m := by
  have hadd (delta : Float) (hdelta : Denotes delta m) : addition? u delta = some (.add delta) :=
    addition?_of_spells hvalue hdelta hsum
  rw [mutation?, hkind, hv.kind]
  dsimp only
  cases h with
  | up =>
    have hdelta : Denotes u.step step := hstep ▸ denotes_of_isWhole hv.step.1 hv.step.2 hm
    rw [if_pos rfl]
    exact ⟨_, hadd _ hdelta, hdelta⟩
  | down =>
    have hdelta : Denotes (-u.step) (-step) :=
      (hstep ▸ denotes_of_isWhole hv.step.1 hv.step.2 (by omega)).neg
    rw [if_neg (by decide), if_pos rfl]
    exact ⟨_, hadd _ hdelta, hdelta⟩
  | @plus digits hne hdigits =>
    obtain ⟨delta, hread, hdelta⟩ := (spells_signed hne hdigits (by omega)).1
    rw [if_neg (signed_ne _ hne).1, if_neg (signed_ne _ hne).2, if_pos (by simp [startsSigned]),
      hread, Option.bind_some]
    exact ⟨delta, hadd _ hdelta, hdelta⟩
  | @minus digits hne hdigits =>
    obtain ⟨delta, hread, hdelta⟩ := (spells_signed hne hdigits (by omega)).2
    rw [if_neg (signed_ne _ hne).1, if_neg (signed_ne _ hne).2, if_pos (by simp [startsSigned]),
      hread, Option.bind_some]
    exact ⟨delta, hadd _ hdelta, hdelta⟩

/-! ## One reference in its five turns -/

/-- A reference that may add a whole number to a variable. -/
structure Increment (v : CustomVariable) (step : Int) where
  operand : Option String
  capabilities : Capabilities
  silent : Bool
  delta : Int
  permitted : capabilities.satisfies v.permission
  adds : ∃ op, trimmedOperand operand = some op ∧ Adds step op delta

/-- The answer to a reference, when it is resolved. -/
abbrev Answer := Except VariableError (Option Resolution)

namespace Increment

variable {v : CustomVariable} {step : Int} (c : Increment v step)

/-- The whole of a reference. -/
def program (name : String) : Activity ε Answer :=
  resolve undisturbed name c.operand c.capabilities c.silent

/-- The answer once a change has been made. -/
def answer (name announcement : String) (change : VariableChange) : Answer :=
  .ok (some (shown { v with name } announcement change c.capabilities c.silent))

/-- What is left of a reference when it has counted the change. -/
def looking (name : String) (change : VariableChange) : Activity ε Answer :=
  (Stepwise.read fun w => w.store.announcement).bind fun announcement =>
    .done (c.answer name announcement change)

/-- What is left of a reference when it has noted the change. -/
def counting (name : String) (change : VariableChange) : Activity ε Answer :=
  (countMutation .applied).bind fun _ => c.looking name change

/-- What is left of a reference when it has changed the variable. -/
def noting (name : String) (change : VariableChange) : Activity ε Answer :=
  (note name c.capabilities.username change).bind fun _ => c.counting name change

/-- What is left of a reference when it has read the variable: it adds a number, and if that
succeeds, it notes the change. -/
def Adding (name : String) (p : Activity ε Answer) : Prop :=
  ∃ delta next, Denotes delta c.delta ∧ p = (increment undisturbed name delta).bind next ∧
    ∀ x, next (.ok (some x)) = c.noting name ⟨format (x - delta), format x⟩

/-- What is left of a reference after some turns. -/
def Left (name announcement : String) (change : VariableChange) :
    (turns : Nat) → Activity ε Answer → Prop
  | 0, p => p = c.program name
  | 1, p => c.Adding name p
  | 2, p => p = c.noting name change
  | 3, p => p = c.counting name change
  | 4, p => p = c.looking name change
  | _ + 5, p => p = .done (c.answer name announcement change)

end Increment

/-! ## Its turns -/

/-- The variable holds a text that is read as the whole number. -/
def Holds (w : World ε) (name : String) (v : CustomVariable) (n : Int) : Prop :=
  ∃ text, w.store.table.get? name = some (v.withText text) ∧ Spells text n

section Turns

variable {v : CustomVariable} {start step n : Int} {c : Increment v step} {name : String}
  {w : World ε} {i : Nat} {pool : List (Activity ε Answer)}

/-- The first turn reads the variable. -/
theorem advance_program (hv : Counts v start step) (hkind : w.store.kind = .memory)
    (hrow : Holds w name v n) (hdelta : c.delta.natAbs < 2 ^ 53)
    (hsum : (n + c.delta).natAbs < 2 ^ 53) (hpool : pool[i]? = some (c.program name)) :
    ∃ p, c.Adding name p ∧ advance i pool w = (pool.set i p, w.called w.store.table) := by
  obtain ⟨text, hget, hspells⟩ := hrow
  obtain ⟨op, hop, hadds⟩ := c.adds
  obtain ⟨delta, hmutation, hdenotes⟩ :=
    mutation?_of_adds (u := v.withText text) hv rfl rfl hspells hdelta hsum hadds
  have hfetch := run_call_of_memory (d := undisturbed) (c := .get name) hkind rfl none
    fun t => (.ok (t.get? name), t)
  have hwritable : isWritable (v.withText text) c.capabilities = true := by
    have hpermitted : c.capabilities.satisfies (v.withText text).permission = true := c.permitted
    have hkind' : (v.withText text).kind = .number := hv.kind
    have hreadOnly : (v.withText text).readOnly = false := hv.unprotected
    simp [isWritable, hpermitted, hkind', hreadOnly]
  unfold Increment.program resolve at hpool
  rw [advance_of_act hpool hfetch, hget]
  refine ⟨_, ?_, rfl⟩
  dsimp only
  rw [hop]
  dsimp only
  rw [hwritable, hmutation, if_neg (by simp)]
  dsimp only
  rw [write]
  simp only [bind_eq, bind_assoc]
  exact ⟨delta, _, hdenotes, rfl, fun x => rfl⟩

/-- The second turn adds to what the variable holds by then, whatever has been read. -/
theorem advance_adding (hkind : w.store.kind = .memory) (hrow : Holds w name v n)
    (hn : n.natAbs < 10 ^ 15) (hsum : (n + c.delta).natAbs < 10 ^ 15) {p : Activity ε Answer}
    (hp : c.Adding name p) (hpool : pool[i]? = some p) :
    ∃ table, table.get? name = some (v.withText (wholeText (n + c.delta))) ∧
      advance i pool w = (pool.set i (c.noting name ⟨wholeText n, wholeText (n + c.delta)⟩),
        w.called table) := by
  obtain ⟨text, hget, x, hread, hx⟩ := hrow
  obtain ⟨delta, next, hdelta, rfl, hnext⟩ := hp
  have hadded := hx.add hdelta (by omega)
  have hback := hadded.sub hdelta (by omega)
  rw [Int.add_sub_cancel] at hback
  let table := w.store.table.written name (v.withText text) (wholeText (n + c.delta))
  have hincrement : w.store.table.increment name delta = (.ok (some (x + delta)), table) := by
    have hread' : parse? (v.withText text).value = some x := hread
    rw [VariableTable.increment, hget]
    dsimp only
    rw [hread']
    dsimp only
    rw [if_pos hadded.isFinite, hadded.format hsum]
    rfl
  have hrun := run_call_of_memory (d := undisturbed) (c := .increment name) hkind rfl none
    fun t => t.increment name delta
  rw [hincrement] at hrun
  refine ⟨table, VariableTable.get?_written .., ?_⟩
  rw [advance_of_act hpool hrun, hnext, hadded.format hsum, hback.format hn]

/-- In the turn after its addition, a reference notes the change. -/
theorem advance_noting {change : VariableChange} (hpool : pool[i]? = some (c.noting name change)) :
    advance i pool w = (pool.set i (c.counting name change),
      w.noted name c.capabilities.username change) :=
  advance_of_step hpool

/-- In the turn after that, it counts the change. -/
theorem advance_counting {change : VariableChange}
    (hpool : pool[i]? = some (c.counting name change)) :
    advance i pool w = (pool.set i (c.looking name change),
      { w with metrics := w.metrics.bump (.variableMutation .applied) }) :=
  advance_of_step hpool

/-- In its last turn, it looks the wording up and answers. -/
theorem advance_looking {change : VariableChange}
    (hpool : pool[i]? = some (c.looking name change)) :
    advance i pool w = (pool.set i (.done (c.answer name w.store.announcement change)), w) :=
  advance_of_step hpool

end Turns

/-! ## The order of the turns -/

/-- The turns of a schedule before the second turn of a program. -/
def beforeSecond (i : Nat) : List Nat → List Nat
  | [] => []
  | j :: rest => if j = i then j :: rest.takeWhile (· ≠ i) else j :: beforeSecond i rest

/-- The turns before the second one of a program are those in front of it. -/
theorem beforeSecond_append {i : Nat} {before : List Nat} (h : before.count i = 1)
    (after : List Nat) : beforeSecond i (before ++ i :: after) = before := by
  induction before with
  | nil => simp at h
  | cons j before ih =>
    rw [List.cons_append, beforeSecond]
    split
    · rename_i hj
      have hrest : before.count i = 0 := by simpa [hj] using h
      have hne : ∀ k ∈ before, decide (k ≠ i) = true := by
        intro k hk
        have hnot := List.count_eq_zero.1 hrest
        exact decide_eq_true fun heq => hnot (heq ▸ hk)
      rw [List.takeWhile_append_of_pos hne]
      simp
    · rename_i hj
      rw [List.count_cons_of_ne hj] at h
      rw [ih h]

/-- The second turn of a program, where there is one. -/
theorem exists_second {i : Nat} {schedule : List Nat} (h : 2 ≤ schedule.count i) :
    ∃ after, schedule = beforeSecond i schedule ++ i :: after ∧
      (beforeSecond i schedule).count i = 1 := by
  have hmem : i ∈ schedule := List.count_pos_iff.1 (by omega)
  obtain ⟨first, rest, rfl, hfirst⟩ := List.eq_append_cons_of_mem hmem
  have hzero := List.count_eq_zero.2 hfirst
  rw [List.count_append, List.count_cons_self, hzero] at h
  have hmem' : i ∈ rest := List.count_pos_iff.1 (by omega)
  obtain ⟨between, after, rfl, hbetween⟩ := List.eq_append_cons_of_mem hmem'
  have hcount : (first ++ i :: between).count i = 1 := by
    rw [List.count_append, List.count_cons_self, hzero, List.count_eq_zero.2 hbetween]
  have hsplit : first ++ i :: (between ++ i :: after) = (first ++ i :: between) ++ i :: after := by
    simp
  rw [hsplit, beforeSecond_append hcount]
  exact ⟨after, rfl, hcount⟩

section Sums

variable {v : CustomVariable} {step : Int} {n : Nat}

/-- The programs that have had their second turn. -/
def wrote (n : Nat) (schedule : List Nat) : Finset (Fin n) :=
  {i | 2 ≤ schedule.count i.val}

/-- What a variable held in the beginning, and all that has been added to it in the turns of a
schedule. -/
def sumAfter (start : Int) (calls : Fin n → Increment v step) (schedule : List Nat) : Int :=
  start + ∑ i ∈ wrote n schedule, (calls i).delta

/-- One more turn counts for whoever has it. -/
theorem count_snoc (schedule : List Nat) (i j : Nat) :
    (schedule ++ [j]).count i = schedule.count i + if j = i then 1 else 0 := by
  rw [List.count_append, List.count_singleton]
  simp

/-- A turn that is nobody's second one. -/
theorem wrote_snoc {schedule : List Nat} {j : Nat}
    (h : ∀ i : Fin n, i.val = j → schedule.count j ≠ 1) :
    wrote n (schedule ++ [j]) = wrote n schedule := by
  ext i
  simp only [wrote, Finset.mem_filter, Finset.mem_univ, true_and, count_snoc]
  split
  · rename_i hj
    have hcount := h i hj.symm
    subst hj
    omega
  · rfl

/-- A turn that is nobody's second adds nothing. -/
theorem sumAfter_snoc_of_ne (start : Int) (calls : Fin n → Increment v step) {schedule : List Nat}
    {j : Nat} (h : ∀ i : Fin n, i.val = j → schedule.count j ≠ 1) :
    sumAfter start calls (schedule ++ [j]) = sumAfter start calls schedule := by
  rw [sumAfter, wrote_snoc h]
  rfl

/-- In its second turn, a program joins those that have written. -/
theorem wrote_snoc_self {schedule : List Nat} {i : Fin n} (h : schedule.count i.val = 1) :
    i ∉ wrote n schedule ∧ wrote n (schedule ++ [i.val]) = insert i (wrote n schedule) := by
  refine ⟨by simp [wrote, h], ?_⟩
  ext k
  simp only [wrote, Finset.mem_filter, Finset.mem_univ, true_and, Finset.mem_insert, count_snoc]
  by_cases hk : k = i
  · simp [hk, h]
  · have hne : i.val ≠ k.val := fun heq => hk (Fin.ext heq.symm)
    simp [hk, hne]

/-- The second turn of a program adds what the program adds. -/
theorem sumAfter_snoc (start : Int) (calls : Fin n → Increment v step) {schedule : List Nat}
    {i : Fin n} (h : schedule.count i.val = 1) :
    sumAfter start calls (schedule ++ [i.val]) =
      sumAfter start calls schedule + (calls i).delta := by
  obtain ⟨hnot, hwrote⟩ := wrote_snoc_self h
  rw [sumAfter, hwrote, Finset.sum_insert hnot, sumAfter]
  omega

end Sums

/-! ## What holds after any turns -/

section Interleaved

variable {v : CustomVariable} {start step : Int} {n : Nat} {name : String} {w : World ε}
  {calls : Fin n → Increment v step} {schedule : List Nat}

/-- The change that a reference makes in a schedule: it adds to the sum that has been reached before
its second turn. -/
def changeIn (start : Int) (calls : Fin n → Increment v step) (schedule : List Nat) (i : Fin n) :
    VariableChange :=
  let running := sumAfter start calls (beforeSecond i schedule)
  ⟨wholeText running, wholeText (running + (calls i).delta)⟩

/-- The text of the variable after some turns: it is as it was in the beginning until somebody adds
to it. -/
def textAfter (start : Int) (calls : Fin n → Increment v step) (turns : List Nat) : String :=
  if wrote n turns = ∅ then v.value else wholeText (sumAfter start calls turns)

/-- A history with the changes of references recorded in an order. -/
def recorded (name : String) (calls : Fin n → Increment v step) (changes : Fin n → VariableChange)
    (now : Nat) (history : Changelog VariableChange) (order : List (Fin n)) :
    Changelog VariableChange :=
  order.foldl (fun history i =>
    history.record name (calls i).capabilities.username (changes i) now) history

/-- What holds after some turns of a schedule, where `order` is the order in which the references
have noted their changes. -/
structure Underway (name : String) (start : Int) (w : World ε) (calls : Fin n → Increment v step)
    (schedule turns : List Nat) (order : List (Fin n)) (pool : List (Activity ε Answer))
    (w' : World ε) : Prop where
  kind : w'.store.kind = .memory
  clock : w'.clock = w.clock
  announcement : w'.store.announcement = w.store.announcement
  row : w'.store.table.get? name = some (v.withText (textAfter start calls turns))
  left : ∀ i : Fin n, ∃ p, pool[i.val]? = some p ∧
    (calls i).Left name w.store.announcement (changeIn start calls schedule i)
      (turns.count i.val) p
  length : pool.length = n
  noted : ∀ i : Fin n, order.count i = if 3 ≤ turns.count i.val then 1 else 0
  history : w'.store.history =
    recorded name calls (changeIn start calls schedule) w.clock w.store.history order

/-- What is held in the beginning and what any of the references add sum up to less than
`10 ^ 15`. -/
def Small (start : Int) (calls : Fin n → Increment v step) : Prop :=
  ∀ s : Finset (Fin n), (start + ∑ i ∈ s, (calls i).delta).natAbs < 10 ^ 15

/-- Before the first turn, nobody has done anything. -/
theorem underway_nil (hkind : w.store.kind = .memory) (hrow : w.store.table.get? name = some v) :
    Underway name start w calls schedule [] []
      (List.ofFn fun i => (calls i).program name) w where
  kind := hkind
  clock := rfl
  announcement := rfl
  row := by
    rw [textAfter, if_pos (by simp [wrote])]
    exact hrow
  left i := ⟨(calls i).program name, by simp, rfl⟩
  length := List.length_ofFn
  noted i := rfl
  history := rfl

/-- A turn that is nobody's second leaves the text. -/
theorem textAfter_snoc {turns : List Nat} {j : Nat}
    (h : ∀ i : Fin n, i.val = j → turns.count j ≠ 1) :
    textAfter start calls (turns ++ [j]) = textAfter start calls turns := by
  rw [textAfter, wrote_snoc h, sumAfter_snoc_of_ne start calls h]
  rfl

/-- The second turn of a program writes the new sum. -/
theorem textAfter_snoc_self {turns : List Nat} {i : Fin n} (h : turns.count i.val = 1) :
    textAfter start calls (turns ++ [i.val]) =
      wholeText (sumAfter start calls turns + (calls i).delta) := by
  rw [textAfter, (wrote_snoc_self h).2, if_neg (Finset.insert_ne_empty _ _), sumAfter_snoc _ _ h]

/-- The variable holds the sum all along. -/
theorem spells_textAfter (hv : Counts v start step) (hsmall : Small start calls)
    (turns : List Nat) : Spells (textAfter start calls turns) (sumAfter start calls turns) := by
  unfold textAfter
  split
  · rename_i hnone
    obtain ⟨x, hread, hwhole, hpart⟩ := hv.value
    have hstart : start.natAbs < 10 ^ 15 := by simpa using hsmall ∅
    rw [sumAfter, hnone, Finset.sum_empty, Int.add_zero]
    exact ⟨x, hread, denotes_of_isWhole hwhole hpart (by omega)⟩
  · have hsum := hsmall (wrote n turns)
    exact spells_wholeText (by rw [sumAfter]; omega)

/-- The change of the reference whose second turn is the next one. -/
theorem changeIn_eq {turns : List Nat} {i : Fin n} (hnext : turns ++ [i.val] <+: schedule)
    (hcount : turns.count i.val = 1) :
    changeIn start calls schedule i = ⟨wholeText (sumAfter start calls turns),
      wholeText (sumAfter start calls turns + (calls i).delta)⟩ := by
  obtain ⟨after, rfl⟩ := hnext
  rw [List.append_assoc]
  unfold changeIn
  rw [List.singleton_append, beforeSecond_append hcount]

section Turn

variable {turns : List Nat} {order : List (Fin n)} {pool : List (Activity ε Answer)}
  {w' w'' : World ε}

/-- A turn of one reference, which leaves the others where they are. -/
theorem Underway.turn (h : Underway name start w calls schedule turns order pool w') {i : Fin n}
    {q : Activity ε Answer} (hturn : advance i.val pool w' = (pool.set i.val q, w''))
    (hq : (calls i).Left name w.store.announcement (changeIn start calls schedule i)
      (turns.count i.val + 1) q)
    (hkind : w''.store.kind = w'.store.kind) (hclock : w''.clock = w'.clock)
    (hannouncement : w''.store.announcement = w'.store.announcement)
    (hrow : w''.store.table.get? name =
      some (v.withText (textAfter start calls (turns ++ [i.val]))))
    {order' : List (Fin n)}
    (hnoted : ∀ k : Fin n, order'.count k = if 3 ≤ (turns ++ [i.val]).count k.val then 1 else 0)
    (hhistory : w''.store.history =
      recorded name calls (changeIn start calls schedule) w.clock w.store.history order') :
    Underway name start w calls schedule (turns ++ [i.val]) order' (advance i.val pool w').1
      (advance i.val pool w').2 := by
  rw [hturn]
  refine ⟨hkind.trans h.kind, hclock.trans h.clock, hannouncement.trans h.announcement, hrow, ?_,
    by rw [List.length_set, h.length], hnoted, hhistory⟩
  intro k
  rw [count_snoc]
  by_cases hk : i = k
  · subst hk
    have hlength : i.val < pool.length := h.length ▸ i.isLt
    exact ⟨q, List.getElem?_set_self hlength, by rwa [if_pos rfl]⟩
  · have hne : i.val ≠ k.val := fun heq => hk (Fin.ext heq)
    obtain ⟨p, hp, hleft⟩ := h.left k
    exact ⟨p, by rw [List.getElem?_set_ne hne, hp], by rwa [if_neg hne]⟩

/-- A turn that is nobody's second leaves the variable. -/
theorem Underway.row_snoc (h : Underway name start w calls schedule turns order pool w') {j : Nat}
    (hj : ∀ i : Fin n, i.val = j → turns.count j ≠ 1) :
    w'.store.table.get? name = some (v.withText (textAfter start calls (turns ++ [j]))) := by
  rw [textAfter_snoc hj]
  exact h.row

/-- A turn that is nobody's third notes nothing. -/
theorem Underway.noted_snoc (h : Underway name start w calls schedule turns order pool w') {j : Nat}
    (hj : ∀ i : Fin n, i.val = j → turns.count j ≠ 2) (k : Fin n) :
    order.count k = if 3 ≤ (turns ++ [j]).count k.val then 1 else 0 := by
  rw [h.noted, count_snoc]
  by_cases hk : j = k.val
  · have hcount := hj k hk.symm
    subst hk
    rw [if_pos rfl]
    split_ifs <;> omega
  · rw [if_neg hk, Nat.add_zero]

/-- The third turn of a reference notes its change. -/
theorem Underway.noted_snoc_self (h : Underway name start w calls schedule turns order pool w')
    {i : Fin n} (hi : turns.count i.val = 2) (k : Fin n) :
    (order ++ [i]).count k = if 3 ≤ (turns ++ [i.val]).count k.val then 1 else 0 := by
  rw [List.count_append, h.noted, count_snoc, List.count_singleton]
  by_cases hk : i = k
  · subst hk
    simp [hi]
  · have hne : i.val ≠ k.val := fun heq => hk (Fin.ext heq)
    simp [hk, hne]

/-- A turn that passes, since there is no such reference or it has ended. -/
theorem Underway.pass (h : Underway name start w calls schedule turns order pool w') {j : Nat}
    (hturn : advance j pool w' = (pool, w')) (hj : ∀ i : Fin n, i.val = j → 5 ≤ turns.count j) :
    Underway name start w calls schedule (turns ++ [j]) order (advance j pool w').1
      (advance j pool w').2 := by
  rw [hturn]
  have hlate (few : Nat) (hfew : few < 5) (i : Fin n) (hi : i.val = j) : turns.count j ≠ few := by
    have := hj i hi
    omega
  refine { h with
    row := h.row_snoc (hlate 1 (by omega))
    noted := h.noted_snoc (hlate 2 (by omega))
    left := ?_ }
  intro k
  obtain ⟨p, hp, hleft⟩ := h.left k
  refine ⟨p, hp, ?_⟩
  rw [count_snoc]
  by_cases hk : j = k.val
  · obtain ⟨later, hlater⟩ := Nat.exists_eq_add_of_le' (hk ▸ hj k hk.symm)
    rw [hlater] at hleft
    rw [if_pos hk, hlater]
    exact hleft
  · rwa [if_neg hk, Nat.add_zero]

/-- The sum stays small with what a reference adds that has not yet added. -/
theorem natAbs_sumAfter_add (hsmall : Small start calls) {i : Fin n}
    (h : turns.count i.val ≤ 1) :
    (sumAfter start calls turns + (calls i).delta).natAbs < 10 ^ 15 := by
  have hnot : i ∉ wrote n turns := by
    simp only [wrote, Finset.mem_filter, Finset.mem_univ, true_and]
    omega
  have hsum := hsmall (insert i (wrote n turns))
  rw [Finset.sum_insert hnot] at hsum
  rw [sumAfter]
  omega

/-- **One turn.** -/
theorem Underway.next (hv : Counts v start step) (hsmall : Small start calls)
    (h : Underway name start w calls schedule turns order pool w') {j : Nat}
    (hnext : turns ++ [j] <+: schedule) :
    ∃ order', Underway name start w calls schedule (turns ++ [j]) order' (advance j pool w').1
      (advance j pool w').2 := by
  by_cases hj : n ≤ j
  · have hnone : pool[j]? = none := List.getElem?_eq_none (h.length ▸ hj)
    exact ⟨order, h.pass (advance_of_none hnone) fun i hi => absurd i.isLt (by omega)⟩
  obtain ⟨i, rfl⟩ : ∃ i : Fin n, i.val = j := ⟨⟨j, by omega⟩, rfl⟩
  have hholds : Holds w' name v (sumAfter start calls turns) :=
    ⟨_, h.row, spells_textAfter hv hsmall turns⟩
  obtain ⟨p, hp, hleft⟩ := h.left i
  -- a reference takes five turns: it reads, writes, notes the change, counts it, and looks up how
  -- it is announced
  match hturns : turns.count i.val with
  | 0 =>
    rw [hturns] at hleft
    obtain rfl : p = (calls i).program name := hleft
    have hdelta : ((calls i).delta).natAbs < 2 ^ 53 := by
      have hstart := hsmall ∅
      have hsum := hsmall {i}
      rw [Finset.sum_empty] at hstart
      rw [Finset.sum_singleton] at hsum
      omega
    have hsum : (sumAfter start calls turns + (calls i).delta).natAbs < 10 ^ 15 :=
      natAbs_sumAfter_add hsmall (by omega)
    obtain ⟨q, hq, hturn⟩ := advance_program hv h.kind hholds hdelta (by omega) hp
    exact ⟨order, h.turn hturn (by rwa [hturns]) rfl rfl rfl (h.row_snoc fun _ _ => by omega)
      (h.noted_snoc fun _ _ => by omega) h.history⟩
  | 1 =>
    rw [hturns] at hleft
    have hsum : (sumAfter start calls turns + (calls i).delta).natAbs < 10 ^ 15 :=
      natAbs_sumAfter_add hsmall (by omega)
    obtain ⟨table, htable, hturn⟩ :=
      advance_adding h.kind hholds (hsmall (wrote n turns)) hsum hleft hp
    rw [← changeIn_eq hnext hturns] at hturn
    rw [← textAfter_snoc_self hturns] at htable
    exact ⟨order, h.turn hturn (by rw [hturns]; rfl) rfl rfl rfl htable
      (h.noted_snoc fun _ _ => by omega) h.history⟩
  | 2 =>
    rw [hturns] at hleft
    obtain rfl : p = (calls i).noting name (changeIn start calls schedule i) := hleft
    refine ⟨order ++ [i], h.turn (advance_noting hp) (by rw [hturns]; rfl) rfl rfl rfl
      (h.row_snoc fun _ _ => by omega) (h.noted_snoc_self hturns) ?_⟩
    rw [World.noted_history, h.history, h.clock, recorded, recorded, List.foldl_append]
    rfl
  | 3 =>
    rw [hturns] at hleft
    obtain rfl : p = (calls i).counting name (changeIn start calls schedule i) := hleft
    exact ⟨order, h.turn (advance_counting hp) (by rw [hturns]; rfl) rfl rfl rfl
      (h.row_snoc fun _ _ => by omega) (h.noted_snoc fun _ _ => by omega) h.history⟩
  | 4 =>
    rw [hturns] at hleft
    obtain rfl : p = (calls i).looking name (changeIn start calls schedule i) := hleft
    refine ⟨order, h.turn (advance_looking hp) ?_ rfl rfl rfl (h.row_snoc fun _ _ => by omega)
      (h.noted_snoc fun _ _ => by omega) h.history⟩
    rw [hturns, h.announcement]
    rfl
  | later + 5 =>
    rw [hturns] at hleft
    obtain rfl : p = .done _ := hleft
    exact ⟨order, h.pass (advance_of_done hp) fun _ _ => by omega⟩

end Turn

/-- What holds after every beginning of a schedule. -/
theorem underway (hv : Counts v start step) (hkind : w.store.kind = .memory)
    (hrow : w.store.table.get? name = some v) (hsmall : Small start calls) {turns : List Nat}
    (hturns : turns <+: schedule) :
    let run := interleave turns (List.ofFn fun i => (calls i).program name) w
    ∃ order, Underway name start w calls schedule turns order run.1 run.2 := by
  induction turns using List.reverseRecOn with
  | nil => exact ⟨[], underway_nil hkind hrow⟩
  | append_singleton turns j ih =>
    obtain ⟨order, h⟩ := ih ((List.prefix_append turns [j]).trans hturns)
    obtain ⟨order', h'⟩ := h.next hv hsmall hturns
    dsimp only
    rw [interleave_append]
    exact ⟨order', h'⟩

/-- **Increments are neither lost nor doubled.** A number variable that templates may change holds a
whole number, and its step is one. References to it, each of which the sender may make and which
adds or takes away the step or a number of its own, are resolved concurrently, where every call to
the backend in memory is one step; and whichever of them are taken together, what the variable held
in the beginning and what they add sum up to less than `10 ^ 15`. Then, in whatever order they have
their turns,

* the text of the variable is all along that of the sum of what it held in the beginning and of what
  has been added so far, and in the end of all that there is to add;
* every reference is resolved in five turns, and shows its change;
* the history has the change of each reference recorded once, and nothing else in between;
* this change leads to the text that the variable holds right after the reference has written, which
  is that of the sum at this point, from the sum right before. -/
theorem sum_of_interleaved (hv : Counts v start step) (hkind : w.store.kind = .memory)
    (hrow : w.store.table.get? name = some v) (hn : 0 < n) (hsmall : Small start calls)
    (hends : ∀ i : Fin n, 5 ≤ schedule.count i.val) :
    let pool := List.ofFn fun i => (calls i).program name
    let last := interleave schedule pool w
    (∀ turns, turns <+: schedule →
      (interleave turns pool w).2.text? name = some (textAfter start calls turns)) ∧
    last.2.text? name = some (wholeText (start + ∑ i, (calls i).delta)) ∧
    (∀ i : Fin n, last.1[i.val]? = some (.done
      ((calls i).answer name w.store.announcement (changeIn start calls schedule i)))) ∧
    (∃ order : List (Fin n), order.Perm (List.finRange n) ∧ last.2.store.history =
      recorded name calls (changeIn start calls schedule) w.clock w.store.history order) ∧
    ∀ i : Fin n,
      let before := beforeSecond i.val schedule
      before ++ [i.val] <+: schedule ∧ before.count i.val = 1 ∧
        changeIn start calls schedule i = ⟨wholeText (sumAfter start calls before),
          wholeText (sumAfter start calls (before ++ [i.val]))⟩ ∧
        (interleave (before ++ [i.val]) pool w).2.text? name =
          some (changeIn start calls schedule i).newValue := by
  intro pool last
  have htexts : ∀ turns, turns <+: schedule →
      (interleave turns pool w).2.text? name = some (textAfter start calls turns) := by
    intro turns hturns
    obtain ⟨order, h⟩ := underway hv hkind hrow hsmall hturns
    exact World.text?_of_row h.row
  obtain ⟨order, h⟩ := underway hv hkind hrow hsmall (List.prefix_refl schedule)
  -- by the end every reference has had its second turn, in which it writes
  have hwrote : wrote n schedule = Finset.univ := by
    ext i
    have := hends i
    simp only [wrote, Finset.mem_filter, Finset.mem_univ, true_and, iff_true]
    omega
  have hnonempty : (Finset.univ : Finset (Fin n)) ≠ ∅ :=
    Finset.ne_empty_of_mem (Finset.mem_univ ⟨0, hn⟩)
  refine ⟨htexts, ?_, ?_, ⟨order, ?_, h.history⟩, ?_⟩
  · rw [htexts schedule List.prefix_rfl, textAfter, sumAfter, hwrote, if_neg hnonempty]
  · intro i
    obtain ⟨p, hp, hleft⟩ := h.left i
    obtain ⟨later, hlater⟩ := Nat.exists_eq_add_of_le' (hends i)
    rw [hlater] at hleft
    exact hp.trans (congrArg some hleft)
  · rw [List.perm_iff_count]
    intro i
    have := hends i
    rw [h.noted i, if_pos (by omega), List.count_eq_one_of_mem (List.nodup_finRange n)
      (List.mem_finRange i)]
  · intro i before
    obtain ⟨after, hsplit, hcount⟩ := exists_second (Nat.le_trans (by decide) (hends i))
    have hnext : before ++ [i.val] <+: schedule := ⟨after, by rw [hsplit]; simp [before]⟩
    refine ⟨hnext, hcount, ?_, ?_⟩
    · rw [sumAfter_snoc start calls hcount]
      rfl
    · rw [htexts _ hnext, textAfter_snoc_self hcount]
      rfl

end Interleaved

/-! ## Two increments at once -/

namespace Wins

def wins : CustomVariable := { name := "$_wins", kind := .number, value := "007", step := 2.0 }

def start : World Unit where
  store := { table := ⟨NameMap.ofList [("$_wins", wins)]⟩ }
  extra := ()

/-- The wins of the fixture are counted. -/
theorem counts_wins : Counts wins 7 2 where
  kind := rfl
  unprotected := rfl
  value := ⟨7.0, by decide +kernel⟩
  step := by decide +kernel

/-- An operand with a sign and a number adds this number. -/
theorem adds_minus_three : Adds 2 "-3" (-3) := by
  have hdigits : ∀ c ∈ ['3'], Text.isAsciiDigit c := List.forall_mem_singleton.2 rfl
  exact Adds.minus (List.cons_ne_nil '3' []) hdigits

/-- One sender raises the number by its step, and another one takes three away. -/
def calls : Fin 2 → Increment wins 2
  | 0 => {
    operand := some "+"
    capabilities := .viewer ⟨"1", "alice"⟩
    silent := false
    delta := 2
    permitted := by decide
    adds := ⟨"+", by decide, .up⟩ }
  | 1 => {
    operand := some " -3 "
    capabilities := .viewer ⟨"2", "bob"⟩
    silent := false
    delta := -3
    permitted := by decide
    adds := ⟨"-3", by decide, adds_minus_three⟩ }

/-- Both have read before either of them writes. -/
def schedule : List Nat := [0, 1, 1, 0, 0, 0, 0, 1, 1, 1]

/-- After the schedule of the fixture, the wins stand at six. -/
theorem sum_of_wins :
    (interleave schedule (List.ofFn fun i => (calls i).program "$_wins") start).2.text? "$_wins" =
      some "6" := by
  have hrow : start.store.table.get? "$_wins" = some wins := by rfl
  have hsmall : Small 7 calls := by
    unfold Small
    decide +kernel
  have hends : ∀ i : Fin 2, 5 ≤ schedule.count i.val := by decide
  obtain ⟨-, hlast, -⟩ := sum_of_interleaved counts_wins rfl hrow (by decide) hsmall hends
  rw [hlast]
  rfl

end Wins

end Variables

end ChatBot
