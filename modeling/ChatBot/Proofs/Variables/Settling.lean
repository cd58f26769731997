import ChatBot.Proofs.Number.Settling
import ChatBot.Proofs.Variables.Steps
import ChatBot.Proofs.Variables.Validity
import ChatBot.Proofs.Variables.Writes

/-!
# Setting a number to the text that it has

A number variable stores the text of the number that it is set to, and setting it to the text that
it stores should leave it as it is. It does, except for the two kinds of texts that are not written
as they are read: a zero with a sign, and a number that gains a unit of the tenth place. Then
another text is stored, and setting the variable to that one leaves it. Main statement:
`setValue_settles`.
-/

set_option autoImplicit false

namespace ChatBot.Variables

open Stepwise

variable {ε : Type}

/-! ## Values that are set without a disturbance -/

section Undisturbed

variable {d : Disturbances} {w : World ε} {name text : String} {v : CustomVariable}

/-- A served call for a variable finds it. -/
theorem run_get_of_serves (h : w.Serves d 0 (.get name))
    (hrow : w.store.table.get? name = some v) :
    (get d name).run w = (.ok v, w.called w.store.table) := by
  have hfound : found? d w name = some v := (if_pos h).trans hrow
  obtain ⟨answer, hrun, ⟨u, hu, rfl⟩ | ⟨hnone, -⟩⟩ := run_get_found d w name
  · obtain rfl : u = v := Option.some.inj (hu.symm.trans hfound)
    exact hrun
  · rw [hfound] at hnone
    cases hnone

/-- Nothing goes wrong with a value that the kind of the variable admits. -/
theorem run_setValue_of_serves (hget : w.Serves d 0 (.get name))
    (hswap : w.Serves d 1 (.setValue name)) (hread : w.Serves d 2 (.get name))
    (hrow : w.store.table.get? name = some v) {value : String}
    (htext : storedText? v.kind value = some text) (actor : String) :
    ((setValue d name value actor).run w).1 = .ok { v with value := text } := by
  simp only [setValue, bind_eq, run_bind, run_get_of_serves hget hrow, htext]
  rw [run_swap_of_serves ((World.serves_called ..).2 hswap) hrow, World.called_table,
    VariableTable.setValue_of_some hrow]
  simp only [run_bind, run_note]
  rw [run_get_of_serves]
  · exact hread
  · simp

end Undisturbed

/-! ## What setting a value makes of a variable -/

/-- Setting the variable of a name to a value makes it `v`. Undisturbed it is the answer, and
whichever calls to the backend fail, it stands in the table afterwards, or nothing has changed. -/
structure SetsTo (w : World ε) (name value : String) (v : CustomVariable) : Prop where
  answer : ∀ actor, ((setValue undisturbed name value actor).run w).1 = .ok v
  row : ∀ d actor, let r := (setValue d name value actor).run w
    (r.2.records = w.records ∧ ∃ e, r.1 = .error e) ∨ r.2.store.table.get? name = some v

/-- A value that can be stored is the one that setting makes. -/
theorem setsTo_of_storedText? {w : World ε} {name value text : String} {v : CustomVariable}
    (hkind : w.store.kind = .memory) (hrow : w.store.table.get? name = some v)
    (htext : storedText? v.kind value = some text) :
    SetsTo w name value { v with value := text } where
  answer := run_setValue_of_serves ⟨hkind, rfl⟩ ⟨hkind, rfl⟩ ⟨hkind, rfl⟩ hrow htext
  row := by
    intro d actor r
    obtain hfailed | ⟨u, text', hu, htext', -, hrecords⟩ := run_setValue d w name value actor
    · exact .inl hfailed
    · obtain rfl : u = v := Option.some.inj (hu.symm.trans hrow)
      obtain rfl : text' = text := Option.some.inj (htext'.symm.trans htext)
      have htable : r.2.store.table = w.store.table.written name u text' :=
        (Prod.mk.inj hrecords).1
      rw [htable]
      exact .inr (VariableTable.get?_written ..)

/-- Where a value can be set, the variables are held in memory. -/
theorem kind_of_setValue {d : Disturbances} {w : World ε} {name value actor : String}
    {v : CustomVariable} (h : ((setValue d name value actor).run w).1 = .ok v) :
    w.store.kind = .memory := by
  obtain ⟨answer, hget, ⟨u, hfound, -⟩ | ⟨-, e, rfl⟩⟩ := run_get_found d w name
  · unfold found? at hfound
    split at hfound
    · exact And.left ‹_›
    · cases hfound
  · simp only [setValue, bind_eq, run_bind, hget] at h
    cases h

/-- A variable whose value has been set is there, with the text of the value. -/
theorem setValue_ok {d : Disturbances} {w : World ε} {name value actor : String}
    {v : CustomVariable} (h : ((setValue d name value actor).run w).1 = .ok v) :
    let w' := ((setValue d name value actor).run w).2
    w'.store.kind = .memory ∧ w'.store.table.get? name = some v ∧
      storedText? v.kind value = some v.value := by
  intro w'
  obtain ⟨-, e, herror⟩ | ⟨u, text, -, htext, hanswer, hrecords⟩ :=
    run_setValue d w name value actor
  · rw [herror] at h
    cases h
  · obtain hok | ⟨-, e, herror⟩ := hanswer
    · obtain rfl : v = { u with value := text } := Except.ok.inj (h.symm.trans hok)
      have hkind := ((writeSteps_keeps_kind (ε := ε) d name).setValue value actor).run w
      have htable : w'.store.table = w.store.table.written name u text :=
        (Prod.mk.inj hrecords).1
      refine ⟨hkind.trans (kind_of_setValue h), ?_, htext⟩
      rw [htable, VariableTable.get?_written]
    · rw [herror] at h
      cases h

/-- **Setting a number to the text that it has settles it.** Let a number variable be set to any
value, in any state and with any calls to the backend failing, and let that succeed. Setting it
once more, to the text that it now has, leaves this text, with two exceptions: the text `-0`
becomes `0`, and a number that gains a unit of the tenth place, which none does below `2 ^ 18` or
from `2 ^ 52 / 10 ^ 10` up, is written with the unit. Setting the variable to the text that it has
by then leaves it in any case. In the same way the text of any finite number settles when it is
read and written. -/
theorem setValue_settles :
    (∀ x, Number.isFinite x → ∃ again y z, Number.Settles (Number.format x) again y z) ∧
      ∀ (w : World ε) (d : Disturbances) (name value actor : String) (v : CustomVariable),
        ((setValue d name value actor).run w).1 = .ok v → v.kind = .number →
        let w' := ((setValue d name value actor).run w).2
        ∃ again y z, Number.Settles v.value again y z ∧
          SetsTo w' name v.value { v with value := again } ∧
          ∀ w'' : World ε, w''.store.kind = .memory →
            w''.store.table.get? name = some { v with value := again } →
            SetsTo w'' name again { v with value := again } := by
  refine ⟨fun x hx => Number.exists_settles hx, fun w d name value actor v hanswer hnumber => ?_⟩
  intro w'
  obtain ⟨hkind, hrow, htext⟩ := setValue_ok hanswer
  rw [hnumber] at htext
  obtain ⟨x, hx, hvalue⟩ := Option.map_eq_some_iff.1 htext
  obtain ⟨again, y, z, hsettles⟩ := Number.exists_settles (Number.isFinite_of_parse? hx)
  rw [hvalue] at hsettles
  have hfirst : storedText? v.kind v.value = some again := by
    rw [hnumber, storedText?, hsettles.read, Option.map_some, hsettles.written]
  have hsecond : storedText? v.kind again = some again := by
    rw [hnumber, storedText?, hsettles.read_again, Option.map_some, hsettles.settled]
  refine ⟨again, y, z, hsettles, setsTo_of_storedText? hkind hrow hfirst, fun w'' hkind hrow => ?_⟩
  exact setsTo_of_storedText? (v := { v with value := again }) hkind hrow hsecond

/-! ## A debt to the tenth place -/

namespace Debt

def debt : CustomVariable := { name := "$_debt", kind := .number, value := "0" }

def start : World Unit where
  store := { table := ⟨NameMap.ofList [("$_debt", debt)]⟩ }
  extra := ()

def set (text : String) (w : World Unit) : Except VariableError CustomVariable × World Unit :=
  (setValue undisturbed "$_debt" text "admin").run w

/-- The text that is stored when the debt is set to a text, and the one that is stored when it is
set to that. -/
def textsOf (text : String) : Option (String × String) := do
  let first := set text start
  let v ← first.1.toOption
  let v' ← (set v.value first.2).1.toOption
  some (v.value, v'.value)

/-- A debt that has gained a unit is settled. -/
theorem settles_debt :
    let v := { debt with value := "415238.241380533" }
    (set "415238.24138053297" start).1 = .ok v ∧ v.kind = .number ∧
    ∃ y z, Number.Settles "415238.241380533" "415238.2413805331" y z ∧
      SetsTo (set "415238.24138053297" start).2 "$_debt" "415238.241380533"
        { v with value := "415238.2413805331" } := by
  intro v
  have hrow : start.store.table.get? "$_debt" = some debt := rfl
  have htext : storedText? debt.kind "415238.24138053297" = some v.value := by decide +kernel
  have hanswer : (set "415238.24138053297" start).1 = .ok v :=
    run_setValue_of_serves ⟨rfl, rfl⟩ ⟨rfl, rfl⟩ ⟨rfl, rfl⟩ hrow htext "admin"
  obtain ⟨again, y, z, hsettles, hsets, -⟩ :=
    setValue_settles.2 start undisturbed "$_debt" _ "admin" v hanswer rfl
  obtain rfl : again = "415238.2413805331" := by
    have hagain : (Number.parse? "415238.241380533").map Number.format =
        some "415238.2413805331" := by
      decide +kernel
    rw [hsettles.read, Option.map_some, hsettles.written] at hagain
    exact Option.some.inj hagain
  exact ⟨hanswer, rfl, y, z, hsettles, hsets⟩

/-- A unit of the tenth place is gained, and the sign of a zero is lost. -/
theorem texts_change :
    textsOf "415238.24138053297" = some ("415238.241380533", "415238.2413805331") ∧
      textsOf "-0.00000000001" = some ("-0", "0") := by
  decide +kernel

end Debt

end ChatBot.Variables
