import ChatBot.Proofs.Stepwise
import ChatBot.Variables.Operations

/-!
# What writes to a variable have in common

Setting a value and resolving a reference are put together from the same few steps: calls to the
backend, a note in the history, a count and a look at the wording of notices. A property that goes
through `bind` and that each of these steps has (`WriteSteps`) holds of both operations.
-/

set_option autoImplicit false

namespace ChatBot.Variables

variable {ε : Type}

/-- A property of programs that goes through `bind` and that all steps have which are taken to write
to a variable. -/
structure WriteSteps (Q : {α : Type} → Activity ε α → Prop) (d : Disturbances) (name : String) :
    Prop where
  done : ∀ {α : Type} (a : α), Q (.done a)
  bind : ∀ {α β : Type} {p : Activity ε α} {k : α → Activity ε β},
    Q p → (∀ a, Q (k a)) → Q (p.bind k)
  fetch : Q (fetch d name)
  swap : ∀ value, Q (swap d name value)
  increment : ∀ delta, Q (increment d name delta)
  note : ∀ actor change, Q (note name actor change)
  count : ∀ r, Q (countMutation r)
  announcement : Q (Stepwise.read fun w => w.store.announcement)

namespace WriteSteps

variable {Q : {α : Type} → Activity ε α → Prop} {d : Disturbances} {name : String}

/-- Getting a variable has the property, if all steps of writing have it. -/
theorem get (h : WriteSteps Q d name) : Q (Variables.get d name) := by
  refine h.bind h.fetch fun answer => ?_
  split <;> exact h.done _

/-- Setting a value has the property, if all steps of writing have it. -/
theorem setValue (h : WriteSteps Q d name) (value actor : String) :
    Q (Variables.setValue d name value actor) := by
  refine h.bind h.get fun answer => ?_
  split
  · exact h.done _
  split
  · exact h.done _
  refine h.bind (h.swap _) fun answer => ?_
  split
  · exact h.done _
  · exact h.done _
  · exact h.bind (h.note _ _) fun _ => h.get

/-- Writing a mutation has the property, if all steps of writing have it. -/
theorem write (h : WriteSteps Q d name) (m : Mutation) : Q (Variables.write d name m) := by
  cases m with
  | add delta =>
    refine h.bind (h.increment delta) fun answer => ?_
    split <;> exact h.done _
  | set value =>
    refine h.bind (h.swap value) fun answer => ?_
    split <;> exact h.done _

/-- Resolving a reference has the property, if all steps of writing have it. -/
theorem resolve (h : WriteSteps Q d name) (operand : Option String) (c : Capabilities)
    (silent : Bool) : Q (Variables.resolve d name operand c silent) := by
  refine h.bind h.fetch fun answer => ?_
  split
  · exact h.done _
  · exact h.done _
  dsimp only
  split
  · exact h.done _
  split
  · exact h.bind (h.count _) fun _ => h.done _
  split
  · exact h.bind (h.count _) fun _ => h.done _
  refine h.bind (h.write _) fun answer => ?_
  split
  · split
    · exact h.bind (h.count _) fun _ => h.done _
    · exact h.done _
  · exact h.done _
  · exact h.done _
  · refine h.bind (h.note _ _) fun _ => h.bind (h.count _) fun _ => ?_
    exact h.bind h.announcement fun _ => h.done _

end WriteSteps

/-! ## What writes leave alone -/

section Keeps

variable {α γ : Type} {f : World ε → γ}

/-- A call to the backend keeps every view that does not look at the store. -/
theorem keeps_call (h : ∀ w store, f { w with store } = f w) (d : Disturbances) (c : BackendCall)
    (nothing : α) (g : VariableTable → Except BackendError α × VariableTable) :
    (call (ε := ε) d c nothing g).Keeps f :=
  Stepwise.keeps_act fun _ => h _ _

/-- A view of the shared state that shows neither the store nor the counters is kept. -/
theorem writeSteps_keeps (hstore : ∀ w store, f { w with store } = f w)
    (hmetrics : ∀ w metrics, f { w with metrics } = f w) (d : Disturbances) (name : String) :
    WriteSteps (fun p : Activity ε _ => p.Keeps f) d name where
  done := Stepwise.keeps_done
  bind := Stepwise.keeps_bind
  fetch := keeps_call hstore d _ _ _
  swap _ := keeps_call hstore d _ _ _
  increment _ := keeps_call hstore d _ _ _
  note _ _ := Stepwise.keeps_change fun _ => hstore _ _
  count _ := Stepwise.keeps_change fun _ => hmetrics _ _
  announcement := Stepwise.keeps_read _

/-- A call to the backend keeps its kind. -/
theorem keeps_kind_call (d : Disturbances) (c : BackendCall) (nothing : α)
    (g : VariableTable → Except BackendError α × VariableTable) :
    (call (ε := ε) d c nothing g).Keeps fun w => w.store.kind := by
  refine Stepwise.keeps_act fun w => ?_
  unfold VariableStore.call
  dsimp only
  split <;> rfl

/-- Writes leave the variables where they are held. -/
theorem writeSteps_keeps_kind (d : Disturbances) (name : String) :
    WriteSteps (fun p : Activity ε _ => p.Keeps fun w => w.store.kind) d name where
  done := Stepwise.keeps_done
  bind := Stepwise.keeps_bind
  fetch := keeps_kind_call d _ _ _
  swap _ := keeps_kind_call d _ _ _
  increment _ := keeps_kind_call d _ _ _
  note _ _ := Stepwise.keeps_change fun _ => rfl
  count _ := Stepwise.keeps_change fun _ => rfl
  announcement := Stepwise.keeps_read _

end Keeps

end ChatBot.Variables
