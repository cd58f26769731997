import ChatBot.Proofs.Template.Filters
import ChatBot.Proofs.Text.Trimming
import ChatBot.Proofs.Variables.Operations
import ChatBot.Proofs.Variables.Resolving

/-!
# What a rendering may write

A rendering changes the store through references to variables and in no other way, and a reference
changes at most the value of the variable it names. Main statement: a rendering neither adds nor
removes a variable nor changes the definition of one, and it touches the value or the history of a
variable only if the template mentions the variable and the sender may write it (`render_writes`).
-/

set_option autoImplicit false

namespace ChatBot

open Stepwise

variable {ε α β : Type}

/-- A variable without its value: all that says what it is and who may change it. -/
def CustomVariable.definition (v : CustomVariable) : CustomVariable :=
  { v with value := "" }

/-- Nothing is left of a blank text when it is trimmed. -/
theorem Text.trim_of_isBlankText {s : String} (h : isBlankText s = true) : trim s = "" := by
  have htrimmed : Trimmed s.toList [] :=
    ⟨⟨s.toList, [], by simp, by simpa [isBlankText] using h, nofun⟩, nofun, nofun⟩
  rw [trim, htrimmed.eq, String.ofList_nil]

namespace Template

/-! ## Renderings that leave the store alone -/

/-- The rendering leaves the store, the operand and the capabilities as they are. -/
def Quiet (p : Render ε α) : Prop :=
  ∀ s : Stage ε, (s.play p).2.world.store = s.world.store ∧
    (s.play p).2.context.operand = s.context.operand ∧
    (s.play p).2.context.capabilities = s.context.capabilities

section Quiet

/-- A rendering that does nothing is quiet. -/
theorem quiet_pure (a : α) : Quiet (pure a : Render ε α) :=
  fun _ => ⟨rfl, rfl, rfl⟩

/-- Quiet renderings in a row are quiet. -/
theorem quiet_bind {p : Render ε α} {k : α → Render ε β} (hp : Quiet p) (hk : ∀ a, Quiet (k a)) :
    Quiet (p >>= k) := by
  intro s
  rw [Stage.play_bind]
  obtain ⟨hstore, hoperand, hcapabilities⟩ := hp s
  obtain ⟨hstore', hoperand', hcapabilities'⟩ := hk (s.play p).1 (s.play p).2
  exact ⟨hstore'.trans hstore, hoperand'.trans hoperand, hcapabilities'.trans hcapabilities⟩

/-- A program over the shared state that keeps the store is quiet. -/
theorem quiet_lift {p : Activity ε α} (h : p.Keeps World.store) : Quiet (StateT.lift p) := by
  intro s
  rw [Stage.play_lift]
  exact ⟨h.run s.world, rfl, rfl⟩

/-- The steps of filters leave the store alone. -/
theorem filterSteps_keeps (e : Engine) :
    FilterSteps (fun p : Activity ε _ => p.Keeps World.store) e :=
  filterSteps_keeps_of (fun _ _ => rfl) (fun _ _ => rfl) (fun _ _ => rfl) (fun _ _ _ => rfl) e

/-- No filter touches the store. -/
theorem filtering_quiet (e : Engine) :
    Filtering (fun p : Activity ε _ => p.Keeps World.store) (fun p => Quiet p) e where
  steps := filterSteps_keeps e
  pure := quiet_pure
  bind := quiet_bind
  lift := quiet_lift
  look _ _ := ⟨rfl, rfl, rfl⟩
  ask _ _ _ _ _ := ⟨rfl, rfl, rfl⟩
  keep _ _ := ⟨rfl, rfl, rfl⟩

end Quiet

/-! ## What may be written -/

/-- What is rendered in the context may write the variable: it is neither protected nor worked out
elsewhere, the sender stands high enough for it, and there is an operand. -/
structure Writable (c : RenderContext) (v : CustomVariable) : Prop where
  unprotected : v.readOnly = false
  kind : v.kind = .number ∨ v.kind = .text
  tier : v.permission ≤ c.capabilities.tier
  operand : ∃ text, c.operand = some text ∧ Text.isBlankText text = false

/-- From one stage to another, variables have come to stand as rendering may leave them: each has
the definition that it had, and it has kept its value and its history too unless it is one of those
that are mentioned and could be written. -/
structure Writes (mentioned : String → Prop) (s s' : Stage ε) : Prop where
  operand : s'.context.operand = s.context.operand
  capabilities : s'.context.capabilities = s.context.capabilities
  definitions : ∀ name, (s'.world.store.table.get? name).map CustomVariable.definition =
    (s.world.store.table.get? name).map CustomVariable.definition
  frame : ∀ name,
    (s'.world.store.table.get? name = s.world.store.table.get? name ∧
      s'.world.store.history.held name = s.world.store.history.held name) ∨
    (mentioned name ∧ ∃ v, s.world.store.table.get? name = some v ∧ Writable s.context v)

/-- Whether a variable may be written depends on the operand and the capabilities of the context. -/
theorem Writable.congr {c c' : RenderContext} (hoperand : c'.operand = c.operand)
    (hcapabilities : c'.capabilities = c.capabilities) {v : CustomVariable} (h : Writable c' v) :
    Writable c v :=
  ⟨h.unprotected, h.kind, hcapabilities ▸ h.tier, hoperand ▸ h.operand⟩

namespace Writes

variable {mentioned : String → Prop} {s s' s'' : Stage ε}

/-- Nothing has been written if the records are the same. -/
theorem of_records (hoperand : s'.context.operand = s.context.operand)
    (hcapabilities : s'.context.capabilities = s.context.capabilities)
    (hrecords : s'.world.records = s.world.records) : Writes mentioned s s' := by
  obtain ⟨htable, hhistory⟩ := Prod.mk.inj hrecords
  exact ⟨hoperand, hcapabilities, fun _ => by rw [htable],
    fun _ => .inl ⟨by rw [htable], by rw [hhistory]⟩⟩

/-- What is left of the variables twice in a row is what may be left altogether. -/
theorem trans (h : Writes mentioned s s') (h' : Writes mentioned s' s'') :
    Writes mentioned s s'' where
  operand := h'.operand.trans h.operand
  capabilities := h'.capabilities.trans h.capabilities
  definitions name := (h'.definitions name).trans (h.definitions name)
  frame name := by
    rcases h.frame name with ⟨hrow, hheld⟩ | hwritten
    · rcases h'.frame name with ⟨hrow', hheld'⟩ | ⟨hmentioned, v, hv, hwritable⟩
      · exact .inl ⟨hrow'.trans hrow, hheld'.trans hheld⟩
      -- what the second part writes is still as it was at the start
      · exact .inr ⟨hmentioned, v, hrow ▸ hv, hwritable.congr h.operand h.capabilities⟩
    · exact .inr hwritten

end Writes

/-- A quiet rendering writes nothing. -/
theorem Quiet.writes {p : Render ε α} (h : Quiet p) (mentioned : String → Prop) (s : Stage ε) :
    Writes mentioned s (s.play p).2 := by
  obtain ⟨hstore, hoperand, hcapabilities⟩ := h s
  exact .of_records hoperand hcapabilities (by rw [World.records, World.records, hstore])

/-- An operand of which something is left when it is trimmed is not blank. -/
theorem isBlankText_of_trimmedOperand {operand : Option String} {op : String}
    (h : Variables.trimmedOperand operand = some op) :
    ∃ text, operand = some text ∧ Text.isBlankText text = false := by
  obtain ⟨text, rfl, hleft, -⟩ := Variables.trimmedOperand_eq_some_iff.1 h
  refine ⟨text, rfl, ?_⟩
  cases hblank : Text.isBlankText text with
  | false => rfl
  | true => exact absurd (Text.trim_of_isBlankText hblank) hleft

/-- A variable that the store finds writable, with an operand that is not blank, may be written. -/
theorem Writable.of_isWritable {c : RenderContext} {v : CustomVariable} {op : String}
    (hwritable : Variables.isWritable v c.capabilities)
    (hoperand : Variables.trimmedOperand c.operand = some op) : Writable c v := by
  obtain ⟨hreadOnly, hkind, htier⟩ := Variables.isWritable_iff.1 hwritable
  refine ⟨hreadOnly, ?_, htier, isBlankText_of_trimmedOperand hoperand⟩
  cases hk : v.kind with
  | number => exact .inl rfl
  | text => exact .inr rfl
  | eval => exact absurd hk hkind

/-- A reference leaves the stage that resolving it leaves, perhaps with a notice more. -/
theorem play_renderVariable (e : Engine) (name : String) (silent : Bool) (source : String)
    (s : Stage ε) :
    let r := s.play (renderVariable e name silent source)
    r.2.world = ((Variables.resolve e.disturbances name s.context.operand s.context.capabilities
      silent).run s.world).2 ∧
    r.2.context.operand = s.context.operand ∧
    r.2.context.capabilities = s.context.capabilities := by
  simp only [renderVariable, Stage.play_bind, Stage.play_get, Stage.play_lift]
  split
  · split <;> exact ⟨rfl, rfl, rfl⟩
  · exact ⟨rfl, rfl, rfl⟩

/-- A reference writes at most the variable that it names. -/
theorem writes_renderVariable (e : Engine) {name : String} (silent : Bool) (source : String)
    {mentioned : String → Prop} (hname : mentioned name) (s : Stage ε) :
    Writes mentioned s (s.play (renderVariable e name silent source)).2 := by
  obtain ⟨hworld, hoperand, hcapabilities⟩ := play_renderVariable e name silent source s
  rcases Variables.run_resolve e.disturbances s.world name s.context.operand s.context.capabilities
    silent with hrecords | ⟨v, op, m, change, hrow, hop, hwritable, -, -, -, hrecords⟩
  · exact .of_records hoperand hcapabilities (by rw [hworld, hrecords])
  · rw [← hworld] at hrecords
    obtain ⟨htable, hhistory⟩ := Prod.mk.inj hrecords
    have hothers : ∀ other, other ≠ name →
        (s.play (renderVariable e name silent source)).2.world.store.table.get? other =
            s.world.store.table.get? other ∧
          (s.play (renderVariable e name silent source)).2.world.store.history.held other =
            s.world.store.history.held other := fun other hne => by
      rw [htable, hhistory]
      exact ⟨VariableTable.get?_written_of_ne _ hne _ _, Changelog.held_record_of_ne _ hne _ _ _⟩
    refine ⟨hoperand, hcapabilities, fun other => ?_, fun other => ?_⟩
    · by_cases hne : other = name
      · subst hne
        rw [htable, VariableTable.get?_written, hrow]
        rfl
      · rw [(hothers other hne).1]
    · by_cases hne : other = name
      · subst hne
        exact .inr ⟨hname, v, hrow, .of_isWritable hwritable hop⟩
      · exact .inl (hothers other hne)

/-- Writing as a sender may goes through rendering. -/
theorem passing_writes (e : Engine) (mentioned : String → Prop) :
    Passing (fun p : Render ε _ => ∀ s, Writes mentioned s (s.play p).2) e where
  pure a := (quiet_pure a).writes mentioned
  bind hp hk s := by
    rw [Stage.play_bind]
    exact (hp s).trans (hk _ _)
  count label := ((filtering_quiet e).passing.count label).writes mentioned
  param name source := ((filtering_quiet e).passing.param name source).writes mentioned
  evaluate a name := ((filtering_quiet e).evaluate a name).writes mentioned

/-- A rendering can write only what the sender may write. Whatever is rendered in whatever context
and state, and whichever calls to the backend go wrong, every variable is there afterwards that was
there before and no other, each with the definition that it had; and a variable whose value or
history is not as it was is mentioned in the template and open to the sender, who gave an operand
that is not blank. -/
theorem render_writes (e : Engine) (nodes : List Node) (s : Stage ε) :
    Writes (fun name => ∃ n ∈ nodes, n.Mentions name) s (s.play (render e nodes)).2 := by
  have hnodes : Writes (fun name => ∃ n ∈ nodes, n.Mentions name) s
      (s.play (renderNodes e 0 nodes)).2 :=
    (passing_writes e _).renderNodes 0 nodes
      (fun n hn name silent source hmention =>
        writes_renderVariable e silent source ⟨n, hn, hmention⟩) s
  refine hnodes.trans ?_
  simp only [render, Stage.play_bind, Stage.play_count, Stage.play_get, Stage.play_set]
  exact .of_records rfl rfl rfl

end Template

end ChatBot
