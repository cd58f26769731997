import ChatBot.Proofs.Template.Comparison
import ChatBot.Proofs.Template.Script
import ChatBot.Proofs.Template.Writes
import ChatBot.Proofs.Variables.Steps

/-!
# What a filter has done that stays as it is written

A filter stays as it is written, with nothing put in for what stands in it, if it stands too deep or
if it is a choice without a comparison (`GivesUp`). In the first case nothing in it is gone through.
In the second case the nodes of its condition are rendered, although their texts go nowhere: what
they change stays changed, a counter for example (`Uncompared.start`). Main statement: this is all,
so that nothing is changed if all that is done for the condition is harmless (`play_givenUp`).
-/

set_option autoImplicit false

namespace ChatBot.Template

open Stepwise

variable {ε α : Type}

/-! ## What changes nothing -/

/-- From one stage to the other no variable and no history has changed, nothing has been fetched,
and the by-products and the notices are the same. -/
structure Stage.Untouched (s s' : Stage ε) : Prop where
  records : s'.world.records = s.world.records
  fetches : s'.world.fetches = s.world.fetches
  requests : s'.world.requests = s.world.requests
  byProducts : s'.context.byProducts = s.context.byProducts
  notifications : s'.context.notifications = s.context.notifications

namespace Stage.Untouched

variable {s s' s'' : Stage ε}

/-- A stage is untouched when nothing happens. -/
theorem refl (s : Stage ε) : s.Untouched s :=
  ⟨rfl, rfl, rfl, rfl, rfl⟩

/-- A stage that stays untouched twice in a row has stayed so altogether. -/
theorem trans (h : s.Untouched s') (h' : s'.Untouched s'') : s.Untouched s'' where
  records := h'.records.trans h.records
  fetches := h'.fetches.trans h.fetches
  requests := h'.requests.trans h.requests
  byProducts := h'.byProducts.trans h.byProducts
  notifications := h'.notifications.trans h.notifications

/-- A count leaves the stage untouched. -/
theorem counted (s : Stage ε) (c : Counter) : s.Untouched (s.counted c) :=
  ⟨rfl, rfl, rfl, rfl, rfl⟩

end Stage.Untouched

/-- The fetches that have been made, and the requests that have arrived. -/
def traffic (w : World ε) : Nat × List Http.Request :=
  (w.fetches, w.requests)

/-- A program over the shared state that keeps the records and the traffic leaves the stage
untouched. -/
theorem untouched_lift {p : Activity ε α} (hrecords : p.Keeps World.records)
    (htraffic : p.Keeps traffic) (s : Stage ε) :
    s.Untouched (s.play (StateT.lift p)).2 := by
  obtain ⟨hfetches, hrequests⟩ := Prod.mk.inj (htraffic.run s.world)
  rw [Stage.play_lift]
  exact ⟨hrecords.run s.world, hfetches, hrequests, rfl, rfl⟩

/-- A program that keeps the store keeps the records in it. -/
theorem keeps_records_of_store {p : Activity ε α} (h : p.Keeps World.store) :
    p.Keeps World.records :=
  h.comp fun store => (store.table, store.history)

/-! ## Harmless actions -/

/-- An action on a stage that can change nothing: the variable that is resolved is not open to the
sender, and the filter that is evaluated neither fetches anything nor is one's own. -/
def Action.Harmless (e : Engine) (s : Stage ε) : Action → Prop
  | lookUp _ _ => True
  | resolve name _ _ => ∀ v, s.world.store.table.get? name = some v → ¬ Writable s.context v
  | choose => True
  | evaluate a => e.filters.classify a.name ≠ .api ∧
      ∀ filter, e.filters.classify a.name ≠ .custom filter

/-- Looking up who may be drawn fetches nothing. -/
theorem keeps_traffic_eligible (ids : List String) :
    (eligible (ε := ε) ids).Keeps traffic := by
  induction ids with
  | nil => exact keeps_done _
  | cons id rest ih =>
    refine keeps_bind (keeps_act fun _ => rfl) fun user => ?_
    cases user with
    | none => exact ih
    | some u =>
      exact keeps_bind (keeps_read _) fun _ => keeps_bind ih fun _ => keeps_done _

/-- Drawing a user fetches nothing. -/
theorem keeps_traffic_drawUser (e : Engine) (scope : RandomScope) :
    (drawUser (ε := ε) e scope).Keeps traffic := by
  refine keeps_bind (keeps_read _) fun ids =>
    keeps_bind (keeps_traffic_eligible ids) fun pool => ?_
  split
  · exact keeps_bind (keeps_act fun _ => rfl) fun _ => keeps_done _
  · exact keeps_done _

/-- A filter that is neither a fetch nor a custom one leaves the stage untouched. -/
theorem untouched_evaluate (e : Engine) (a : FilterArgs) {kind : FilterKind} (hapi : kind ≠ .api)
    (hcustom : ∀ filter, kind ≠ .custom filter) (s : Stage ε) :
    s.Untouched (s.play (evaluate e a kind)).2 := by
  have hsteps := filterSteps_keeps (ε := ε) e
  cases kind with
  | choice | unknown | math | toPercent | toFloat | byProduct => exact .refl s
  | randomUser scope =>
    exact untouched_lift (keeps_records_of_store (hsteps.drawUser scope))
      (keeps_traffic_drawUser e scope) s
  | randomNumber low high =>
    exact untouched_lift (keeps_records_of_store (hsteps.drawNumber low high))
      (keeps_bind (keeps_act fun _ => rfl) fun _ => keeps_done _) s
  | randomBool =>
    have htraffic : (e.drawBelow (ε := ε) 2 (by omega)).Keeps traffic :=
      keeps_act fun _ => rfl
    exact untouched_lift (keeps_records_of_store (hsteps.draw 2 _)) htraffic s
  | api => exact absurd rfl hapi
  | custom filter => exact absurd rfl (hcustom filter)

/-- A reference to a variable that is not open to the sender shows it, and that is all. -/
theorem untouched_renderVariable (e : Engine) {name : String} (silent : Bool) (source : String)
    (s : Stage ε)
    (h : ∀ v, s.world.store.table.get? name = some v → ¬ Writable s.context v) :
    s.Untouched (s.play (renderVariable e name silent source)).2 := by
  have htraffic := ((Variables.writeSteps_keeps (f := traffic (ε := ε)) (fun _ _ => rfl)
    (fun _ _ => rfl) e.disturbances name).resolve s.context.operand s.context.capabilities
      silent).run s.world
  obtain ⟨hfetches, hrequests⟩ := Prod.mk.inj htraffic
  rcases Variables.run_resolve_answer e.disturbances s.world name s.context.operand
    s.context.capabilities silent with ⟨hrecords, hanswer⟩ |
      ⟨v, op, m, change, hrow, hop, hwritable, -⟩
  -- nothing is written, and what is shown is the value without a notice
  · have hcontext : (s.play (renderVariable e name silent source)).2.context = s.context := by
      simp only [renderVariable, Stage.play_bind, Stage.play_get, Stage.play_lift]
      split
      · rename_i r hr
        obtain ⟨v, -, rfl⟩ := hanswer r hr
        rfl
      · rfl
    obtain ⟨hworld, -, -⟩ := play_renderVariable e name silent source s
    rw [← hworld] at hrecords hfetches hrequests
    exact ⟨hrecords, hfetches, hrequests, congrArg RenderContext.byProducts hcontext,
      congrArg RenderContext.notifications hcontext⟩
  · exact absurd (Writable.of_isWritable hwritable hop) (h v hrow)

/-- A harmless action leaves the stage untouched. -/
theorem Action.Harmless.untouched {e : Engine} {s : Stage ε} {action : Action}
    (h : action.Harmless e s) : s.Untouched (s.play (action.perform e)).2 := by
  cases action with
  | lookUp name source => exact .refl s
  | resolve name silent source => exact untouched_renderVariable e silent source s h
  | choose => exact .counted s _
  | evaluate a =>
    rw [Action.perform, evaluateNamed, Stage.play_bind, Stage.play_count]
    exact (Stage.Untouched.counted s _).trans (untouched_evaluate e a h.1 h.2 _)

/-- A course of harmless actions changes nothing. -/
theorem untouched_of_course {e : Engine} {p : Script α} {s : Stage ε}
    (h : ∀ x ∈ p.course e s, x.1.Harmless e x.2) : s.Untouched (s.play (p.perform e)).2 := by
  induction p generalizing s with
  | done a => exact .refl s
  | ask action next ih =>
    rw [Script.course] at h
    obtain ⟨haction, hrest⟩ := List.forall_mem_cons.1 h
    rw [Script.perform, Stage.play_bind]
    exact haction.untouched.trans (ih _ hrest)

/-! ## Filters that stay as they are written -/

/-- The engine gives up on a filter that stands inside `depth` others, where `limit` filters may
stand inside one another: it stands too deep, or it is a choice whose condition makes no
comparison. -/
inductive GivesUp (limit depth : Nat) : List (List Node) → Prop where
  | deep (h : limit ≤ depth) (segments : List (List Node)) : GivesUp limit depth segments
  | uncompared {head : List Node} (hchoice : startsChoice head = true)
      (hnone : ∀ k : Cut, ¬ k.Cuts none (conditionNodes head)) (rest : List (List Node)) :
      GivesUp limit depth (head :: rest)

/-- A choice without a comparison renders the nodes of its condition and nothing else. -/
theorem play_uncompared {e : Engine} {depth : Nat} (hdepth : depth < e.config.maxRenderDepth)
    {head : List Node} (hchoice : startsChoice head = true)
    (hnone : ∀ k : Cut, ¬ k.Cuts none (conditionNodes head)) (rest : List (List Node))
    (source : String) (s : Stage ε) :
    s.play (renderNode e depth (.filter (head :: rest) source)) =
      (source, ((s.counted (.filterEvaluation "if")).play
        (renderNodes e (depth + 1) (conditionNodes head))).2) := by
  rw [renderNode_of_startsChoice hdepth hchoice, firstCut_eq_none_iff.2 hnone]
  simp only [renderSides, emptyCondition, Stage.play_bind, Stage.play_count, Stage.play_pure]

/-- **What a filter has done that stays as it is written.** Let the engine give up on a filter, on
any stage. Then it comes to the text it is written as, and

* if it stands too deep, nothing at all has changed;
* if it is a choice without a comparison, what has changed is what the nodes of its condition have
  changed, rendered one after the other once the choice has been counted; nothing in its branches
  has been gone through;
* so no variable and no history has changed, no request has been made, and the by-products and the
  notices are as they were, if all that is done for the condition is harmless. -/
theorem play_givenUp (e : Engine) {depth : Nat} {segments : List (List Node)}
    (h : GivesUp e.config.maxRenderDepth depth segments) (source : String) (s : Stage ε) :
    (s.play (renderNode e depth (.filter segments source))).1 = source ∧
    (e.config.maxRenderDepth ≤ depth →
      (s.play (renderNode e depth (.filter segments source))).2 = s) ∧
    ∀ head rest, segments = head :: rest → depth < e.config.maxRenderDepth →
      let chosen := s.counted (.filterEvaluation "if")
      (s.play (renderNode e depth (.filter segments source))).2 =
        (chosen.play (renderNodes e (depth + 1) (conditionNodes head))).2 ∧
      ((∀ x ∈ (scriptNodes e.config.maxRenderDepth (depth + 1) (conditionNodes head)).course e
          chosen, x.1.Harmless e x.2) →
        s.Untouched (s.play (renderNode e depth (.filter segments source))).2) := by
  by_cases hdepth : e.config.maxRenderDepth ≤ depth
  · rw [renderNode_of_limit_le hdepth]
    exact ⟨rfl, fun _ => rfl, fun _ _ _ hless => absurd hdepth (Nat.not_le.2 hless)⟩
  · cases h with
    | deep hdeep => exact absurd hdeep hdepth
    | uncompared hchoice hnone rest =>
      rw [play_uncompared (Nat.not_le.1 hdepth) hchoice hnone]
      refine ⟨rfl, fun hdeep => absurd hdeep hdepth, ?_⟩
      rintro head rest ⟨⟩ -
      refine ⟨rfl, fun hcourse => ?_⟩
      rw [renderNodes_eq_perform]
      exact (Stage.Untouched.counted s _).trans (untouched_of_course hcourse)

/-! ## A counter in a condition without a comparison -/

namespace Uncompared

/-- The variable `$_count` stands at zero, and its changes are announced; what references change it
by is given. -/
def start (operand : Option String) : Stage Unit where
  context := {
    sender := ⟨"1", "alice"⟩
    capabilities := .viewer ⟨"1", "alice"⟩
    operand }
  world := {
    store := {
      table := ⟨NameMap.ofList [("$_count", {
        name := "$_count"
        kind := .number
        value := "0"
        responseType := .announce })]⟩
      announcement := "counted" }
    extra := () }

/-- The name region of `(if $_count|x|y)`. -/
def head : List Node :=
  [.literal "if ", .reference "$_count" false true "$_count"]

/-- The choice. -/
def choice : Node :=
  .filter [head, [.literal "x"], [.literal "y"]] "(if $_count|x|y)"

/-- The engine gives up on the choice of the fixture, since its condition makes no comparison. -/
theorem givesUp_choice :
    GivesUp ({} : Engine).config.maxRenderDepth 0 [head, [.literal "x"], [.literal "y"]] :=
  .uncompared rfl (firstCut_eq_none_iff.1 rfl) _

/-- The choice stays as it is written, and yet the counter has been raised, its history has grown
and its change is announced. -/
theorem play_uncompared_count :
    GivesUp ({} : Engine).config.maxRenderDepth 0 [head, [.literal "x"], [.literal "y"]] ∧
    ((start (some "+")).play (renderNode {} 0 choice)).1 = "(if $_count|x|y)" ∧
    (((start (some "+")).play (renderNode {} 0 choice)).2.world.store.table.get? "$_count").map
      CustomVariable.value = some "1" ∧
    ((((start (some "+")).play (renderNode {} 0 choice)).2.world.store.history.held "$_count").map
      (·.change)) = [⟨"0", "1"⟩] ∧
    ((start (some "+")).play (renderNode {} 0 choice)).2.context.notifications.length = 1 ∧
    ¬ (start (some "+")).Untouched ((start (some "+")).play (renderNode {} 0 choice)).2 := by
  refine ⟨givesUp_choice, by decide +kernel, by decide +kernel, by decide +kernel,
    by decide +kernel, fun h => ?_⟩
  have hnotices := congrArg List.length h.notifications
  revert hnotices
  decide +kernel

/-- Where there is no operand, nothing is changed. -/
theorem play_uncompared_display :
    GivesUp ({} : Engine).config.maxRenderDepth 0 [head, [.literal "x"], [.literal "y"]] ∧
    ((start none).play (renderNode {} 0 choice)).1 = "(if $_count|x|y)" ∧
    (start none).Untouched ((start none).play (renderNode {} 0 choice)).2 := by
  obtain ⟨htext, -, hcondition⟩ :=
    play_givenUp {} givesUp_choice "(if $_count|x|y)" (start none)
  refine ⟨givesUp_choice, htext, (hcondition _ _ rfl (by decide)).2 ?_⟩
  have hharmless : (Action.resolve "$_count" false "$_count").Harmless {}
      ((start none).counted (.filterEvaluation "if")) := by
    intro v hv hwritable
    obtain ⟨text, htext, -⟩ := hwritable.operand
    cases htext
  exact List.forall_mem_singleton.2 hharmless

end Uncompared

end ChatBot.Template
