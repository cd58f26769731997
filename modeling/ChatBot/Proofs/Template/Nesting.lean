import ChatBot.Proofs.NameMap
import ChatBot.Proofs.Template.Choice
import ChatBot.Proofs.Template.Filters
import ChatBot.Proofs.Traces
import ChatBot.Template.Builder

/-!
# Filters that stand too deep

The limit of a rendering says how many filters may stand inside one another and still be evaluated.
To say what it does to a template, the template is *sealed*: each filter that stands inside as many
others as the limit allows is replaced, with all that stands in it, by a reference to a parameter
that has no value. Such a reference comes to its own text and does nothing else. (Literal text in
its place would not do: in the condition of a choice it could make the comparison.) So a sealed
template says of each filter too deep that its text is all there is to it, while all other filters
are as they were (`sealNodes`), and no more filters stand in one another than the limit allows
(`nesting_sealNodes`).

Main statement: rendering a template under a limit takes the same steps as rendering the sealed
template under any larger limit (`render_sealed`). A template in which no filter stands too deep is
its own sealed form, so that the limit makes no difference to it.
-/

set_option autoImplicit false

namespace ChatBot.Template

open Stepwise

variable {ε α β : Type}

/-! ## Sealed templates -/

mutual

/-- A node with room for `room` filters in one another, and with references to the parameter `blank`
in the place of the filters for which there is no room. -/
def sealNode (blank : String) (room : Nat) : Node → Node
  | .literal text => .literal text
  | .reference name silent persisted source => .reference name silent persisted source
  | .filter segments source =>
    match room with
    | 0 => .reference blank false false source
    | room + 1 => .filter (sealSegments blank room segments) source

/-- The same of nodes in a row. -/
def sealNodes (blank : String) (room : Nat) : List Node → List Node
  | [] => []
  | n :: rest => sealNode blank room n :: sealNodes blank room rest

/-- The same of segments. -/
def sealSegments (blank : String) (room : Nat) : List (List Node) → List (List Node)
  | [] => []
  | segment :: rest => sealNodes blank room segment :: sealSegments blank room rest

end

mutual

/-- How many filters stand in one another in a node. -/
def Node.nesting : Node → Nat
  | .literal _ => 0
  | .reference _ _ _ _ => 0
  | .filter segments _ => nestingSegments segments + 1

/-- The same of nodes in a row. -/
def nestingNodes : List Node → Nat
  | [] => 0
  | n :: rest => max n.nesting (nestingNodes rest)

/-- The same of segments. -/
def nestingSegments : List (List Node) → Nat
  | [] => 0
  | segment :: rest => max (nestingNodes segment) (nestingSegments rest)

end

mutual

/-- In a sealed node, no more filters stand in one another than there is room for. -/
theorem nesting_sealNode (blank : String) (room : Nat) : (n : Node) →
    (sealNode blank room n).nesting ≤ room
  | .literal text => Nat.zero_le room
  | .reference name silent persisted source => Nat.zero_le room
  | .filter segments source => by
    cases room with
    | zero => exact Nat.le_refl 0
    | succ room => exact Nat.succ_le_succ (nesting_sealSegments blank room segments)

/-- In a sealed template no more filters stand in one another than there is room for. -/
theorem nesting_sealNodes (blank : String) (room : Nat) : (nodes : List Node) →
    nestingNodes (sealNodes blank room nodes) ≤ room
  | [] => Nat.zero_le room
  | n :: rest => Nat.max_le.2 ⟨nesting_sealNode blank room n, nesting_sealNodes blank room rest⟩

/-- In sealed segments, no more filters stand in one another than there is room for. -/
theorem nesting_sealSegments (blank : String) (room : Nat) : (segments : List (List Node)) →
    nestingSegments (sealSegments blank room segments) ≤ room
  | [] => Nat.zero_le room
  | segment :: rest =>
    Nat.max_le.2 ⟨nesting_sealNodes blank room segment, nesting_sealSegments blank room rest⟩

end

mutual

/-- A node for whose filters there is room is sealed to itself. -/
theorem sealNode_eq_self (blank : String) {room : Nat} : (n : Node) → n.nesting ≤ room →
    sealNode blank room n = n
  | .literal text, _ => rfl
  | .reference name silent persisted source, _ => rfl
  | .filter segments source, h => by
    cases room with
    | zero => exact absurd h (Nat.not_succ_le_zero _)
    | succ room =>
      rw [sealNode, sealSegments_eq_self blank segments (Nat.le_of_succ_le_succ h)]

/-- A template in which no filter stands too deep is left as it is. -/
theorem sealNodes_eq_self (blank : String) {room : Nat} : (nodes : List Node) →
    nestingNodes nodes ≤ room → sealNodes blank room nodes = nodes
  | [], _ => rfl
  | n :: rest, h => by
    obtain ⟨hn, hrest⟩ := Nat.max_le.1 h
    rw [sealNodes, sealNode_eq_self blank n hn, sealNodes_eq_self blank rest hrest]

/-- Segments for whose filters there is room are sealed to themselves. -/
theorem sealSegments_eq_self (blank : String) {room : Nat} : (segments : List (List Node)) →
    nestingSegments segments ≤ room → sealSegments blank room segments = segments
  | [], _ => rfl
  | segment :: rest, h => by
    obtain ⟨hsegment, hrest⟩ := Nat.max_le.1 h
    rw [sealSegments, sealNodes_eq_self blank segment hsegment,
      sealSegments_eq_self blank rest hrest]

end

/-- Sealing leaves alone what makes a filter a choice. -/
theorem startsChoice_sealNodes (blank : String) (room : Nat) (head : List Node) :
    startsChoice (sealNodes blank room head) = startsChoice head := by
  cases head with
  | nil => rfl
  | cons n rest =>
    cases n with
    | literal text => rfl
    | reference name silent persisted source => rfl
    | filter segments source => cases room <;> rfl

/-! ## Parameters are never changed -/

/-- Whatever it finds on its way, the rendering leaves the parameters as they are. -/
def KeepsParams (p : Render ε α) : Prop :=
  ∀ c : RenderContext, (p.run c).Yields fun r => r.2.params = c.params

/-- A rendering that does nothing leaves the parameters. -/
theorem keepsParams_pure (a : α) : KeepsParams (pure a : Render ε α) :=
  fun _ => rfl

/-- Renderings in a row leave the parameters. -/
theorem keepsParams_bind {p : Render ε α} {k : α → Render ε β} (hp : KeepsParams p)
    (hk : ∀ a, KeepsParams (k a)) : KeepsParams (p >>= k) := by
  intro c
  rw [StateT.run_bind]
  refine yields_bind (hp c) fun r hr => ?_
  have hnext := hk r.1 r.2
  rwa [hr] at hnext

/-- A program over the shared state leaves the parameters. -/
theorem keepsParams_lift (p : Activity ε α) : KeepsParams (StateT.lift p : Render ε α) := by
  intro c
  rw [StateT.run_lift]
  exact yields_bind (yields_true p) fun a _ => rfl

/-- No filter changes the parameters. -/
theorem filtering_keepsParams (e : Engine) :
    Filtering (fun _ : Activity ε _ => True) (fun p => KeepsParams p) e where
  steps := ⟨fun _ => trivial, fun _ _ => trivial, fun _ => trivial, fun _ _ => trivial,
    fun _ => trivial, fun _ => trivial, fun _ => trivial, fun _ _ _ => trivial⟩
  pure := keepsParams_pure
  bind := keepsParams_bind
  lift _ := keepsParams_lift _
  look _ _ := rfl
  ask _ _ _ _ _ := rfl
  keep _ _ := rfl

/-- Resolving a variable leaves the parameters. -/
theorem keepsParams_renderVariable (e : Engine) (name : String) (silent : Bool) (source : String) :
    KeepsParams (renderVariable (ε := ε) e name silent source) := by
  refine keepsParams_bind (fun _ => rfl) fun c => keepsParams_bind (keepsParams_lift _) ?_
  intro resolved
  split
  · dsimp only
    split
    · exact keepsParams_bind (fun _ => rfl) fun _ => keepsParams_pure _
    · exact keepsParams_bind (keepsParams_pure _) fun _ => keepsParams_pure _
  · exact keepsParams_pure _

/-- Rendering a node leaves the parameters. -/
theorem keepsParams_renderNode (e : Engine) (depth : Nat) (n : Node) :
    KeepsParams (renderNode (ε := ε) e depth n) :=
  (filtering_keepsParams e).passing.renderNode depth n fun name silent source _ =>
    keepsParams_renderVariable e name silent source

/-- Rendering nodes leaves the parameters. -/
theorem keepsParams_renderNodes (e : Engine) (depth : Nat) (nodes : List Node) :
    KeepsParams (renderNodes (ε := ε) e depth nodes) :=
  (filtering_keepsParams e).renderNodes (keepsParams_renderVariable e) depth nodes

/-- Rendering segments leaves the parameters. -/
theorem keepsParams_renderSegments (e : Engine) (depth : Nat) (segments : List (List Node)) :
    KeepsParams (renderSegments (ε := ε) e depth segments) :=
  (filtering_keepsParams e).passing.renderSegments depth segments
    fun _ _ _ _ name silent source _ => keepsParams_renderVariable e name silent source

/-- Rendering a condition leaves the parameters. -/
theorem keepsParams_renderCondition (e : Engine) (depth : Nat) (first : Bool) (c : Condition)
    (nodes : List Node) : KeepsParams (renderCondition (ε := ε) e depth first c nodes) :=
  (filtering_keepsParams e).passing.renderCondition depth first c nodes
    fun _ _ name silent source _ => keepsParams_renderVariable e name silent source

/-! ## Two renderings that take the same steps -/

/-- In every context in which the parameter has no value, the renderings take the same steps. -/
def SameWithout (blank : String) (p q : Render ε α) : Prop :=
  ∀ c : RenderContext, c.params[blank]? = none → p.run c = q.run c

/-- Every rendering takes the same steps as itself. -/
theorem sameWithout_refl (blank : String) (p : Render ε α) : SameWithout blank p p :=
  fun _ _ => rfl

/-- Renderings in a row take the same steps if each of them does, and the first leaves the
parameters. -/
theorem sameWithout_bind {blank : String} {p q : Render ε α} {k k' : α → Render ε β}
    (hp : SameWithout blank p q) (hkeeps : KeepsParams p)
    (hk : ∀ a, SameWithout blank (k a) (k' a)) : SameWithout blank (p >>= k) (q >>= k') := by
  intro c hc
  rw [StateT.run_bind, StateT.run_bind, ← hp c hc]
  refine bind_congr_of_yields (hkeeps c) fun r hr => hk r.1 r.2 ?_
  rwa [hr]

/-- A parameter without a value stays as it is written. -/
theorem sameWithout_renderParam (blank source : String) :
    SameWithout blank (pure source : Render ε String) (renderParam blank source) := by
  intro c hc
  have hrun : (renderParam (ε := ε) blank source).run c =
      .done ((c.params[blank]?).getD source, c) := rfl
  rw [hrun, hc]
  rfl

/-- The engine with another limit on how many filters may stand in one another. -/
def Engine.limited (e : Engine) (limit : Nat) : Engine :=
  { e with config := { e.config with maxRenderDepth := limit } }

/-- The limit plays no part once the name and the arguments of a filter are rendered. -/
theorem evaluateNamed_limited (e : Engine) (limit : Nat) (a : FilterArgs) :
    evaluateNamed (ε := ε) (e.limited limit) a = evaluateNamed e a := by
  have hevaluate : ∀ kind : FilterKind,
      evaluate (ε := ε) (e.limited limit) a kind = evaluate e a kind := by
    intro kind
    cases kind <;> rfl
  unfold evaluateNamed
  simp only [hevaluate]
  rfl

section Sealed

variable {blank : String} {e : Engine} {limit larger : Nat}

mutual

/-- A node that stands inside `depth` filters, where there is room for `room` more. -/
theorem sameWithout_renderNode (hle : limit ≤ larger) {depth room : Nat}
    (hroom : depth + room = limit) : (n : Node) → SameWithout blank
      (renderNode (ε := ε) (e.limited limit) depth n)
      (renderNode (e.limited larger) depth (sealNode blank room n))
  | .literal text => by
    rw [sealNode, renderNode, renderNode]
    exact sameWithout_refl _ _
  | .reference name silent persisted source => by
    rw [sealNode, renderNode, renderNode]
    exact sameWithout_refl _ _
  | .filter segments source => by
    cases room with
    | zero =>
      have hdeep : (e.limited limit).config.maxRenderDepth ≤ depth := Nat.le_of_eq hroom.symm
      rw [sealNode, renderNode_of_limit_le hdeep, renderNode]
      exact sameWithout_renderParam blank source
    | succ room =>
      have hdepth : ¬ (e.limited limit).config.maxRenderDepth ≤ depth := by
        change ¬ limit ≤ depth
        omega
      have hdepth' : ¬ (e.limited larger).config.maxRenderDepth ≤ depth := by
        change ¬ larger ≤ depth
        omega
      have hinner : depth + 1 + room = limit := by omega
      match segments with
      | [] =>
        rw [sealNode, sealSegments, renderNode, renderNode, if_neg hdepth, if_neg hdepth',
          evaluateNamed_limited, evaluateNamed_limited]
        exact sameWithout_refl _ _
      | head :: rest =>
        rw [sealNode, sealSegments, renderNode, renderNode, if_neg hdepth, if_neg hdepth',
          startsChoice_sealNodes]
        split
        -- a choice: its condition, and then one branch or the other
        · refine sameWithout_bind (sameWithout_refl _ _) (keepsParams_lift _) fun _ =>
            sameWithout_bind (sameWithout_renderCondition hle hinner true emptyCondition head)
              (keepsParams_renderCondition _ _ _ _ _) fun c => ?_
          cases c.equality with
          | none => exact sameWithout_refl _ _
          | some equality =>
            match rest with
            | [] => exact sameWithout_refl _ _
            | branch :: others =>
              dsimp only [sealSegments]
              split
              · exact sameWithout_renderNodes hle hinner branch
              · exact sameWithout_bind (sameWithout_renderSegments hle hinner others)
                  (keepsParams_renderSegments _ _ _) fun _ => sameWithout_refl _ _
        -- another filter: its name, and then its arguments
        · refine sameWithout_bind (sameWithout_renderNodes hle hinner head)
            (keepsParams_renderNodes _ _ _) fun name =>
            sameWithout_bind (sameWithout_renderSegments hle hinner rest)
              (keepsParams_renderSegments _ _ _) fun args => ?_
          rw [evaluateNamed_limited, evaluateNamed_limited]
          exact sameWithout_refl _ _

/-- Nodes take the same steps under a limit as they do, sealed, under a larger one. -/
theorem sameWithout_renderNodes (hle : limit ≤ larger) {depth room : Nat}
    (hroom : depth + room = limit) : (nodes : List Node) → SameWithout blank
      (renderNodes (ε := ε) (e.limited limit) depth nodes)
      (renderNodes (e.limited larger) depth (sealNodes blank room nodes))
  | [] => by
    rw [sealNodes, renderNodes, renderNodes]
    exact sameWithout_refl _ _
  | n :: rest => by
    rw [sealNodes, renderNodes, renderNodes]
    exact sameWithout_bind (sameWithout_renderNode hle hroom n) (keepsParams_renderNode _ _ _)
      fun text => sameWithout_bind (sameWithout_renderNodes hle hroom rest)
        (keepsParams_renderNodes _ _ _) fun more => sameWithout_refl _ _

/-- Segments take the same steps under a limit as they do, sealed, under a larger one. -/
theorem sameWithout_renderSegments (hle : limit ≤ larger) {depth room : Nat}
    (hroom : depth + room = limit) : (segments : List (List Node)) → SameWithout blank
      (renderSegments (ε := ε) (e.limited limit) depth segments)
      (renderSegments (e.limited larger) depth (sealSegments blank room segments))
  | [] => by
    rw [sealSegments, renderSegments, renderSegments]
    exact sameWithout_refl _ _
  | segment :: rest => by
    rw [sealSegments, renderSegments, renderSegments]
    exact sameWithout_bind (sameWithout_renderNodes hle hroom segment)
      (keepsParams_renderNodes _ _ _) fun text =>
        sameWithout_bind (sameWithout_renderSegments hle hroom rest)
          (keepsParams_renderSegments _ _ _) fun more => sameWithout_refl _ _

/-- A condition takes the same steps under a limit as it does, sealed, under a larger one. -/
theorem sameWithout_renderCondition (hle : limit ≤ larger) {depth room : Nat}
    (hroom : depth + room = limit) (first : Bool) (c : Condition) : (nodes : List Node) →
    SameWithout blank
      (renderCondition (ε := ε) (e.limited limit) depth first c nodes)
      (renderCondition (e.limited larger) depth first c (sealNodes blank room nodes))
  | [] => by
    rw [sealNodes, renderCondition, renderCondition]
    exact sameWithout_refl _ _
  | n :: rest => by
    have hn : SameWithout blank (renderNode (ε := ε) (e.limited limit) depth n)
        (renderNode (e.limited larger) depth (sealNode blank room n)) :=
      sameWithout_renderNode hle hroom n
    have hrest : ∀ c, SameWithout blank
        (renderCondition (ε := ε) (e.limited limit) depth false c rest)
        (renderCondition (e.limited larger) depth false c (sealNodes blank room rest)) :=
      fun c => sameWithout_renderCondition hle hroom false c rest
    cases n with
    | literal text =>
      rw [sealNodes, sealNode, renderCondition, renderCondition]
      exact hrest _
    | reference name silent persisted source =>
      rw [sealNodes, sealNode, renderCondition, renderCondition]
      · exact sameWithout_bind hn (keepsParams_renderNode _ _ _) fun text => hrest _
      · simp
      · simp
    | filter segments source =>
      have hliteral : ∀ text, sealNode blank room (.filter segments source) ≠ .literal text := by
        cases room <;> simp [sealNode]
      rw [sealNodes, renderCondition, renderCondition]
      · exact sameWithout_bind hn (keepsParams_renderNode _ _ _) fun text => hrest _
      · exact hliteral
      · simp

end

/-- Rendering a template under a limit takes the steps of rendering the sealed template under a
larger one. -/
theorem sameWithout_render (hle : limit ≤ larger) (nodes : List Node) : SameWithout blank
    (render (ε := ε) (e.limited limit) nodes)
    (render (e.limited larger) (sealNodes blank limit nodes)) := by
  have hnodes : SameWithout blank (renderNodes (ε := ε) (e.limited limit) 0 nodes)
      (renderNodes (e.limited larger) 0 (sealNodes blank limit nodes)) :=
    sameWithout_renderNodes hle (Nat.zero_add limit) nodes
  exact sameWithout_bind hnodes (keepsParams_renderNodes _ _ _) fun _ => sameWithout_refl _ _

end Sealed

/-- **The limit on filters inside one another.** Render a template in a context under the limit
`limit`, and let `larger` be the same limit or a larger one.

* Some parameter has no value in the context.
* Let `blank` be such a parameter. A reference to it comes to the text it is written as and does
  nothing. The rendering takes the same steps as the rendering, under the larger limit, of the
  sealed template, in which each filter that stands in at least `limit` others is replaced by a
  reference to `blank` that is written as the filter is. So the text, the notices, the by-products
  and all that is shared come out the same. In the sealed template at most `limit` filters stand in
  one another.
* If no filter of the template itself stands in as many others as the limit says, rendering the
  template takes the same steps under both limits. -/
theorem render_sealed (e : Engine) {limit larger : Nat} (hle : limit ≤ larger) (nodes : List Node)
    (c : RenderContext) :
    (∃ blank : String, c.params[blank]? = none) ∧
    (∀ blank : String, c.params[blank]? = none →
      (∀ depth source, (renderNode (ε := ε) (e.limited larger) depth
        (.reference blank false false source)).run c = pure (source, c)) ∧
      (render (ε := ε) (e.limited limit) nodes).run c =
        (render (e.limited larger) (sealNodes blank limit nodes)).run c ∧
      nestingNodes (sealNodes blank limit nodes) ≤ limit) ∧
    (nestingNodes nodes ≤ limit →
      (render (ε := ε) (e.limited limit) nodes).run c =
        (render (e.limited larger) nodes).run c) := by
  have hblank := NameMap.exists_getElem?_eq_none c.params
  refine ⟨hblank, fun blank h => ⟨fun depth source => ?_, ?_, ?_⟩, fun hnesting => ?_⟩
  · rw [renderNode]
    exact (sameWithout_renderParam blank source c h).symm
  · exact sameWithout_render hle nodes c h
  · exact nesting_sealNodes blank limit nodes
  · obtain ⟨blank, h⟩ := hblank
    have hsealed := sameWithout_render (ε := ε) (e := e) hle nodes c h
    rwa [sealNodes_eq_self blank nodes hnesting] at hsealed

namespace Counting

/-- The counter, mentioned in a filter that stands in two others. -/
def nested : List Node :=
  parse "(if 1==1|(if 1!=2|(math $_count)|no)|no)"

/-- Where two filters may stand in one another, the innermost of three stays as it is written, and
the counter in it keeps its value. -/
theorem render_nested_count :
    nestingNodes nested = 3 ∧
    (render (ε := Unit) (({} : Engine).limited 2) nested).run start.context =
      (render (({} : Engine).limited 3) (sealNodes "blank" 2 nested)).run start.context ∧
    (start.play (render (({} : Engine).limited 2) nested)).1.text = "(math $_count)" ∧
    ((start.play (render (({} : Engine).limited 2) nested)).2.world.store.table.get?
      "$_count").map CustomVariable.value = some "0" := by
  have hblank : start.context.params["blank"]? = none := by decide
  obtain ⟨-, hsealed, -⟩ :=
    render_sealed (ε := Unit) {} (show 2 ≤ 3 by decide) nested start.context
  exact ⟨by decide +kernel, (hsealed "blank" hblank).2.1, by decide +kernel, by decide +kernel⟩

end Counting

end ChatBot.Template
