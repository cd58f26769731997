import ChatBot.Proofs.Stepwise
import ChatBot.Template.Evaluator

/-!
# Stages

A rendering works on two things: its context and the shared state. A *stage* is the two together.
`Stage.play` is a rendering that nobody disturbs, as a function of the stage it starts from; the
lemmas here say what it does for each way in which renderings are put together.

Many facts about rendering hold of every node because they hold of each thing that a node may do
and go through `bind`. `Passing` collects such a fact, and `Passing.renderNode` takes it to whole
trees, by the only induction over the tree that such a fact needs.
-/

set_option autoImplicit false

namespace ChatBot.Template

open Stepwise

variable {ε α β : Type}

/-- What a rendering works on. -/
structure Stage (ε : Type) where
  context : RenderContext
  world : World ε

namespace Stage

/-- The value of a rendering that nobody disturbs, and the stage that it leaves. -/
def play (s : Stage ε) (p : Render ε α) : α × Stage ε :=
  let r := (p.run s.context).run s.world
  (r.1.1, { context := r.1.2, world := r.2 })

/-- The stage after a count. -/
def counted (s : Stage ε) (c : Counter) : Stage ε :=
  { s with world := { s.world with metrics := s.world.metrics.bump c } }

/-- A rendering that does nothing leaves the stage. -/
@[simp] theorem play_pure (s : Stage ε) (a : α) : s.play (pure a : Render ε α) = (a, s) := rfl

/-- Renderings in a row: the second one starts from the stage that the first one leaves. -/
@[simp] theorem play_bind (s : Stage ε) (p : Render ε α) (k : α → Render ε β) :
    s.play (p >>= k) = (s.play p).2.play (k (s.play p).1) := by
  simp only [play, StateT.run_bind, bind_eq, run_bind]

/-- A function of what a rendering comes to leaves the stage that the rendering leaves. -/
@[simp] theorem play_map (s : Stage ε) (f : α → β) (p : Render ε α) :
    s.play (f <$> p) = (f (s.play p).1, (s.play p).2) := by
  rw [← bind_pure_comp, play_bind, play_pure]

/-- A program over the shared state alone leaves the context as it is. -/
@[simp] theorem play_lift (s : Stage ε) (p : Activity ε α) :
    s.play (StateT.lift p) = ((p.run s.world).1, { s with world := (p.run s.world).2 }) := by
  simp only [play, StateT.run_lift, bind_eq, run_bind, pure_eq_done, run_done]

/-- Reading the context gives it. -/
@[simp] theorem play_get (s : Stage ε) : s.play (get : Render ε RenderContext) = (s.context, s) :=
  rfl

/-- Writing the context replaces it. -/
@[simp] theorem play_set (s : Stage ε) (c : RenderContext) :
    s.play (set c : Render ε Unit) = ((), { s with context := c }) := rfl

/-- A change of the context changes it alone. -/
@[simp] theorem play_modify (s : Stage ε) (f : RenderContext → RenderContext) :
    s.play (modify f : Render ε Unit) = ((), { s with context := f s.context }) := rfl

/-- Counting leaves the stage after a count. -/
@[simp] theorem play_count (s : Stage ε) (c : Counter) :
    s.play (StateT.lift (World.count c)) = ((), s.counted c) := rfl

end Stage

/-! ## Nodes in a row -/

/-- Segments are rendered one after the other. -/
theorem renderSegments_eq_mapM (e : Engine) (depth : Nat) (segments : List (List Node)) :
    renderSegments e depth segments = segments.mapM (renderNodes (ε := ε) e depth) := by
  induction segments with
  | nil => simp [renderSegments]
  | cons segment rest ih => simp [renderSegments, ih]

/-- A filter past the limit is not looked into: it comes to the text that it is written as. -/
theorem renderNode_of_limit_le {e : Engine} {depth : Nat} (h : e.config.maxRenderDepth ≤ depth)
    (segments : List (List Node)) (source : String) :
    renderNode (ε := ε) e depth (.filter segments source) = pure source := by
  rw [renderNode.eq_def]
  exact if_pos h

/-! ## Facts about every node -/

/-- A variable is mentioned in a node: the node is a reference to it, or one that stands in the
node at any depth is. -/
inductive Node.Mentions (name : String) : Node → Prop where
  | reference (silent : Bool) (source : String) : Mentions name (.reference name silent true source)
  | filter {segments : List (List Node)} {segment : List Node} {n : Node} (source : String)
      (hsegment : segment ∈ segments) (hn : n ∈ segment) (mention : Mentions name n) :
      Mentions name (.filter segments source)

/-- A property of renderings that goes through `bind` and that all programs have of which the
rendering of a node is put together, references to variables apart. -/
structure Passing (P : {α : Type} → Render ε α → Prop) (e : Engine) : Prop where
  pure : ∀ {α : Type} (a : α), P (pure a : Render ε α)
  bind : ∀ {α β : Type} {p : Render ε α} {k : α → Render ε β}, P p → (∀ a, P (k a)) → P (p >>= k)
  count : ∀ label, P (StateT.lift (World.count (.filterEvaluation label)))
  param : ∀ name source, P (renderParam name source)
  evaluate : ∀ a name, P (evaluate e a (e.filters.classify name))

namespace Passing

variable {P : {α : Type} → Render ε α → Prop} {e : Engine}

/-- Evaluating a filter by its name has the property that filters have. -/
theorem evaluateNamed (h : Passing P e) (a : FilterArgs) : P (Template.evaluateNamed e a) :=
  h.bind (h.count _) fun _ => h.evaluate a _

mutual

/-- What holds of all that nodes are put together of, and of the references to the variables that
are mentioned, holds of the rendering of a node. -/
theorem renderNode (h : Passing P e) (depth : Nat) :
    (n : Node) → (∀ name silent source, n.Mentions name → P (renderVariable e name silent source)) →
      P (Template.renderNode e depth n)
  | .literal text, _ => by
    rw [Template.renderNode]
    exact h.pure text
  | .reference name silent persisted source, hvariable => by
    rw [Template.renderNode]
    cases persisted with
    | true => exact hvariable name silent source (.reference silent source)
    | false => exact h.param name source
  | .filter [] source, _ => by
    rw [Template.renderNode]
    split
    · exact h.pure source
    · exact h.evaluateNamed ⟨"", []⟩
  | .filter (head :: rest) source, hvariable => by
    have hhead : ∀ n ∈ head, ∀ name silent source, n.Mentions name →
        P (renderVariable e name silent source) := fun n hn name silent _ hmention =>
      hvariable name silent _ (.filter source List.mem_cons_self hn hmention)
    have hrest : ∀ segment ∈ rest, ∀ n ∈ segment, ∀ name silent source, n.Mentions name →
        P (renderVariable e name silent source) :=
      fun segment hsegment n hn name silent _ hmention =>
        hvariable name silent _ (.filter source (List.mem_cons_of_mem head hsegment) hn hmention)
    rw [Template.renderNode]
    split
    · exact h.pure source
    split
    -- a choice: its condition, and then one branch or the other
    · refine h.bind (h.count _) fun _ =>
        h.bind (renderCondition h (depth + 1) true emptyCondition head hhead) fun c => ?_
      cases c.equality with
      | none => exact h.pure source
      | some equality =>
        match rest with
        | [] => exact h.pure ""
        | branch :: others =>
          dsimp only
          split
          · exact renderNodes h (depth + 1) branch (hrest branch List.mem_cons_self)
          · exact h.bind (renderSegments h (depth + 1) others fun segment hsegment =>
              hrest segment (List.mem_cons_of_mem branch hsegment)) fun _ => h.pure _
    -- another filter: its name, and then its arguments
    · exact h.bind (renderNodes h (depth + 1) head hhead) fun name =>
        h.bind (renderSegments h (depth + 1) rest hrest) fun args => h.evaluateNamed ⟨name, args⟩

/-- The same of nodes in a row. -/
theorem renderNodes (h : Passing P e) (depth : Nat) :
    (nodes : List Node) → (∀ n ∈ nodes, ∀ name silent source, n.Mentions name →
      P (renderVariable e name silent source)) → P (Template.renderNodes e depth nodes)
  | [], _ => by
    rw [Template.renderNodes]
    exact h.pure ""
  | n :: rest, hvariable => by
    rw [Template.renderNodes]
    exact h.bind (renderNode h depth n (hvariable n List.mem_cons_self)) fun _ =>
      h.bind (renderNodes h depth rest fun m hm => hvariable m (List.mem_cons_of_mem n hm))
        fun _ => h.pure _

/-- The same of segments in a row. -/
theorem renderSegments (h : Passing P e) (depth : Nat) :
    (segments : List (List Node)) → (∀ segment ∈ segments, ∀ n ∈ segment, ∀ name silent source,
      n.Mentions name → P (renderVariable e name silent source)) →
      P (Template.renderSegments e depth segments)
  | [], _ => by
    rw [Template.renderSegments]
    exact h.pure []
  | segment :: rest, hvariable => by
    rw [Template.renderSegments]
    exact h.bind (renderNodes h depth segment (hvariable segment List.mem_cons_self)) fun _ =>
      h.bind (renderSegments h depth rest fun s hs => hvariable s (List.mem_cons_of_mem segment hs))
        fun _ => h.pure _

/-- The same of the nodes of a condition. -/
theorem renderCondition (h : Passing P e) (depth : Nat) (first : Bool) (c : Condition) :
    (nodes : List Node) → (∀ n ∈ nodes, ∀ name silent source, n.Mentions name →
      P (renderVariable e name silent source)) → P (Template.renderCondition e depth first c nodes)
  | [], _ => by
    rw [Template.renderCondition]
    exact h.pure c
  | n :: rest, hvariable => by
    have hn := renderNode h depth n (hvariable n List.mem_cons_self)
    have hrest := fun c => renderCondition h depth false c rest fun m hm =>
      hvariable m (List.mem_cons_of_mem n hm)
    cases n with
    | literal text =>
      rw [Template.renderCondition]
      exact hrest _
    | reference name silent persisted source =>
      rw [Template.renderCondition]
      · exact h.bind hn fun _ => hrest _
      · simp
    | filter segments source =>
      rw [Template.renderCondition]
      · exact h.bind hn fun _ => hrest _
      · simp

end

end Passing

end ChatBot.Template
