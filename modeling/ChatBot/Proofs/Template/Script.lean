import ChatBot.Proofs.Template.Stage

/-!
# The script of a rendering

A rendering looks up parameters, resolves variables, counts choices and evaluates filters; the rest
is putting texts together. A *script* says in which order it does these things, depth first and from
left to right: a filter is evaluated when its name and then its arguments have been gone through,
and of a choice, behind its condition, only what is taken is gone through. What comes next may
depend on the texts so far, so that a script is a tree, of which a rendering goes through one
branch.

Main statement: a rendering performs its script (`renderNodes_eq_perform`). So what is to be said of
the things that a rendering does, one after the other, is said of the *course* that its script takes
from a stage (`Script.course`), and what the stage has come to on the way is found action by action
(`Script.view_on_course`).
-/

set_option autoImplicit false

namespace ChatBot.Template

variable {ε α β : Type}

/-- A thing that a rendering does. -/
inductive Action where
  /-- Looks up a parameter. -/
  | lookUp (name source : String)
  /-- Resolves a variable. -/
  | resolve (name : String) (silent : Bool) (source : String)
  /-- Counts a choice, ahead of its condition. -/
  | choose
  /-- Evaluates a filter by its rendered name. -/
  | evaluate (a : FilterArgs)
  deriving DecidableEq

/-- Does it, and comes to a text. -/
def Action.perform (e : Engine) : Action → Render ε String
  | lookUp name source => renderParam name source
  | resolve name silent source => renderVariable e name silent source
  | choose => do
    StateT.lift (World.count (.filterEvaluation FilterKind.choice.label))
    return ""
  | evaluate a => evaluateNamed e a

/-- What is done one after the other, ending with a value. -/
inductive Script (α : Type) : Type where
  | done (value : α) : Script α
  /-- What follows an action may depend on the text that it comes to. -/
  | ask (action : Action) (next : String → Script α) : Script α

namespace Script

/-- Goes on behind the end of a script. -/
def bind : Script α → (α → Script β) → Script β
  | done a, k => k a
  | ask action next, k => ask action fun text => (next text).bind k

instance : Monad Script where
  pure := done
  bind := bind

/-- One action, ending with its text. -/
def act (action : Action) : Script String :=
  ask action done

/-- Performs a script. -/
def perform (e : Engine) : Script α → Render ε α
  | done a => return a
  | ask action next => do
    let text ← action.perform e
    (next text).perform e

/-- A script that does nothing has its value. -/
@[simp] theorem perform_pure (e : Engine) (a : α) :
    (pure a : Script α).perform (ε := ε) e = pure a :=
  rfl

/-- Scripts in a row are performed one after the other. -/
@[simp] theorem perform_bind (e : Engine) (p : Script α) (k : α → Script β) :
    (p >>= k).perform (ε := ε) e = p.perform e >>= fun a => (k a).perform e := by
  induction p with
  | done a => exact (pure_bind a fun a => (k a).perform e).symm
  | ask action next ih =>
    have hnext : (fun text => (next text >>= k).perform (ε := ε) e) =
        fun text => (next text).perform e >>= fun a => (k a).perform e := funext ih
    calc ((ask action next >>= k).perform e : Render ε β)
        = action.perform e >>= fun text => (next text >>= k).perform e := rfl
      _ = (ask action next).perform e >>= fun a => (k a).perform e := by
          rw [hnext, perform, bind_assoc]

/-- A script of one action performs it. -/
@[simp] theorem perform_act (e : Engine) (action : Action) :
    (act action).perform (ε := ε) e = action.perform e := by
  rw [act, perform]
  exact bind_pure _

/-- What is done from a stage on, in order, with the stage on which each thing is done. -/
def course (e : Engine) : Script α → Stage ε → List (Action × Stage ε)
  | done _, _ => []
  | ask action next, s =>
    let r := s.play (action.perform e)
    (action, s) :: (next r.1).course e r.2

/-- Where an action stands on a course, the course is what was done before, the action on its stage,
and what was done behind it. -/
theorem exists_split_of_action {done : List (Action × Stage ε)} {n : Nat} {action : Action}
    (h : done[n]?.map (·.1) = some action) :
    ∃ t, done[n]? = some (action, t) ∧ (done.take n).length = n ∧
      done = done.take n ++ (action, t) :: done.drop (n + 1) := by
  obtain ⟨⟨action, t⟩, hn, rfl⟩ := Option.map_eq_some_iff.1 h
  obtain ⟨hlength, hhere⟩ := List.getElem?_eq_some_iff.1 hn
  refine ⟨t, hn, List.length_take_of_le (Nat.le_of_lt hlength), ?_⟩
  rw [← hhere, ← List.drop_eq_getElem_cons hlength, List.take_append_drop]

/-- What a view of the stage comes to on the course of a script, if each action changes it in a way
of its own. -/
theorem view_on_course {γ : Type} {e : Engine} (view : Stage ε → γ)
    (change : Action × Stage ε → γ → γ)
    (hchange : ∀ action s, view (s.play (action.perform e)).2 = change (action, s) (view s))
    {p : Script α} {s t : Stage ε} {action : Action} {before after : List (Action × Stage ε)}
    (h : p.course e s = before ++ (action, t) :: after) :
    view t = before.foldl (fun v x => change x v) (view s) := by
  -- the actions ahead are taken off one by one, and each takes the start of the course with it
  induction before generalizing p s with
  | nil =>
    cases p with
    | done a => cases h
    | ask first next =>
      cases h
      rfl
  | cons x before ih =>
    cases p with
    | done a => cases h
    | ask first next =>
      obtain ⟨hx, hrest⟩ := List.cons.inj h
      rw [ih hrest, hchange, ← hx, List.foldl_cons]

end Script

/-! ## Scripts of nodes -/

mutual

/-- The script of a node that stands inside `depth` filters, where `limit` filters may stand inside
one another. -/
def scriptNode (limit depth : Nat) : Node → Script String
  | .literal text => return text
  | .reference name silent persisted source =>
    .act (if persisted then .resolve name silent source else .lookUp name source)
  | .filter segments source =>
    if limit ≤ depth then return source
    else
      match segments with
      | [] => .act (.evaluate ⟨"", []⟩)
      | head :: rest =>
        if startsChoice head then do
          let _ ← Script.act .choose
          let c ← scriptCondition limit (depth + 1) true emptyCondition head
          match c.equality with
          | none => return source
          | some equality =>
            match rest with
            | [] => return ""
            | branch :: others =>
              if c.holds equality then scriptNodes limit (depth + 1) branch
              else return Text.joinWith "|" (← scriptSegments limit (depth + 1) others)
        else do
          let name ← scriptNodes limit (depth + 1) head
          let args ← scriptSegments limit (depth + 1) rest
          .act (.evaluate ⟨name, args⟩)

/-- The script of nodes in a row. -/
def scriptNodes (limit depth : Nat) : List Node → Script String
  | [] => return ""
  | n :: rest => do
    let text ← scriptNode limit depth n
    let more ← scriptNodes limit depth rest
    return text ++ more

/-- The script of segments in a row. -/
def scriptSegments (limit depth : Nat) : List (List Node) → Script (List String)
  | [] => return []
  | segment :: rest => do
    let text ← scriptNodes limit depth segment
    let more ← scriptSegments limit depth rest
    return text :: more

/-- The script of the nodes of a condition, where `first` says that none has been read yet. -/
def scriptCondition (limit depth : Nat) (first : Bool) (c : Condition) :
    List Node → Script Condition
  | [] => return c
  | .literal text :: rest =>
    scriptCondition limit depth false (c.addLiteral (conditionText first text)) rest
  | n :: rest => do
    let text ← scriptNode limit depth n
    scriptCondition limit depth false (c.addText text) rest

end

mutual

/-- Rendering a node performs its script. -/
theorem renderNode_eq_perform (e : Engine) (depth : Nat) : (n : Node) →
    renderNode (ε := ε) e depth n = (scriptNode e.config.maxRenderDepth depth n).perform e
  | .literal text => by
    rw [renderNode, scriptNode, Script.perform_pure]
  | .reference name silent persisted source => by
    rw [renderNode, scriptNode, Script.perform_act]
    cases persisted <;> rfl
  | .filter [] source => by
    rw [renderNode, scriptNode]
    split
    · rw [Script.perform_pure]
    · rw [Script.perform_act]
      rfl
  | .filter (head :: rest) source => by
    rw [renderNode, scriptNode]
    split
    · rw [Script.perform_pure]
    split
    -- a choice: both go on by what the condition has come to
    · simp only [Script.perform_bind, Script.perform_act, Action.perform, bind_assoc, pure_bind,
        ← renderCondition_eq_perform e (depth + 1) true emptyCondition head]
      refine congrArg (_ >>= ·) (funext fun _ => congrArg (_ >>= ·) (funext fun c => ?_))
      cases c.equality with
      | none => rfl
      | some equality =>
        match rest with
        | [] => rfl
        | branch :: others =>
          dsimp only
          split
          · exact renderNodes_eq_perform e (depth + 1) branch
          · rw [Script.perform_bind, ← renderSegments_eq_perform e (depth + 1) others]
            rfl
    -- another filter
    · simp only [Script.perform_bind, Script.perform_act,
        ← renderNodes_eq_perform e (depth + 1) head, ← renderSegments_eq_perform e (depth + 1) rest]
      rfl

/-- A rendering of nodes in a row performs their script. -/
theorem renderNodes_eq_perform (e : Engine) (depth : Nat) : (nodes : List Node) →
    renderNodes (ε := ε) e depth nodes = (scriptNodes e.config.maxRenderDepth depth nodes).perform e
  | [] => by
    rw [renderNodes, scriptNodes, Script.perform_pure]
  | n :: rest => by
    simp only [renderNodes, scriptNodes, Script.perform_bind, Script.perform_pure,
      ← renderNode_eq_perform e depth n, ← renderNodes_eq_perform e depth rest]

/-- Rendering segments performs their script. -/
theorem renderSegments_eq_perform (e : Engine) (depth : Nat) : (segments : List (List Node)) →
    renderSegments (ε := ε) e depth segments =
      (scriptSegments e.config.maxRenderDepth depth segments).perform e
  | [] => by
    rw [renderSegments, scriptSegments, Script.perform_pure]
  | segment :: rest => by
    simp only [renderSegments, scriptSegments, Script.perform_bind, Script.perform_pure,
      ← renderNodes_eq_perform e depth segment, ← renderSegments_eq_perform e depth rest]

/-- Rendering a condition performs its script. -/
theorem renderCondition_eq_perform (e : Engine) (depth : Nat) (first : Bool) (c : Condition) :
    (nodes : List Node) → renderCondition (ε := ε) e depth first c nodes =
      (scriptCondition e.config.maxRenderDepth depth first c nodes).perform e
  | [] => by
    rw [renderCondition, scriptCondition, Script.perform_pure]
  | n :: rest => by
    have hn := renderNode_eq_perform e depth n
    have hrest := fun c => renderCondition_eq_perform e depth false c rest
    cases n with
    | literal text =>
      rw [renderCondition, scriptCondition]
      exact hrest _
    | reference name silent persisted source =>
      rw [renderCondition, scriptCondition, Script.perform_bind, ← hn]
      · exact congrArg (_ >>= ·) (funext fun text => hrest _)
      · simp
      · simp
    | filter segments source =>
      rw [renderCondition, scriptCondition, Script.perform_bind, ← hn]
      · exact congrArg (_ >>= ·) (funext fun text => hrest _)
      · simp
      · simp

end

end ChatBot.Template
