import ChatBot.Proofs.Template.Stage

/-!
# Choices evaluate one branch

Which comparison a choice makes can be read off the literal text of its condition alone
(`comparison?`), before anything is rendered. Main statement: a choice renders the nodes of its
condition, each once and from left to right, and then the branch that the comparison picks and
nothing else (`play_choice`); so whatever stands in the other branch, the text, the context and
everything shared come out the same.
-/

set_option autoImplicit false

namespace ChatBot.Template

variable {ε : Type}

/-! ## The comparison -/

/-- The comparison that the literal text of nodes makes, where `quote` is the quote that is open. -/
def comparisonFrom (first : Bool) (quote : Option Char) : List Node → Option Bool
  | [] => none
  | .literal text :: rest =>
    match scan quote (conditionText first text) with
    | .found _ equality _ => some equality
    | .missing quote => comparisonFrom false quote rest
  | .reference _ _ _ _ :: rest => comparisonFrom false quote rest
  | .filter _ _ :: rest => comparisonFrom false quote rest

/-- The comparison that a condition makes, if it makes one: whether it is one of equality. -/
def comparison? (head : List Node) : Option Bool :=
  comparisonFrom true none head

/-- The condition that nodes add to `c`, given what each of them renders to. -/
def Condition.reading (first : Bool) (c : Condition) : List (Node × String) → Condition
  | [] => c
  | (.literal text, _) :: rest => reading false (c.addLiteral (conditionText first text)) rest
  | (.reference _ _ _ _, text) :: rest => reading false (c.addText text) rest
  | (.filter _ _, text) :: rest => reading false (c.addText text) rest

namespace Condition

/-- What a node renders to makes no comparison. -/
@[simp] theorem equality_addText (c : Condition) (text : String) :
    (c.addText text).equality = c.equality := by
  cases h : c.equality <;> simp [addText, h]

/-- What a node renders to opens and closes no quote. -/
@[simp] theorem quote_addText (c : Condition) (text : String) :
    (c.addText text).quote = c.quote := by
  cases h : c.equality <;> simp [addText, h]

/-- Once the comparison has been found, nothing that is read later makes another one. -/
theorem equality_reading_of_some {c : Condition} {equality : Bool} (h : c.equality = some equality)
    (first : Bool) (read : List (Node × String)) :
    (c.reading first read).equality = some equality := by
  induction read generalizing first c with
  | nil => exact h
  | cons entry rest ih =>
    obtain ⟨n, text⟩ := entry
    cases n with
    | literal literal => exact ih (by simp [addLiteral, h]) false
    | reference | filter => exact ih (by simpa using h) false

/-- The comparison that is found does not depend on what the nodes render to. -/
theorem equality_reading {c : Condition} (h : c.equality = none) (first : Bool)
    (read : List (Node × String)) :
    (c.reading first read).equality = comparisonFrom first c.quote (read.map Prod.fst) := by
  -- from one literal to the next, only the open quote matters
  induction read generalizing first c with
  | nil => exact h
  | cons entry rest ih =>
    obtain ⟨n, text⟩ := entry
    cases n with
    | reference | filter =>
      rw [reading, ih (by simpa using h), quote_addText]
      rfl
    | literal literal =>
      rw [reading, List.map_cons, comparisonFrom]
      cases hscan : scan c.quote (conditionText first literal) with
      | found before equality after =>
        exact equality_reading_of_some (by simp [addLiteral, h, hscan]) false rest
      | missing quote =>
        rw [ih (by simp [addLiteral, h, hscan])]
        simp [addLiteral, h, hscan]

end Condition

/-! ## The condition is rendered once, from left to right -/

/-- A condition is read off its nodes, rendered one after the other. -/
theorem renderCondition_eq (e : Engine) (depth : Nat) (first : Bool) (c : Condition)
    (nodes : List Node) :
    renderCondition e depth first c nodes =
      (fun texts => c.reading first (nodes.zip texts)) <$>
        nodes.mapM (renderNode (ε := ε) e depth) := by
  induction nodes generalizing first c with
  | nil => simp [renderCondition, Condition.reading]
  | cons n rest ih =>
    cases n with
    | literal text =>
      simp [renderCondition, renderNode, Condition.reading, ih]
    | reference | filter =>
      simp [renderCondition, Condition.reading, ih]

/-- The segments that a choice renders after its condition: the first branch if the comparison
holds, and all that follow it if it does not. -/
def taken (holds : Bool) (branches : List (List Node)) : List (List Node) :=
  if holds then branches.take 1 else branches.drop 1

/-! ## One branch is rendered -/

/-- As many texts come out as there are nodes. -/
theorem length_play_mapM {α β : Type} (s : Stage ε) (f : α → Render ε β) (l : List α) :
    (s.play (l.mapM f)).1.length = l.length := by
  induction l generalizing s with
  | nil => rfl
  | cons a rest ih => simp [ih]

/-- **A choice evaluates one branch.** Take a choice that does not stand too deep and whose
condition makes a comparison, on any stage, and let the nodes of the condition be rendered one after
the other. Then

* the choice goes on, from the stage that they leave, with the branch that the comparison picks:
  the first one if it holds, and otherwise all the others in their order, with bars between them;
* two choices with this condition that agree on that branch come to the same text and leave the
  same context and the same shared state, the variables, their history, the requests and the draws
  included, whatever else they consist of. -/
theorem play_choice (e : Engine) {depth : Nat} {head : List Node} {equality : Bool}
    (hdepth : depth < e.config.maxRenderDepth) (hchoice : startsChoice head = true)
    (hcomparison : comparison? head = some equality) (s : Stage ε) :
    let conditioned :=
      (s.counted (.filterEvaluation "if")).play (head.mapM (renderNode e (depth + 1)))
    let holds := (Condition.reading true emptyCondition (head.zip conditioned.1)).holds equality
    (∀ branches source, s.play (renderNode e depth (.filter (head :: branches) source)) =
      conditioned.2.play
        (Text.joinWith "|" <$> (taken holds branches).mapM (renderNodes e (depth + 1)))) ∧
    ∀ branches branches' source source', taken holds branches = taken holds branches' →
      s.play (renderNode e depth (.filter (head :: branches) source)) =
        s.play (renderNode e depth (.filter (head :: branches') source')) := by
  intro conditioned holds
  have hequality : (Condition.reading true emptyCondition (head.zip conditioned.1)).equality =
      some equality := by
    rw [Condition.equality_reading rfl,
      List.map_fst_zip (Nat.le_of_eq (length_play_mapM ..).symm), ← hcomparison]
    rfl
  have htaken : ∀ branches source, s.play (renderNode e depth (.filter (head :: branches) source)) =
      conditioned.2.play
        (Text.joinWith "|" <$> (taken holds branches).mapM (renderNodes e (depth + 1))) := by
    intro branches source
    rw [renderNode, if_neg (by omega), if_pos hchoice, Stage.play_bind, Stage.play_count,
      Stage.play_bind, renderCondition_eq, Stage.play_map]
    change conditioned.2.play _ = _
    rw [FilterKind.label, hequality]
    cases branches with
    | nil => simp [taken, Text.joinWith]
    | cons branch others =>
      change conditioned.2.play (if holds = true then _ else _) = _
      cases holds <;> simp [taken, renderSegments_eq_mapM, Text.joinWith]
  refine ⟨htaken, fun branches branches' source source' hagree => ?_⟩
  rw [htaken, htaken, hagree]

/-! ## A counter in the branch that is not taken -/

namespace Counting

/-- The variable `$_count` stands at zero, and is to be raised where it is mentioned. -/
def start : Stage Unit where
  context := {
    sender := ⟨"1", "alice"⟩
    capabilities := .viewer ⟨"1", "alice"⟩
    operand := some "+" }
  world := {
    store := { table := ⟨NameMap.ofList [
      ("$_count", { name := "$_count", kind := .number, value := "0", responseType := .inline })]⟩ }
    extra := () }

/-- A choice with a comparison that fails, and its first branch left open. -/
def choice (branch : List Node) : Node :=
  .filter [[.literal "if 1==2"], branch, [.literal "no"]] "(if 1==2|…|no)"

/-- The counter, mentioned in the branch that is not taken. -/
def untaken : Node :=
  choice [.reference "$_count" false true "$_count"]

/-- The counter in the branch that is not taken might as well not be there, and keeps its value. -/
theorem play_untaken_count :
    start.play (renderNode {} 0 untaken) = start.play (renderNode {} 0 (choice [])) ∧
    (start.play (renderNode {} 0 untaken)).1 = "no" ∧
    ((start.play (renderNode {} 0 untaken)).2.world.store.table.get? "$_count").map
      CustomVariable.value = some "0" := by
  have hcomparison : comparison? [.literal "if 1==2"] = some true := by decide
  have hdepth : 0 < ({} : Engine).config.maxRenderDepth := by decide
  obtain ⟨htaken, hagree⟩ := play_choice {} hdepth (by decide) hcomparison start
  refine ⟨hagree _ _ _ _ rfl, ?_, ?_⟩
  · exact (congrArg Prod.fst (htaken _ _)).trans (by decide +kernel)
  · decide +kernel

end Counting

end ChatBot.Template
