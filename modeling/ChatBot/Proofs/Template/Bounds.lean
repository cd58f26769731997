import ChatBot.Proofs.Math.Counting
import ChatBot.Proofs.Template.Scanning
import ChatBot.Proofs.Template.WellFormed
import ChatBot.Template.Evaluator

/-!
# Reading and rendering stay within bounds

Templates rendered in another way: from their numbered form, node by node by number, and with every
step spelt out that a text or a list could be too short for. Such a step is at *fault* if it asks
for a node by a number that no node has, cuts a text at an offset that is not between two
characters, draws from an empty range, takes a user out of a pool by a number that is too great, or
evaluates an expression with a cursor that is at fault.

Main statement: reading a text and rendering it is never at fault, and it does what rendering does,
step by step (`renderText?_run`).
-/

set_option autoImplicit false

namespace ChatBot.Template

open Text

variable {ε : Type}

/-! ## Steps that may be at fault -/

/-- A rendering some steps of which may be at fault, which is `none`. -/
abbrev Guarded (ε : Type) := OptionT (Render ε)

/-- A value that must be there. -/
def need {α : Type} (x : Option α) : Guarded ε α :=
  OptionT.mk (pure x)

/-- A rendering none of whose steps can be at fault. -/
def sure {α : Type} (x : Render ε α) : Guarded ε α :=
  OptionT.lift x

/-- A text without a pair of one of the quotes around it. -/
def unquote? (cs : List Char) : (quotes : List Char) → Option (List Char)
  | [] => some cs
  | q :: quotes =>
    if 2 ≤ byteLength cs ∧ cs.head? = some q ∧ cs.getLast? = some q then
      slice? cs 1 (byteLength cs - 1)
    else unquote? cs quotes

/-- A side of a comparison as it is compared. -/
def comparand? (side : String) : Option (List Char) :=
  unquote? (Text.trimChars side.toList) ['\'', '"']

/-- Whether a comparison holds. -/
def holds? (c : Condition) (equality : Bool) : Option Bool := do
  return ((← comparand? c.left) == (← comparand? c.right)) == equality

/-- Draws one of the numbers below `n`; there must be one. -/
def drawBelow? (e : Engine) (n : Nat) : Guarded ε Nat :=
  if h : 0 < n then do
    let i ← sure (StateT.lift (e.drawBelow n h))
    return i.val
  else need none

/-- Draws a user of a scope, whose name is taken out of the pool. -/
def drawUser? (e : Engine) (scope : RandomScope) : Guarded ε String := do
  let ids ← sure (StateT.lift (World.listUsers scope.userFilter))
  let pool ← sure (StateT.lift (eligible ids))
  if pool.isEmpty then return e.config.unknownUser
  else
    let i ← drawBelow? e pool.length
    need pool[i]?

/-- Draws a whole number between two bounds, which must be in order. -/
def drawNumber? (e : Engine) (low high : Int) : Guarded ε Int :=
  if low ≤ high then sure (StateT.lift (drawNumber e low high)) else need none

/-- Evaluates a filter of a kind. -/
def evaluate? (e : Engine) (a : FilterArgs) : FilterKind → Guarded ε String
  | .randomUser scope => drawUser? e scope
  | .randomNumber low high _ => do return Number.wholeText (← drawNumber? e low high)
  | .math expression => do
    match ← need (Math.trackEvaluate Math.floating (expression.getD a.joined)) with
    | .ok v => return Number.format v
    | .error _ => return writtenOut a
  | kind => sure (evaluate e a kind)

/-- Counts and evaluates a filter by its rendered name. -/
def evaluateNamed? (e : Engine) (a : FilterArgs) : Guarded ε String := do
  let kind := e.filters.classify a.name
  sure (StateT.lift (World.count (.filterEvaluation kind.label)))
  evaluate? e a kind

/-! ## Rendering by number -/

section

variable (slots : List Slot) (node : Nat → Guarded ε String)

/-- Whether the nodes of a name region make the filter a choice. -/
def startsChoice? : List Nat → Guarded ε Bool
  | [] => return false
  | id :: _ => do
    match ← need slots[id]? with
    | .literal text => return startsChoice [.literal text]
    | _ => return false

/-- Renders nodes one after the other, where `node` renders one of them. -/
def renderRow? : List Nat → Guarded ε String
  | [] => return ""
  | id :: rest => do
    let text ← node id
    let more ← renderRow? rest
    return text ++ more

/-- Renders segments one after the other. -/
def renderRows? : List (List Nat) → Guarded ε (List String)
  | [] => return []
  | ids :: rest => do
    let text ← renderRow? node ids
    let more ← renderRows? rest
    return text :: more

/-- Renders the nodes of a condition, the first one without its `if`. -/
def renderCondition? (first : Bool) (c : Condition) : List Nat → Guarded ε Condition
  | [] => return c
  | id :: rest => do
    match ← need slots[id]? with
    | .literal text =>
      let cs ← need (if first then sliceFrom? text.toList 2 else some text.toList)
      renderCondition? false (c.addLiteral cs) rest
    | _ =>
      let text ← node id
      renderCondition? false (c.addText text) rest

/-- Renders a filter from the numbers of the nodes of its segments. -/
def renderFilter? (e : Engine) (source : String) : List (List Nat) → Guarded ε String
  | [] => evaluateNamed? e ⟨"", []⟩
  | head :: rest => do
    if ← startsChoice? slots head then
      sure (StateT.lift (World.count (.filterEvaluation FilterKind.choice.label)))
      let c ← renderCondition? slots node true emptyCondition head
      match c.equality with
      | none => return source
      | some equality =>
        let holds ← need (holds? c equality)
        match rest with
        | [] => return ""
        | branch :: others =>
          if holds then renderRow? node branch
          else return Text.joinWith "|" (← renderRows? node others)
    else
      let name ← renderRow? node head
      let args ← renderRows? node rest
      evaluateNamed? e ⟨name, args⟩

end

/-- Renders the node of a number that stands inside `depth` filters. At most `calls` filters may
stand in one another. -/
def renderAt? (e : Engine) (slots : List Slot) : (calls depth id : Nat) → Guarded ε String
  | 0, _, _ => need none
  | calls + 1, depth, id => do
    match ← need slots[id]? with
    | .literal text => return text
    | .reference name silent persisted source =>
      sure (if persisted then renderVariable e name silent source else renderParam name source)
    | .filter segments source =>
      if e.config.maxRenderDepth ≤ depth then return source
      else renderFilter? slots (renderAt? e slots calls (depth + 1)) e source segments

/-- Renders a numbered template. -/
def renderArena? (e : Engine) (a : Arena) : Guarded ε RenderOutput := do
  let text ← renderRow? (renderAt? e a.slots a.size 0) a.root
  sure (StateT.lift (World.count .render))
  let c ← sure get
  sure (set { c with notifications := [] })
  return { text, notifications := c.notifications }

/-- Reads a template text in one scan, and renders it. -/
def renderText? (e : Engine) (template : String) : Guarded ε RenderOutput := do
  renderArena? e (← need (scan? template))

/-! ## No step is at fault -/

/-- A value that is there is no fault. -/
theorem need_some {α : Type} (a : α) : (need (some a) : Guarded ε α) = pure a := rfl

/-- A text that is there cannot be at fault. -/
theorem sure_pure {α : Type} (a : α) : (sure (pure a) : Guarded ε α) = pure a :=
  OptionT.lift_pure a

/-- Steps none of which can be at fault, one after the other, cannot be at fault together. -/
theorem sure_bind {α β : Type} (x : Render ε α) (f : α → Render ε β) :
    sure (x >>= f) = sure x >>= fun a => sure (f a) :=
  OptionT.lift_bind x f

/-- Programs in a row, none of which can be at fault, cannot be at fault together. -/
theorem sure_lift_bind {α β : Type} (p : Activity ε α) (f : α → Activity ε β) :
    (sure (StateT.lift (p >>= f)) : Guarded ε β) =
      sure (StateT.lift p) >>= fun a => sure (StateT.lift (f a)) := by
  rw [← sure_bind]
  refine congrArg sure (StateT.ext fun c => ?_)
  simp only [StateT.run_bind, StateT.run_lift, bind_assoc, pure_bind]

/-- What stands in quotes of one byte can be taken out of them. -/
theorem slice?_quoted {q : Char} (hq : q.toNat < 128) (mid : List Char) :
    slice? (q :: (mid ++ [q])) 1 (byteLength (q :: (mid ++ [q])) - 1) = some mid := by
  have hsize := utf8Size_of_ascii hq
  have hslice := slice?_append [q] mid [q]
  rw [byteLength_append, byteLength_cons, byteLength_nil, hsize] at hslice
  have hstop : byteLength (q :: (mid ++ [q])) - 1 = 1 + 0 + byteLength mid := by
    simp [hsize, Nat.add_comm]
  rw [hstop]
  exact hslice

/-- A quote on its own is no pair of quotes. -/
theorem unquote?_singleton (c : Char) {quotes : List Char} (hquotes : ∀ q ∈ quotes, q.toNat < 128) :
    unquote? [c] quotes = some [c] := by
  induction quotes with
  | nil => rfl
  | cons q quotes ih =>
    obtain ⟨hq, hquotes⟩ := List.forall_mem_cons.1 hquotes
    rw [unquote?, if_neg, ih hquotes]
    rintro ⟨hlength, hhead, -⟩
    obtain rfl : c = q := by simpa using hhead
    simp [utf8Size_of_ascii hq] at hlength

/-- Between two characters there is a text to take out. -/
theorem unquote?_cons (c d : Char) (mid : List Char) {q : Char} (hq : q.toNat < 128)
    (quotes : List Char) :
    unquote? (c :: (mid ++ [d])) (q :: quotes) =
      if c = q ∧ d = q then some mid else unquote? (c :: (mid ++ [d])) quotes := by
  have hlength : 2 ≤ byteLength (c :: (mid ++ [d])) := by
    have := c.utf8Size_pos
    have := d.utf8Size_pos
    simp only [byteLength_cons, byteLength_append]
    omega
  have hlast : (c :: (mid ++ [d])).getLast? = some d := List.getLast?_concat (l := c :: mid)
  rw [unquote?, hlast, List.head?_cons]
  by_cases h : c = q ∧ d = q
  · obtain ⟨rfl, rfl⟩ := h
    rw [if_pos ⟨hlength, rfl, rfl⟩, if_pos ⟨rfl, rfl⟩, slice?_quoted hq]
  · rw [if_neg h, if_neg fun hquoted =>
      h ⟨Option.some.inj hquoted.2.1, Option.some.inj hquoted.2.2⟩]

/-- Taking quotes off a text is never at fault. -/
theorem unquote?_eq (cs : List Char) : unquote? cs ['\'', '"'] = some (stripQuotes cs) := by
  cases cs with
  | nil => rfl
  | cons c rest =>
    cases rest using List.reverseRecOn with
    | nil =>
      have hquotes : ∀ q ∈ ['\'', '"'], q.toNat < 128 :=
        List.forall_mem_cons.2 ⟨by decide, List.forall_mem_singleton.2 (by decide)⟩
      exact unquote?_singleton c hquotes
    | append_singleton mid d =>
      rw [unquote?_cons c d mid (by decide), unquote?_cons c d mid (by decide), unquote?]
      simp only [stripQuotes, List.getLast?_concat, List.dropLast_concat, isQuote]
      by_cases hd : d = c
      · subst hd
        by_cases hsingle : d = '\''
        · simp [hsingle]
        · by_cases hdouble : d = '"' <;> simp [hsingle, hdouble]
      · rw [if_neg fun h => hd (h.2.trans h.1.symm), if_neg fun h => hd (h.2.trans h.1.symm)]
        simp [hd]

/-- Taking the quotes off both sides of a comparison is never at fault. -/
theorem holds?_eq (c : Condition) (equality : Bool) :
    holds? c equality = some (c.holds equality) := by
  rw [holds?, comparand?, comparand?, unquote?_eq, unquote?_eq]
  rfl

/-- Drawing a number is not at fault if there is one. -/
theorem drawBelow?_eq (e : Engine) {n : Nat} (h : 0 < n) :
    (drawBelow? e n : Guarded ε Nat) = sure (StateT.lift (e.drawBelow n h)) >>= fun i =>
      pure i.val :=
  dif_pos h

/-- The pool from which a user is drawn is not empty, and the number drawn is one of its own. -/
theorem drawUser?_eq (e : Engine) (scope : RandomScope) :
    (drawUser? e scope : Guarded ε String) = sure (StateT.lift (drawUser e scope)) := by
  rw [drawUser?, drawUser, sure_lift_bind]
  refine bind_congr fun ids => ?_
  rw [sure_lift_bind]
  refine bind_congr fun pool => ?_
  by_cases h : 0 < pool.length
  · have hpool : pool.isEmpty = false := by simpa [List.length_pos_iff] using h
    rw [hpool, if_neg Bool.false_ne_true, dif_pos h, drawBelow?_eq e h, bind_assoc, sure_lift_bind]
    refine bind_congr fun i => ?_
    rw [pure_bind, List.getElem?_eq_getElem i.isLt]
    rfl
  · have hpool : pool.isEmpty = true := by simpa using h
    rw [hpool, if_pos rfl, dif_neg h]
    rfl

/-- The bounds of a range are in order. -/
theorem drawNumber?_eq (e : Engine) {low high : Int} (h : low ≤ high) :
    (drawNumber? e low high : Guarded ε Int) = sure (StateT.lift (drawNumber e low high)) :=
  if_pos h

/-- Evaluating a filter of a kind is never at fault. -/
theorem evaluate?_eq (e : Engine) (a : FilterArgs) (kind : FilterKind) :
    (evaluate? e a kind : Guarded ε String) = sure (evaluate e a kind) := by
  cases kind with
  | randomUser scope => exact drawUser?_eq e scope
  | randomNumber low high ordered =>
    rw [evaluate?, drawNumber?_eq e ordered, evaluate, sure_bind]
    rfl
  | math expression =>
    rw [evaluate?, Math.trackEvaluate_eq, need_some, pure_bind, evaluate, Math.evaluate]
    cases Math.evaluateIn Math.floating (expression.getD a.joined) <;> rfl
  | _ => rfl

/-- Evaluating a filter by its name is never at fault. -/
theorem evaluateNamed?_eq (e : Engine) (a : FilterArgs) :
    (evaluateNamed? e a : Guarded ε String) = sure (evaluateNamed e a) := by
  rw [evaluateNamed?, evaluateNamed, sure_bind]
  simp only [evaluate?_eq]

/-- What stands under a number, given the node that it is the number of. -/
theorem getElem?_of_nodeAt {slots : List Slot} {id : Nat} {n : Node}
    (h : Arena.nodeAt slots id = some n) :
    match n with
    | .literal text => slots[id]? = some (.literal text)
    | .reference name silent persisted source =>
      slots[id]? = some (.reference name silent persisted source)
    | .filter _ source => ∃ segments, slots[id]? = some (.filter segments source) := by
  rw [Arena.nodeAt] at h
  split at h
  · cases h
  · rename_i heq
    cases h
    exact heq
  · rename_i heq
    cases h
    exact heq
  · rename_i segments source heq
    obtain ⟨rows, -, rfl⟩ := Option.map_eq_some_iff.1 h
    exact ⟨segments, heq⟩

section Rows

variable {e : Engine} {slots : List Slot} {node : Nat → Guarded ε String} {depth : Nat}

/-- A number stands for a node, and is rendered as the node is. -/
structure Stands (e : Engine) (slots : List Slot) (node : Nat → Guarded ε String) (depth : Nat)
    (id : Nat) (n : Node) : Prop where
  nodeAt : Arena.nodeAt slots id = some n
  render : node id = sure (renderNode e depth n)

/-- Looking at the nodes of a name region is not at fault if each number stands for a node. -/
theorem startsChoice?_eq {ids : List Nat} {ns : List Node}
    (h : List.Forall₂ (Stands e slots node depth) ids ns) :
    (startsChoice? slots ids : Guarded ε Bool) = pure (startsChoice ns) := by
  cases h with
  | nil => rfl
  | @cons id n ids ns hn _ =>
    have hslot := getElem?_of_nodeAt hn.nodeAt
    cases n with
    | literal text =>
      dsimp only at hslot
      rw [startsChoice?, hslot]
      rfl
    | reference name silent persisted source =>
      dsimp only at hslot
      rw [startsChoice?, hslot]
      rfl
    | filter rows source =>
      obtain ⟨segments, hslot⟩ := hslot
      rw [startsChoice?, hslot]
      rfl

/-- Rendering nodes by their numbers is not at fault if each number stands for a node. -/
theorem renderRow?_eq {ids : List Nat} {ns : List Node}
    (h : List.Forall₂ (Stands e slots node depth) ids ns) :
    renderRow? node ids = sure (renderNodes e depth ns) := by
  induction h with
  | nil => rw [renderRow?, renderNodes, sure_pure]
  | cons hn _ ih =>
    rw [renderRow?, renderNodes, hn.render, sure_bind, ih]
    simp only [sure_bind, sure_pure]

/-- Rendering segments by the numbers of their nodes is not at fault if each number stands for a
node. -/
theorem renderRows?_eq {segments : List (List Nat)} {rows : List (List Node)}
    (h : List.Forall₂ (List.Forall₂ (Stands e slots node depth)) segments rows) :
    renderRows? node segments = sure (renderSegments e depth rows) := by
  induction h with
  | nil => rw [renderRows?, renderSegments, sure_pure]
  | cons hids _ ih =>
    rw [renderRows?, renderSegments, renderRow?_eq hids, sure_bind, ih]
    simp only [sure_bind, sure_pure]

/-- The `if` of a choice can be cut off. -/
theorem sliceFrom?_of_startsChoice {text : String} {rest : List Node}
    (h : startsChoice (.literal text :: rest) = true) :
    sliceFrom? text.toList 2 = some (conditionText true text) := by
  rw [startsChoice] at h
  rw [conditionText, if_pos rfl]
  split at h
  · rename_i c tail heq
    rw [heq]
    exact sliceFrom?_append ['i', 'f'] (c :: tail)
  · cases h

/-- A condition is read as its nodes are, if what is cut off its first one can be. -/
theorem renderCondition?_eq {ids : List Nat} {ns : List Node}
    (h : List.Forall₂ (Stands e slots node depth) ids ns) {first : Bool}
    (hfirst : first = true → startsChoice ns = true) (c : Condition) :
    renderCondition? slots node first c ids = sure (renderCondition e depth first c ns) := by
  induction h generalizing first c with
  | nil => rw [renderCondition?, renderCondition, sure_pure]
  | @cons id n ids ns hn _ ih =>
    have hslot := getElem?_of_nodeAt hn.nodeAt
    have hlater : false = true → startsChoice ns = true := fun h => absurd h Bool.false_ne_true
    have hrest (c : Condition) := ih hlater c
    cases n with
    | literal text =>
      dsimp only at hslot
      have hcut : (if first then sliceFrom? text.toList 2 else some text.toList) =
          some (conditionText first text) := by
        cases first with
        | true => exact sliceFrom?_of_startsChoice (hfirst rfl)
        | false => rfl
      rw [renderCondition?, hslot, need_some, pure_bind]
      dsimp only
      rw [hcut, need_some, pure_bind, hrest, renderCondition]
    | reference name silent persisted source =>
      dsimp only at hslot
      rw [renderCondition?, hslot, need_some, pure_bind]
      dsimp only
      simp only [hn.render, renderCondition, sure_bind, hrest]
    | filter rows source =>
      obtain ⟨segments, hslot⟩ := hslot
      rw [renderCondition?, hslot, need_some, pure_bind]
      simp only [hn.render, renderCondition, sure_bind, hrest]

/-- A filter is rendered from the numbers of its parts as from these. -/
theorem renderFilter?_eq {segments : List (List Nat)} {rows : List (List Node)}
    (h : List.Forall₂ (List.Forall₂ (Stands e slots node (depth + 1))) segments rows)
    (source : String) (hdepth : ¬ e.config.maxRenderDepth ≤ depth) :
    renderFilter? slots node e source segments =
      sure (renderNode e depth (.filter rows source)) := by
  rw [renderNode.eq_def]
  dsimp only
  rw [if_neg hdepth]
  cases h with
  | nil => exact evaluateNamed?_eq e _
  | @cons ids ns segments rows hhead hrest =>
    rw [renderFilter?, startsChoice?_eq hhead, pure_bind]
    dsimp only
    -- both sides ask the same in the same order: the kind of filter, the sides of a condition, a
    -- branch
    by_cases hchoice : startsChoice ns = true
    · rw [if_pos hchoice, if_pos hchoice, sure_bind]
      refine bind_congr fun _ => ?_
      rw [renderCondition?_eq hhead fun _ => hchoice, sure_bind]
      refine bind_congr fun c => ?_
      cases c.equality with
      | none => rfl
      | some equality =>
        dsimp only
        rw [holds?_eq, need_some, pure_bind]
        cases hrest with
        | nil => rfl
        | @cons _ branch _ others hbranch hothers =>
          dsimp only
          by_cases hholds : c.holds equality = true
          · rw [if_pos hholds, if_pos hholds, renderRow?_eq hbranch]
          · rw [if_neg hholds, if_neg hholds, renderRows?_eq hothers, sure_bind]
            rfl
    · rw [if_neg hchoice, if_neg hchoice, renderRow?_eq hhead, renderRows?_eq hrest, sure_bind]
      refine bind_congr fun name => ?_
      rw [sure_bind]
      exact bind_congr fun args => evaluateNamed?_eq e _

end Rows

/-- Rendering by number does what rendering does. -/
theorem renderAt?_eq (e : Engine) (slots : List Slot) {calls id : Nat} (hid : id < calls)
    (depth : Nat) {n : Node} (hn : Arena.nodeAt slots id = some n) :
    (renderAt? e slots calls depth id : Guarded ε String) = sure (renderNode e depth n) := by
  -- the parts of a filter have smaller numbers, so that the calls left always suffice
  induction calls generalizing id depth n with
  | zero => exact absurd hid (Nat.not_lt_zero id)
  | succ calls ih =>
    have hslot := getElem?_of_nodeAt hn
    cases n with
    | literal text =>
      dsimp only at hslot
      rw [renderAt?, hslot, need_some, pure_bind, renderNode, sure_pure]
    | reference name silent persisted source =>
      dsimp only at hslot
      rw [renderAt?, hslot, need_some, pure_bind, renderNode]
    | filter rows source =>
      obtain ⟨segments, hslot⟩ := hslot
      obtain ⟨rows', heq, hbefore, hrows⟩ := nodeAt_filter_eq_some hslot hn
      obtain rfl : rows = rows' := by injection heq
      rw [renderAt?, hslot, need_some, pure_bind]
      dsimp only
      by_cases hdepth : e.config.maxRenderDepth ≤ depth
      · rw [if_pos hdepth, renderNode.eq_def]
        dsimp only
        rw [if_pos hdepth, sure_pure]
      · rw [if_neg hdepth]
        refine renderFilter?_eq ?_ source hdepth
        have hparts := (List.forall₂_and_left _ _).2 ⟨hbefore, hrows⟩
        refine hparts.imp fun ids ns hids => ?_
        refine ((List.forall₂_and_left _ _).2 hids).imp fun j m hj => ?_
        exact ⟨hj.2, ih (Nat.lt_of_lt_of_le hj.1 (Nat.le_of_lt_succ hid)) (depth + 1) hj.2⟩

/-- Rendering the numbered form of a template does what rendering the template does. -/
theorem renderArena?_eq (e : Engine) (nodes : List Node) :
    (renderArena? e (Arena.ofNodes nodes) : Guarded ε RenderOutput) = sure (render e nodes) := by
  have hroot := mapM_eq_some_iff.1 (Arena.nodes?_ofNodes nodes)
  have hsize : ∀ id ∈ (Arena.ofNodes nodes).root, id < (Arena.ofNodes nodes).size := by
    intro id hid
    have h := lt_of_mem_slotsOfNodes nodes 0 id hid
    rwa [Nat.zero_add] at h
  have hstands : List.Forall₂ (Stands (ε := ε) e (Arena.ofNodes nodes).slots
      (renderAt? e (Arena.ofNodes nodes).slots (Arena.ofNodes nodes).size 0) 0)
      (Arena.ofNodes nodes).root nodes := by
    refine ((List.forall₂_and_left _ _).2 ⟨hsize, hroot⟩).imp fun id n hid => ?_
    exact ⟨hid.2, renderAt?_eq e _ hid.1 0 hid.2⟩
  rw [renderArena?, render, renderRow?_eq hstands]
  simp only [sure_bind, sure_pure]

/-- **Reading and rendering a template is never at fault**, whatever the text, the configuration,
the filters, the network, the random numbers, the context and the shared state: the scan gives the
numbered form of the template, and rendering from that does what rendering does, step by step. -/
theorem renderText?_run (e : Engine) (template : String) :
    scan? template = some (Arena.ofNodes (parse template)) ∧
      (renderText? e template : Guarded ε RenderOutput).run = some <$> renderText e template := by
  have hscan := scan?_eq template
  have hrender : (renderText? e template : Guarded ε RenderOutput) =
      sure (renderText e template) := by
    rw [renderText?, hscan, need_some, pure_bind, renderArena?_eq, renderText]
  refine ⟨hscan, ?_⟩
  rw [hrender]
  exact OptionT.run_lift _

end ChatBot.Template
