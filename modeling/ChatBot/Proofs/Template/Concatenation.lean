import ChatBot.Proofs.Template.Seam
import ChatBot.Proofs.Template.Unseen

/-!
# Rendering templates put together

Behind a template text that is finished, another one is rendered as if it stood alone on the stage
that the first one leaves. That is so for the nodes whatever they do (`play_parse_append`). For
whole renderings it takes a second look, since each of them takes the notices out of the context
and counts itself: what the second text is rendered to does not depend on that, unless a filter of
one's own looks at the notices. Main statement: `render_append`.
-/

set_option autoImplicit false

namespace ChatBot.Template

variable {ε : Type}

/-! ## Nodes put together -/

/-- No nodes render to no text, and leave the stage. -/
theorem play_renderNodes_nil (e : Engine) (depth : Nat) (s : Stage ε) :
    s.play (renderNodes e depth []) = ("", s) := by
  rw [renderNodes]
  rfl

/-- Nodes are rendered one after the other, each on the stage that the one before it leaves. -/
theorem play_renderNodes_cons (e : Engine) (depth : Nat) (n : Node) (rest : List Node)
    (s : Stage ε) :
    s.play (renderNodes e depth (n :: rest)) =
      let first := s.play (renderNode e depth n)
      let second := first.2.play (renderNodes e depth rest)
      (first.1 ++ second.1, second.2) := by
  rw [renderNodes]
  simp only [Stage.play_bind, Stage.play_pure]

/-- Literal text renders to itself, and leaves the stage. -/
theorem play_literal (e : Engine) (depth : Nat) (text : String) (s : Stage ε) :
    s.play (renderNode e depth (.literal text)) = (text, s) := by
  rw [renderNode]
  rfl

/-- Nodes in a row are rendered from left to right. -/
theorem play_renderNodes_append (e : Engine) (depth : Nat) (front back : List Node)
    (s : Stage ε) :
    s.play (renderNodes e depth (front ++ back)) =
      let first := s.play (renderNodes e depth front)
      let second := first.2.play (renderNodes e depth back)
      (first.1 ++ second.1, second.2) := by
  induction front generalizing s with
  | nil => simp only [List.nil_append, play_renderNodes_nil, String.empty_append]
  | cons n rest ih =>
    simp only [List.cons_append, play_renderNodes_cons, ih, String.append_assoc]

/-- Plain text in front of nodes is rendered in front of them. -/
theorem play_renderNodes_addText (e : Engine) (depth : Nat) (text : List Char)
    (nodes : List Node) (s : Stage ε) :
    s.play (renderNodes e depth (addText text nodes)) =
      (String.ofList text ++ (s.play (renderNodes e depth nodes)).1,
        (s.play (renderNodes e depth nodes)).2) := by
  cases text with
  | nil => rw [addText_nil, String.ofList_nil, String.empty_append]
  | cons c cs =>
    have hliteral : ∀ rest, s.play (renderNodes e depth
        (.literal (String.ofList (c :: cs)) :: rest)) =
          (String.ofList (c :: cs) ++ (s.play (renderNodes e depth rest)).1,
            (s.play (renderNodes e depth rest)).2) := by
      intro rest
      rw [play_renderNodes_cons, play_literal]
    cases nodes with
    | nil => exact hliteral []
    | cons n rest =>
      cases n with
      | reference name silent persisted source => exact hliteral _
      | filter segments source => exact hliteral _
      | literal more =>
        rw [addText]
        · simp only [play_renderNodes_cons, play_literal, String.append_assoc]
        · exact List.cons_ne_nil c cs

/-- Behind a text that is finished another one is rendered on the stage that the first one
leaves. -/
theorem play_parse_append (e : Engine) (depth : Nat) {front : String} (ends : Ends front.toList)
    (closed : unclosed (tokens front.toList) = 0) (back : String) (s : Stage ε) :
    s.play (renderNodes e depth (parse (front ++ back))) =
      let first := s.play (renderNodes e depth (parse front))
      let second := first.2.play (renderNodes e depth (parse back))
      (first.1 ++ second.1, second.2) := by
  obtain ⟨nodes, text, hfront, hback⟩ := parse_append ends closed
  rw [hback, hfront]
  simp only [play_renderNodes_append, play_renderNodes_addText, play_renderNodes_nil,
    String.append_empty, String.append_assoc]

/-! ## Whole renderings -/

/-- The stage at the end of a rendering, when the notices are taken out of the context and the
rendering has been counted. -/
def Stage.finished (s : Stage ε) : Stage ε :=
  let counted := s.counted .render
  { counted with context := { s.context with notifications := [] } }

/-- A template is rendered node by node, and then the notices are taken out. -/
theorem play_renderText (e : Engine) (template : String) (s : Stage ε) :
    s.play (renderText e template) =
      let rendered := s.play (renderNodes e 0 (parse template))
      (⟨rendered.1, rendered.2.context.notifications⟩, rendered.2.finished) := by
  unfold renderText render
  simp only [Stage.play_bind, Stage.play_count, Stage.play_get, Stage.play_set, Stage.play_pure]
  rfl

/-- A rendering more has been counted. -/
def oneRender (c : Counter) : Nat :=
  if c = .render then 1 else 0

/-- A stage lies beside what is left of it at the end of a rendering. -/
theorem beside_finished (s : Stage ε) :
    s.Beside s.context.notifications oneRender s.finished where
  context := by
    unfold RenderContext.behind Stage.finished
    simp
  world := by
    refine ⟨s.world.metrics.bump .render, rfl, fun c => ?_⟩
    rw [Metrics.count_bump, oneRender]
    split <;> rfl

/-- Stages that lie beside each other are finished beside each other, with the same context. -/
theorem Stage.Beside.finished {notices : List VariableNotification} {extra : Counter → Nat}
    {s s' : Stage ε} (h : s.Beside notices extra s') :
    s.context.notifications = notices ++ s'.context.notifications ∧
      s.finished.context = s'.finished.context ∧
      s.finished.world.Recounted extra s'.finished.world :=
  ⟨congrArg RenderContext.notifications h.context,
    congrArg (fun c => { c with notifications := [] }) h.context, recounted_bump h.world .render⟩

/-- A whole rendering on a stage that another one has left comes to what the nodes come to on the
stage before that was finished. -/
theorem play_renderText_finished (e : Engine) (template : String) {s : Stage ε}
    (h : s.context.notifications = [] ∨ e.filters.OverlooksNotices) :
    let rendered := s.play (renderNodes e 0 (parse template))
    let whole := s.finished.play (renderText e template)
    rendered.1 = whole.1.text ∧
      rendered.2.context.notifications = s.context.notifications ++ whole.1.notifications ∧
      rendered.2.finished.context = whole.2.context ∧
      rendered.2.finished.world.Recounted oneRender whole.2.world := by
  intro rendered whole
  obtain ⟨htext, hleft⟩ :=
    alike_renderNodes oneRender h 0 (parse template) s s.finished (beside_finished s)
  have hwhole := play_renderText e template s.finished
  change whole = _ at hwhole
  rw [hwhole]
  exact ⟨htext, hleft.finished⟩

/-- **Rendering templates put together.** A template text that is finished is rendered, and behind
it another one, in any context and shared state, with any filters, random numbers and answers from
the network, and whichever calls to the backend go wrong.

* The two as one template come to the text of the first, followed by the text of the second on the
  stage that the nodes of the first leave, and they leave the stage that this leaves; the notices
  are those of the first, followed by those that the second adds.
* They also come to what two whole renderings come to, one after the other: the texts and the
  notices of the two, the context that the second leaves, and its shared state but for the count of
  one rendering more. This is so if filters are functions of their arguments and of the rest of the
  context, not of the notices, which a whole rendering takes out of it; or if the first text leaves
  no notices. -/
theorem render_append (e : Engine) {front : String} (ends : Ends front.toList)
    (closed : unclosed (tokens front.toList) = 0) (back : String) (s : Stage ε) :
    let first := s.play (renderNodes e 0 (parse front))
    let second := first.2.play (renderNodes e 0 (parse back))
    let one := s.play (renderText e front)
    let two := one.2.play (renderText e back)
    let both := s.play (renderText e (front ++ back))
    one = (⟨first.1, first.2.context.notifications⟩, first.2.finished) ∧
    both = (⟨first.1 ++ second.1, second.2.context.notifications⟩, second.2.finished) ∧
    first.2.context.notifications <+: second.2.context.notifications ∧
    (first.2.context.notifications = [] ∨ e.filters.OverlooksNotices →
      both.1.text = one.1.text ++ two.1.text ∧
      both.1.notifications = one.1.notifications ++ two.1.notifications ∧
      both.2.context = two.2.context ∧ both.2.world.Recounted oneRender two.2.world) := by
  intro first second one two both
  have hone : one = (⟨first.1, first.2.context.notifications⟩, first.2.finished) :=
    play_renderText e front s
  have hboth : both = (⟨first.1 ++ second.1, second.2.context.notifications⟩,
      second.2.finished) := by
    have h := play_renderText e (front ++ back) s
    rwa [play_parse_append e 0 ends closed] at h
  refine ⟨hone, hboth, appends_renderNodes 0 (parse back) first.2, fun h => ?_⟩
  have htwo : two = first.2.finished.play (renderText e back) :=
    congrArg (fun r => r.2.play (renderText e back)) hone
  obtain ⟨htext, hnotices, hcontext, hworld⟩ := play_renderText_finished e back h
  rw [hboth, hone, htwo]
  exact ⟨congrArg (first.1 ++ ·) htext, hnotices, hcontext, hworld⟩

/-! A template that changes a variable, and one behind it that changes it again and leaves a
parenthesis open. -/

namespace Moods

/-- The text `$_mood` stands at `calm`, is to be replaced where it is mentioned, and every change
of it is announced. -/
def start : Stage Unit where
  context := {
    sender := ⟨"1", "alice"⟩
    capabilities := .viewer ⟨"1", "alice"⟩
    operand := some "merry" }
  world := {
    store := { table := ⟨NameMap.ofList [
      ("$_mood",
        { name := "$_mood", kind := .text, value := "calm", responseType := .announce })]⟩ }
    extra := () }

/-- A template that is finished: the parenthesis that it has closes nothing. -/
def front : String := "Was $_mood). "

/-- A template behind it. -/
def back : String := "Is $_mood (so far"

/-- The first template of the fixture is finished. -/
theorem front_finished : Ends front.toList ∧ unclosed (tokens front.toList) = 0 := by
  decide +kernel

/-- Both come to their texts, and the notices follow each other. -/
theorem rendered_moods :
    (start.play (renderText {} (front ++ back))).1.text = "Was calm). Is merry (so far" ∧
    (start.play (renderText {} (front ++ back))).1.notifications.map (fun n => n.oldValue) =
      ["calm", "merry"] := by
  obtain ⟨-, -, -, h⟩ := render_append {} front_finished.1 front_finished.2 back start
  obtain ⟨htext, hnotices, -, -⟩ := h (.inr fun name filter hcustom => by simp at hcustom)
  rw [htext, hnotices]
  decide +kernel

/-- An engine with a filter that tells how many notices the context holds. -/
def counting : Engine where
  filters := ⟨NameMap.ofList [("notices", fun _ c =>
    { text := some (Number.wholeText c.notifications.length) })]⟩

/-- A filter that looks at the notices tells one rendering from two: behind the change of `$_mood`
there is one notice in the context, which the end of a rendering takes out of it. -/
theorem notices_told_apart :
    Ends front.toList ∧ unclosed (tokens front.toList) = 0 ∧
    let one := start.play (renderText counting front)
    let two := one.2.play (renderText counting "(notices)")
    (start.play (renderText counting (front ++ "(notices)"))).1.text = "Was calm). 1" ∧
    one.1.text ++ two.1.text = "Was calm). 0" := by
  refine ⟨front_finished.1, front_finished.2, ?_⟩
  decide +kernel

end Moods

end ChatBot.Template
