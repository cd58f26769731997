import ChatBot.Proofs.Template.Filters
import ChatBot.Proofs.Variables.Steps

/-!
# What a rendering does not look at

A rendering looks neither at the counters nor, apart from the filters of one's own, at the notices
that it has gathered: these only grow (`appends_renderNodes`). So from two stages of which one has
further notices in front and other counts (`Stage.Beside`), it comes to the same text, and the two
stages that it leaves differ in the same way (`alike_renderNodes`).
-/

set_option autoImplicit false

namespace ChatBot

open Stepwise

variable {ε α β : Type}

/-! ## Programs that do not look at the counters -/

/-- The states are the same up to the counters, and each of these stands higher in the second one
by what is given. -/
def World.Recounted (extra : Counter → Nat) (w w' : World ε) : Prop :=
  ∃ metrics, w' = { w with metrics } ∧ ∀ c, metrics.count c = w.metrics.count c + extra c

section Recounted

variable {extra : Counter → Nat}

/-- One more count on both sides leaves the same difference between the counters. -/
theorem recounted_bump {w w' : World ε} (h : w.Recounted extra w') (c : Counter) :
    World.Recounted extra { w with metrics := w.metrics.bump c }
      { w' with metrics := w'.metrics.bump c } := by
  obtain ⟨metrics, rfl, hcount⟩ := h
  refine ⟨metrics.bump c, rfl, fun d => ?_⟩
  simp only [Metrics.count_bump, hcount]
  split
  · omega
  · rfl

/-- Counting treats states that differ in their counters alike. -/
theorem respects_count (c : Counter) :
    (World.count (ε := ε) c).Respects (World.Recounted extra) :=
  respects_change fun _ _ h => recounted_bump h c

/-- A step that neither reads nor changes the counters. -/
theorem respects_act_unmetered {g : World ε → α × World ε}
    (h : ∀ w metrics, g { w with metrics } = ((g w).1, { (g w).2 with metrics })) :
    (act g).Respects (World.Recounted extra) := by
  refine respects_act fun w w' hw => ?_
  obtain ⟨metrics, rfl, hcount⟩ := hw
  obtain ⟨hanswer, hstate⟩ := Prod.ext_iff.1 (h w metrics)
  have hmetrics : (g w).2.metrics = w.metrics := congrArg (fun r => r.2.metrics) (h w w.metrics)
  refine ⟨hanswer.symm, metrics, hstate, fun c => ?_⟩
  rw [hmetrics, hcount]

/-- A step that only reads, and not the counters. -/
theorem respects_read_unmetered {g : World ε → α}
    (h : ∀ w metrics, g { w with metrics } = g w) : (read g).Respects (World.Recounted extra) := by
  refine respects_read fun w w' hw => ?_
  obtain ⟨metrics, rfl, -⟩ := hw
  exact (h w metrics).symm

/-- The steps of filters do not look at the counters. -/
theorem Template.filterSteps_respects (e : Template.Engine) :
    Template.FilterSteps (fun p : Activity ε _ => p.Respects (World.Recounted extra)) e where
  done := respects_done
  bind := respects_bind
  count := respects_count
  draw _ _ := respects_act_unmetered fun _ _ => rfl
  list _ := respects_read_unmetered fun _ _ => rfl
  find _ := respects_act_unmetered fun _ _ => rfl
  ignored _ := respects_read_unmetered fun _ _ => rfl
  fetch _ _ _ := respects_act_unmetered fun _ _ => rfl

namespace Variables

variable {d : Disturbances}

/-- A call to the backend treats states that differ in their counters alike. -/
theorem respects_call (c : BackendCall) (nothing : α)
    (f : VariableTable → Except BackendError α × VariableTable) :
    (call (ε := ε) d c nothing f).Respects (World.Recounted extra) :=
  respects_act_unmetered fun _ _ => rfl

/-- All steps of writing to a variable treat states that differ in their counters alike. -/
theorem writeSteps_respects (name : String) :
    WriteSteps (fun p : Activity ε _ => p.Respects (World.Recounted extra)) d name where
  done := respects_done
  bind := respects_bind
  fetch := respects_call _ _ _
  swap _ := respects_call _ _ _
  increment _ := respects_call _ _ _
  note _ _ := respects_change fun w w' hw => by
    obtain ⟨metrics, rfl, hcount⟩ := hw
    exact ⟨metrics, rfl, hcount⟩
  count _ := respects_count _
  announcement := respects_read_unmetered fun _ _ => rfl

/-- Resolving a variable treats states that differ in their counters alike. -/
theorem respects_resolve (name : String) (operand : Option String) (c : Capabilities)
    (silent : Bool) :
    (resolve (ε := ε) d name operand c silent).Respects (World.Recounted extra) :=
  (writeSteps_respects name).resolve operand c silent

end Variables

end Recounted

namespace Template

variable {e : Engine}

/-! ## Notices are only added -/

/-- The rendering leaves the notices that are there, and may add others behind them. -/
def Appends (p : Render ε α) : Prop :=
  ∀ s : Stage ε, s.context.notifications <+: (s.play p).2.context.notifications

section Appends

/-- A rendering that does nothing leaves the notices. -/
theorem appends_pure (a : α) : Appends (pure a : Render ε α) :=
  fun _ => List.prefix_rfl

/-- Renderings in a row leave the notices that are there. -/
theorem appends_bind {p : Render ε α} {k : α → Render ε β} (hp : Appends p)
    (hk : ∀ a, Appends (k a)) : Appends (p >>= k) := by
  intro s
  rw [Stage.play_bind]
  exact (hp s).trans (hk _ _)

/-- A program over the shared state leaves the notices. -/
theorem appends_lift (p : Activity ε α) : Appends (StateT.lift p : Render ε α) := by
  intro s
  have hcontext : (s.play (StateT.lift p)).2.context = s.context := by rw [Stage.play_lift]
  exact (congrArg RenderContext.notifications hcontext) ▸ List.prefix_rfl

/-- Resolving a variable leaves the notices that are there. -/
theorem appends_renderVariable (name : String) (silent : Bool) (source : String) :
    Appends (renderVariable (ε := ε) e name silent source) := by
  refine appends_bind (fun _ => List.prefix_rfl) fun c => appends_bind (appends_lift _) ?_
  intro resolved
  split
  · dsimp only
    split
    · exact appends_bind (fun s => List.prefix_append _ _) fun _ => appends_pure _
    · exact appends_bind (appends_pure _) fun _ => appends_pure _
  · exact appends_pure _

/-- Filters leave the notices as they are. -/
theorem filtering_appends (e : Engine) :
    Filtering (fun _ : Activity ε _ => True) (fun p => Appends p) e where
  steps := ⟨fun _ => trivial, fun _ _ => trivial, fun _ => trivial, fun _ _ => trivial,
    fun _ => trivial, fun _ => trivial, fun _ => trivial, fun _ _ _ => trivial⟩
  pure := appends_pure
  bind := appends_bind
  lift _ := appends_lift _
  look _ _ := List.prefix_rfl
  ask _ _ _ _ _ := List.prefix_rfl
  keep _ _ := List.prefix_rfl

/-- Rendering nodes leaves the notices that are there. -/
theorem appends_renderNodes (depth : Nat) (nodes : List Node) :
    Appends (renderNodes (ε := ε) e depth nodes) :=
  (filtering_appends e).renderNodes appends_renderVariable depth nodes

end Appends

/-! ## Two renderings beside each other -/

/-- The context with further notices in front of its own. -/
def RenderContext.behind (notices : List VariableNotification) (c : RenderContext) :
    RenderContext :=
  { c with notifications := notices ++ c.notifications }

/-- The first stage is the second one with further notices in front, and its counters stand lower by
what is given. -/
structure Stage.Beside (notices : List VariableNotification) (extra : Counter → Nat)
    (s s' : Stage ε) : Prop where
  context : s.context = s'.context.behind notices
  world : s.world.Recounted extra s'.world

/-- From stages beside each other, the rendering comes to the same value and leaves stages that are
beside each other again. -/
def Alike (notices : List VariableNotification) (extra : Counter → Nat) (p : Render ε α) : Prop :=
  ∀ s s' : Stage ε, s.Beside notices extra s' →
    (s.play p).1 = (s'.play p).1 ∧ (s.play p).2.Beside notices extra (s'.play p).2

section Alike

variable {notices : List VariableNotification} {extra : Counter → Nat}

/-- A rendering that does nothing stays beside itself. -/
theorem alike_pure (a : α) : Alike notices extra (pure a : Render ε α) :=
  fun _ _ h => ⟨rfl, h⟩

/-- Renderings in a row stay beside each other if each of them does. -/
theorem alike_bind {p : Render ε α} {k : α → Render ε β} (hp : Alike notices extra p)
    (hk : ∀ a, Alike notices extra (k a)) : Alike notices extra (p >>= k) := by
  intro s s' h
  obtain ⟨hvalue, hleft⟩ := hp s s' h
  rw [Stage.play_bind, Stage.play_bind, hvalue]
  exact hk _ _ _ hleft

/-- A program that treats states alike that differ in their counters stays beside itself. -/
theorem alike_lift {p : Activity ε α} (h : p.Respects (World.Recounted extra)) :
    Alike notices extra (StateT.lift p : Render ε α) := by
  intro s s' hs
  obtain ⟨hvalue, hworld⟩ := h.run hs.world
  rw [Stage.play_lift, Stage.play_lift]
  exact ⟨hvalue, hs.context, hworld⟩

/-- A change of the context that overlooks further notices in front stays beside itself. -/
theorem alike_modify {f : RenderContext → RenderContext}
    (h : ∀ c : RenderContext, f (c.behind notices) = (f c).behind notices) :
    Alike notices extra (modify f : Render ε Unit) := by
  intro s s' hs
  refine ⟨rfl, ?_, hs.world⟩
  rw [Stage.play_modify, Stage.play_modify, hs.context]
  exact h s'.context

/-- What is looked up in the context, apart from the notices. -/
theorem alike_look {g : RenderContext → α} (h : ∀ c : RenderContext, g (c.behind notices) = g c) :
    Alike notices extra (g <$> get : Render ε α) := by
  intro s s' hs
  refine ⟨?_, hs⟩
  rw [Stage.play_map, Stage.play_map, Stage.play_get, Stage.play_get, hs.context]
  exact h s'.context

/-- A rendering that looks into the context, but not at the notices. -/
theorem alike_get {k : RenderContext → Render ε α}
    (h : ∀ c : RenderContext, k (c.behind notices) = k c) (hk : ∀ c, Alike notices extra (k c)) :
    Alike notices extra (get >>= k) := by
  intro s s' hs
  rw [Stage.play_bind, Stage.play_bind, Stage.play_get, Stage.play_get]
  dsimp only
  rw [hs.context, h]
  exact hk _ _ _ hs

/-- Resolving a variable overlooks further notices in front. -/
theorem alike_renderVariable (name : String) (silent : Bool) (source : String) :
    Alike notices extra (renderVariable (ε := ε) e name silent source) := by
  refine alike_get (fun _ => rfl) fun c => ?_
  refine alike_bind (alike_lift (Variables.respects_resolve _ _ _ _)) fun resolved => ?_
  split
  · dsimp only
    split
    · refine alike_bind (alike_modify fun c => ?_) fun _ => alike_pure _
      unfold RenderContext.behind
      rw [List.append_assoc]
    · exact alike_bind (alike_pure _) fun _ => alike_pure _
  · exact alike_pure _

end Alike

/-! ## Filters of one's own -/

/-- The registered filters do not look at the notices that have been gathered. -/
def FilterRegistry.OverlooksNotices (r : FilterRegistry) : Prop :=
  ∀ (name : String) (filter : CustomFilter), r.custom[name]? = some filter →
    ∀ (a : FilterArgs) (c : RenderContext), filter a { c with notifications := [] } = filter a c

/-- Filters go the same way on stages beside each other if there are no notices in front, or if
the registered ones do not look at notices. -/
theorem filtering_alike {notices : List VariableNotification} (extra : Counter → Nat) (e : Engine)
    (h : notices = [] ∨ e.filters.OverlooksNotices) :
    Filtering (fun p : Activity ε _ => p.Respects (World.Recounted extra))
      (fun p => Alike notices extra p) e where
  steps := filterSteps_respects e
  pure := alike_pure
  bind := alike_bind
  lift := alike_lift
  look overlooks := alike_look fun c => overlooks c _
  ask key filter registered a := by
    refine alike_look fun c => ?_
    rcases h with rfl | h
    · rfl
    · rw [← h key filter registered a (c.behind notices), ← h key filter registered a c]
      rfl
  keep _ := alike_modify fun _ => rfl

/-- Rendering nodes overlooks further notices in front, if the filters do. -/
theorem alike_renderNodes {notices : List VariableNotification} (extra : Counter → Nat)
    (h : notices = [] ∨ e.filters.OverlooksNotices) (depth : Nat) (nodes : List Node) :
    Alike notices extra (renderNodes (ε := ε) e depth nodes) :=
  (filtering_alike extra e h).renderNodes alike_renderVariable depth nodes

end Template

end ChatBot
