import ChatBot.Proofs.Template.Lookup
import ChatBot.Proofs.Template.Script
import ChatBot.Proofs.Template.Unseen
import Mathlib.Data.List.Induction

/-!
# What paths into a fetched body find

An `api` filter fetches a body for the filters `(api.<path>)` that are evaluated behind it. The body
is kept as the by-product `api` of the context, and a fetch that fails takes the by-product away. So
at any point of a rendering the by-product is what the last fetch has brought, and what the context
held at the start only as long as nothing has been fetched (`byProduct_on_course`).

Main statement: this is what a path looks into, wherever in the template the fetch and the path
stand (`api_never_stale`).
-/

set_option autoImplicit false

namespace ChatBot.Template

/-! ## What leaves a by-product alone -/

variable {ε α β : Type} {e : Engine} {key : String}

/-- The rendering leaves the by-product of a name as it is. -/
def LeavesAlone (key : String) (p : Render ε α) : Prop :=
  ∀ s : Stage ε, (s.play p).2.context.byProducts[key]? = s.context.byProducts[key]?

section LeavesAlone

/-- A rendering that does nothing leaves every by-product. -/
theorem leavesAlone_pure (a : α) : LeavesAlone key (pure a : Render ε α) :=
  fun _ => rfl

/-- Renderings in a row leave the by-products that each of them leaves. -/
theorem leavesAlone_bind {p : Render ε α} {k : α → Render ε β} (hp : LeavesAlone key p)
    (hk : ∀ a, LeavesAlone key (k a)) : LeavesAlone key (p >>= k) := by
  intro s
  rw [Stage.play_bind, hk, hp]

/-- A program over the shared state leaves every by-product. -/
theorem leavesAlone_lift (p : Activity ε α) : LeavesAlone key (StateT.lift p : Render ε α) := by
  intro s
  rw [Stage.play_lift]

/-- Reading the context leaves every by-product. -/
theorem leavesAlone_get : LeavesAlone key (get : Render ε RenderContext) :=
  fun _ => rfl

/-- A change of the by-products leaves those that it does not change. -/
theorem leavesAlone_modify {f : NameMap Json → NameMap Json} (h : ∀ m, (f m)[key]? = m[key]?) :
    LeavesAlone (ε := ε) key (modify fun c => { c with byProducts := f c.byProducts }) :=
  fun s => h s.context.byProducts

/-- Writing a by-product leaves those of other names. -/
theorem leavesAlone_insert {other : String} (h : key ≠ other) (v : Json) :
    LeavesAlone (ε := ε) key
      (modify fun c => { c with byProducts := c.byProducts.insert other v }) := by
  refine leavesAlone_modify (f := (·.insert other v)) fun m => ?_
  rw [Std.ExtTreeMap.getElem?_insert, if_neg]
  exact fun heq => h (Std.LawfulEqCmp.eq_of_compare heq).symm

/-- Erasing a by-product leaves those of other names. -/
theorem leavesAlone_erase {other : String} (h : key ≠ other) :
    LeavesAlone (ε := ε) key
      (modify fun c => { c with byProducts := c.byProducts.erase other }) := by
  refine leavesAlone_modify (f := (·.erase other)) fun m => ?_
  rw [Std.ExtTreeMap.getElem?_erase, if_neg]
  exact fun heq => h (Std.LawfulEqCmp.eq_of_compare heq).symm

/-- Looking a parameter up leaves every by-product. -/
theorem leavesAlone_renderParam (name source : String) :
    LeavesAlone (ε := ε) key (renderParam name source) :=
  leavesAlone_bind leavesAlone_get fun _ => leavesAlone_pure _

/-- Resolving a variable leaves every by-product. -/
theorem leavesAlone_renderVariable (name : String) (silent : Bool) (source : String) :
    LeavesAlone (ε := ε) key (renderVariable e name silent source) := by
  refine leavesAlone_bind leavesAlone_get fun c => leavesAlone_bind (leavesAlone_lift _) ?_
  intro resolved
  split
  · dsimp only
    split
    · exact leavesAlone_bind (fun _ => rfl) fun _ => leavesAlone_pure _
    · exact leavesAlone_bind (leavesAlone_pure _) fun _ => leavesAlone_pure _
  · exact leavesAlone_pure _

/-- A fetch leaves every by-product but its own. -/
theorem leavesAlone_renderApi (h : key ≠ "api") (address : String) :
    LeavesAlone (ε := ε) key (renderApi e address) := by
  refine leavesAlone_bind (leavesAlone_lift _) fun body => ?_
  cases body with
  | some body => exact leavesAlone_bind (leavesAlone_insert h _) fun _ => leavesAlone_pure _
  | none =>
    refine leavesAlone_bind (leavesAlone_lift _) fun _ => ?_
    exact leavesAlone_bind (leavesAlone_erase h) fun _ => leavesAlone_pure _

/-- Only fetches touch the by-product `api`, and filters of one's own only the one of their name. -/
theorem leavesAlone_evaluate {a : FilterArgs} {kind : FilterKind}
    (hapi : kind = .api → key ≠ "api")
    (hcustom : ∀ filter, kind = .custom filter → key ≠ Text.trim a.name) :
    LeavesAlone (ε := ε) key (evaluate e a kind) := by
  cases kind with
  | choice | unknown | math | toPercent | toFloat => exact leavesAlone_pure _
  | randomUser scope => exact leavesAlone_lift _
  | randomNumber low high => exact leavesAlone_bind (leavesAlone_lift _) fun _ => leavesAlone_pure _
  | randomBool => exact leavesAlone_bind (leavesAlone_lift _) fun _ => leavesAlone_pure _
  | api => exact leavesAlone_renderApi (hapi rfl) _
  | byProduct => exact leavesAlone_bind leavesAlone_get fun _ => leavesAlone_pure _
  | custom filter =>
    refine leavesAlone_bind leavesAlone_get fun c => ?_
    dsimp only
    split
    · exact leavesAlone_bind (leavesAlone_insert (hcustom filter rfl) _) fun _ =>
        leavesAlone_pure _
    · exact leavesAlone_bind (leavesAlone_pure _) fun _ => leavesAlone_pure _

/-- A filter leaves every by-product but its own. -/
theorem leavesAlone_evaluateNamed {a : FilterArgs} (hapi : Text.trim a.name = "api" → key ≠ "api")
    (hcustom : ∀ filter, e.filters.classify a.name = .custom filter → key ≠ Text.trim a.name) :
    LeavesAlone (ε := ε) key (evaluateNamed e a) :=
  leavesAlone_bind (leavesAlone_lift _) fun _ =>
    leavesAlone_evaluate (fun hkind => hapi (classify_eq_api_iff.1 hkind)) hcustom

/-- Filters other than fetches leave the by-product `api` alone. -/
theorem leavesAlone_of_ne_api {a : FilterArgs} (h : Text.trim a.name ≠ "api") :
    LeavesAlone (ε := ε) "api" (evaluateNamed e a) :=
  leavesAlone_evaluateNamed (fun hname => absurd hname h) fun _ _ => h.symm

end LeavesAlone

/-! ## Fetching, and looking into what was fetched -/

/-- The body that a fetch brings when it is evaluated on a stage; nothing if it fails. -/
def fetched (e : Engine) (a : FilterArgs) (s : Stage ε) : Option String :=
  ((Http.fetch e.client e.config.apiUserAgent (Text.trim a.joined)).run s.world).1

/-- What a fetch brings to look into: its body as JSON, or as one text if it is not JSON. -/
def brought (e : Engine) (a : FilterArgs) (s : Stage ε) : Option Json :=
  (fetched e a s).map fun body => (Json.parse? body).getD (.str body)

/-- A fetch brings the same before and after a count. -/
theorem brought_counted (e : Engine) (a : FilterArgs) (s : Stage ε) (c : Counter) :
    brought e a (s.counted c) = brought e a s := by
  have hcounted : s.world.Recounted (fun d => if d = c then 1 else 0) (s.counted c).world := by
    refine ⟨s.world.metrics.bump c, rfl, fun d => ?_⟩
    rw [Metrics.count_bump]
    dsimp only
    split <;> rfl
  have hfetched : fetched e a s = fetched e a (s.counted c) :=
    (((filterSteps_respects e).fetch _ _ _).run hcounted).1
  rw [brought, brought, hfetched]

/-- A fetch shows nothing, and leaves what it has brought as its by-product. -/
theorem play_renderApi (e : Engine) (a : FilterArgs) (s : Stage ε) :
    (s.play (renderApi e (Text.trim a.joined))).1 = "" ∧
      (s.play (renderApi e (Text.trim a.joined))).2.context.byProducts["api"]? = brought e a s := by
  rw [renderApi, Stage.play_bind, Stage.play_lift, brought, fetched]
  dsimp only
  split
  · rename_i body hbody
    rw [hbody, Stage.play_bind, Stage.play_modify, Stage.play_pure]
    exact ⟨rfl, Std.ExtTreeMap.getElem?_insert_self⟩
  · rename_i hbody
    rw [hbody, Stage.play_bind, Stage.play_count, Stage.play_bind, Stage.play_modify,
      Stage.play_pure]
    exact ⟨rfl, Std.ExtTreeMap.getElem?_erase_self⟩

/-- Evaluating a filter by its name is counting it, and then evaluating it by its kind. -/
theorem play_evaluateNamed (e : Engine) (a : FilterArgs) (s : Stage ε) :
    s.play (evaluateNamed e a) =
      (s.counted (.filterEvaluation (e.filters.classify a.name).label)).play
        (evaluate e a (e.filters.classify a.name)) := by
  rw [evaluateNamed, Stage.play_bind, Stage.play_count]

/-- A fetch comes to nothing. What it brings becomes the by-product `api`, and if it fails there is
none any more. -/
theorem play_fetch (e : Engine) {a : FilterArgs} (h : Text.trim a.name = "api") (s : Stage ε) :
    (s.play (evaluateNamed e a)).1 = "" ∧
      (s.play (evaluateNamed e a)).2.context.byProducts["api"]? = brought e a s := by
  have hkind : e.filters.classify a.name = .api := classify_eq_api_iff.2 h
  rw [play_evaluateNamed, hkind, evaluate, ← brought_counted e a s]
  exact play_renderApi e a _

/-- A path into what was fetched shows what the by-product `api` is at the time. -/
theorem play_path (e : Engine) {a : FilterArgs} {path : String}
    (h : Text.trim a.name = "api." ++ path) (hpath : path ≠ "") (s : Stage ε) :
    (s.play (evaluateNamed e a)).1 =
      (s.context.byProducts["api"]?.map fun v => lookupPath v path).getD "" := by
  rw [play_evaluateNamed, classify_path h hpath, evaluate, Stage.play_bind, Stage.play_get]
  dsimp only [Stage.counted, Stage.play_pure]
  cases s.context.byProducts["api"]? <;> rfl

/-! ## On the course of a rendering -/

/-- The filter that an action evaluates, if that is a fetch. -/
def Action.fetch? : Action → Option FilterArgs
  | evaluate a => if Text.trim a.name = "api" then some a else none
  | lookUp _ _ | resolve _ _ _ | choose => none

/-- The fetches among what was done, with the stages on which they were made. -/
def fetches (done : List (Action × Stage ε)) : List (FilterArgs × Stage ε) :=
  done.filterMap fun x => x.1.fetch?.map fun a => (a, x.2)

/-- What there is to look into when this was done from the stage on: what the last fetch has
brought, and nothing if that one failed; what the context held at the start if nothing has been
fetched. -/
def lastBody (e : Engine) (s : Stage ε) (done : List (Action × Stage ε)) : Option Json :=
  match (fetches done).getLast? with
  | some (a, t) => brought e a t
  | none => s.context.byProducts["api"]?

/-- What one action does to the by-product `api`. -/
theorem byProduct_perform (e : Engine) (action : Action) (s : Stage ε) :
    (s.play (action.perform e)).2.context.byProducts["api"]? =
      match action.fetch? with
      | some a => brought e a s
      | none => s.context.byProducts["api"]? := by
  cases action with
  | lookUp name source =>
    rw [Action.perform, Action.fetch?]
    exact leavesAlone_renderParam name source s
  | resolve name silent source =>
    rw [Action.perform, Action.fetch?]
    exact leavesAlone_renderVariable name silent source s
  | choose =>
    rw [Action.perform, Action.fetch?]
    exact leavesAlone_bind (leavesAlone_lift _) (fun _ => leavesAlone_pure _) s
  | evaluate a =>
    rw [Action.perform, Action.fetch?]
    by_cases h : Text.trim a.name = "api"
    · rw [if_pos h]
      exact (play_fetch e h s).2
    · rw [if_neg h]
      exact leavesAlone_of_ne_api h s

/-- What there is to look into is settled action by action: each fetch replaces what was there. -/
theorem lastBody_eq_foldl (e : Engine) (s : Stage ε) (done : List (Action × Stage ε)) :
    lastBody e s done = done.foldl (fun held x =>
      match x.1.fetch? with
      | some a => brought e a x.2
      | none => held) s.context.byProducts["api"]? := by
  induction done using List.reverseRecOn with
  | nil => rfl
  | append_singleton done x ih =>
    rw [List.foldl_append, ← ih, lastBody, lastBody, fetches, List.filterMap_append, ← fetches]
    cases hfetch : x.1.fetch? with
    | none => simp [hfetch]
    | some a => simp [hfetch]

/-- Wherever a rendering has come to, the by-product `api` is what its last fetch has brought. -/
theorem byProduct_on_course {p : Script α} {s t : Stage ε} {action : Action}
    {before after : List (Action × Stage ε)} (h : p.course e s = before ++ (action, t) :: after) :
    t.context.byProducts["api"]? = lastBody e s before := by
  rw [lastBody_eq_foldl]
  exact Script.view_on_course (fun s : Stage ε => s.context.byProducts["api"]?) _
    (byProduct_perform e) h

/-- How a filter of the family fares that is evaluated on the stage `t`, when `before` is what the
rendering has done from the stage `s` on. -/
structure NeverStale (e : Engine) (s : Stage ε) (before : List (Action × Stage ε)) (a : FilterArgs)
    (t : Stage ε) : Prop where
  /-- A fetch comes to no text. What it brings is kept, and nothing if it fails; the by-products of
  other filters stay as they are. -/
  fetch : Text.trim a.name = "api" →
    (t.play (evaluateNamed e a)).1 = "" ∧
      (t.play (evaluateNamed e a)).2.context.byProducts["api"]? = brought e a t ∧
      ∀ key, key ≠ "api" →
        (t.play (evaluateNamed e a)).2.context.byProducts[key]? = t.context.byProducts[key]?
  /-- A path shows what the last fetch before has brought. -/
  path : ∀ path, Text.trim a.name = "api." ++ path → path ≠ "" → path ≠ "_response" →
    Shows (lastBody e s before) path (t.play (evaluateNamed e a)).1
  /-- A filter of one's own does not touch what was fetched. -/
  custom : ∀ filter, e.filters.classify a.name = .custom filter →
    (t.play (evaluateNamed e a)).2.context.byProducts["api"]? = t.context.byProducts["api"]?

/-- **Fetched bodies are never stale.** The rendering of a template performs a script that goes
through the template depth first and from left to right. Each path into a fetched body that is
evaluated on the course of the script shows what the last fetch evaluated before it has brought. -/
theorem api_never_stale (e : Engine) (s : Stage ε) (template : String) :
    renderNodes e 0 (parse template) =
        (scriptNodes e.config.maxRenderDepth 0 (parse template)).perform (ε := ε) e ∧
      ∀ before a t after,
        (scriptNodes e.config.maxRenderDepth 0 (parse template)).course e s =
          before ++ (.evaluate a, t) :: after →
        NeverStale e s before a t := by
  refine ⟨renderNodes_eq_perform e 0 (parse template), fun before a t after hcourse => ?_⟩
  refine ⟨fun hname => ?_, fun path hname hpath hresponse => ?_, fun filter hkind => ?_⟩
  · obtain ⟨htext, hkept⟩ := play_fetch e hname t
    refine ⟨htext, hkept, fun key hkey => ?_⟩
    exact leavesAlone_evaluateNamed (fun _ => hkey) (fun _ _ => hname ▸ hkey) t
  · rw [play_path e hname hpath, byProduct_on_course hcourse]
    exact (shows_iff hresponse).2 rfl
  · exact leavesAlone_of_ne_api (trim_ne_api_of_custom hkind) t

namespace Refetch

/-- An engine for which the first fetch is answered and the others are told of an error. -/
def engine : Engine where
  client := fun n _ _ =>
    { response := if n = 0 then .answered 200 (some "[7]") else .answered 500 (some "no") }

def start : Stage Unit where
  context := {
    sender := ⟨"1", "alice"⟩
    capabilities := .viewer ⟨"1", "alice"⟩
    byProducts := NameMap.ofList [("api", .arr [.int 1])] }
  world := { extra := () }

def template : String := "(api.0)(api|https://h/7)(api.0)(api|https://h/7)(api.0)"

def course : List (Action × Stage Unit) :=
  (scriptNodes engine.config.maxRenderDepth 0 (parse template)).course engine start

/-- The second of three looks finds what has been fetched in between; the first one finds what was
held at the start, and the third one nothing. -/
theorem second_look :
    (course.map fun x => (x.2.play (x.1.perform engine)).1) = ["1", "", "7", "", ""] ∧
      ∃ before t after, course = before ++ (.evaluate ⟨"api.0", []⟩, t) :: after ∧
        before.length = 2 ∧ Shows (lastBody engine start before) "0" "7" := by
  refine ⟨by decide +kernel, ?_⟩
  have haction : course[2]?.map (·.1) = some (.evaluate ⟨"api.0", []⟩) := by decide +kernel
  have htext : course[2]?.map (fun x => (x.2.play (x.1.perform engine)).1) = some "7" := by
    decide +kernel
  obtain ⟨t, hthird, hlength, hsplit⟩ := Script.exists_split_of_action haction
  rw [hthird, Option.map_some, Option.some_inj] at htext
  have hfares := (api_never_stale engine start template).2 _ _ _ _ hsplit
  have hshows := hfares.path "0" (by decide) (by decide) (by decide)
  exact ⟨_, t, _, hsplit, hlength, htext ▸ hshows⟩

end Refetch

end ChatBot.Template
