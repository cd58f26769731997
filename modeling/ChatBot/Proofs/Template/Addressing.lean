import ChatBot.Proofs.Template.ByProducts
import ChatBot.Proofs.Template.Registrations

/-!
# Which by-products can be addressed

A filter of one's own leaves its by-product under its whole name, and names may hold dots. A name,
a dot and a path are read as a path into a by-product with the first dot ending the name. So a
filter whose name holds no dot can be looked into by every path (unless name and path together are
another filter's name), while the by-product of a filter with a dot in its name is out of reach:
what follows its first part is taken for a path, into the by-product of a filter with that part as
its name, if there is one.

Main statement: this is what such names stand for in every registry; and wherever in a template a
path into the by-product of a filter without a dot in its name is evaluated, it shows what the
filter has left last (`path_shows_left`).
-/

set_option autoImplicit false

namespace ChatBot.Template

variable {ε α : Type} {e : Engine} {key : String} {filter : CustomFilter}

/-! ## What dotted names stand for -/

section Names

variable {r : FilterRegistry} {path : String}

/-- A name that is not registered itself is read with its first dot ending the key. -/
theorem FilterRegistry.classifyTrimmed_dotted {first rest : String} (hfirst : '.' ∉ first.toList)
    (hbuiltin : ¬ BuiltinName (first ++ "." ++ rest))
    (hfree : r.custom[first ++ "." ++ rest]? = none) (hrest : rest ≠ "") :
    r.classifyTrimmed (first ++ "." ++ rest) =
      if r.custom.contains first then .byProduct first rest else .unknown := by
  have hsplit : Text.splitOnce (first ++ "." ++ rest) "." = some (first, rest) :=
    Text.splitOnce_dot_eq_some_iff.2 ⟨rfl, hfirst⟩
  rw [classifyTrimmed, classifyBuiltin_eq_none hbuiltin, hfree, hsplit]
  simp [hrest]

/-- A name of a built-in family stays one when more is written behind a dot. -/
theorem builtinName_append_iff (name path : String) :
    BuiltinName (name ++ "." ++ path) ↔ BuiltinName name := by
  have hfirst : firstPart (name ++ "." ++ path) = firstPart name := by
    rcases exists_dotted name with hplain | ⟨first, rest, rfl, hfirst⟩
    · rw [firstPart_dotted hplain, firstPart_of_not_mem hplain]
    · have hassoc :
          first ++ "." ++ rest ++ "." ++ path = first ++ "." ++ (rest ++ "." ++ path) := by
        simp only [String.append_assoc]
      rw [hassoc, firstPart_dotted hfirst, firstPart_dotted hfirst]
  rw [builtinName_iff, builtinName_iff, hfirst]

/-- The registered name, a dot and a path that ends with no blank, in a text with blanks around
them; the three together are not registered. -/
structure Addresses (r : FilterRegistry) (key path text : String) : Prop where
  registered : ∃ filter, r.custom[key]? = some filter
  ne_empty : path ≠ ""
  last : ∀ c ∈ path.toList.getLast?, Text.isBlank c = false
  free : r.custom[key ++ "." ++ path]? = none
  padded : Text.Padded (key ++ "." ++ path) text

variable {text : String}

/-- Without its blanks, an address is a name, a dot and a path. -/
theorem Addresses.trim (h : Addresses r key path text) (built : r.Built) :
    Text.trim text = key ++ "." ++ path := by
  obtain ⟨filter, hfilter⟩ := h.registered
  have hname := (built.named hfilter).1
  have hkey : key.toList ≠ [] := by simpa using hname.ne_empty
  have hpath : path.toList ≠ [] := by simpa using h.ne_empty
  refine Text.trim_of_padded h.padded (fun c hc => hname.not_blank c ?_) fun c hc => h.last c ?_
  · rw [String.toList_append, String.toList_append, List.append_assoc,
      List.head?_append_of_ne_nil _ hkey] at hc
    exact List.mem_of_head? hc
  · rwa [String.toList_append, List.getLast?_append_of_ne_nil _ hpath] at hc

/-- An address is not the name of a filter that is built in. -/
theorem Addresses.not_builtin (h : Addresses r key path text) (built : r.Built) :
    ¬ BuiltinName (key ++ "." ++ path) := by
  obtain ⟨filter, hfilter⟩ := h.registered
  rw [builtinName_append_iff]
  exact (built.named hfilter).2

/-- A key without a dot is found. -/
theorem Addresses.classify (h : Addresses r key path text) (built : r.Built)
    (hplain : '.' ∉ key.toList) : r.classify text = .byProduct key path := by
  obtain ⟨filter, hfilter⟩ := h.registered
  rw [FilterRegistry.classify, h.trim built, FilterRegistry.classifyTrimmed_dotted hplain
    (h.not_builtin built) h.free h.ne_empty, Std.ExtTreeMap.contains_eq_isSome_getElem?, hfilter]
  rfl

/-- Of a key with a dot only the first part is taken for a key. -/
theorem Addresses.classify_dotted {first rest : String}
    (h : Addresses r (first ++ "." ++ rest) path text) (built : r.Built)
    (hfirst : '.' ∉ first.toList) :
    r.classify text = if r.custom.contains first then .byProduct first (rest ++ "." ++ path)
      else .unknown := by
  have hassoc : first ++ "." ++ rest ++ "." ++ path = first ++ "." ++ (rest ++ "." ++ path) := by
    simp only [String.append_assoc]
  have hbuiltin := h.not_builtin built
  have hfree := h.free
  rw [FilterRegistry.classify, h.trim built]
  rw [hassoc] at hbuiltin hfree ⊢
  refine FilterRegistry.classifyTrimmed_dotted hfirst hbuiltin hfree ?_
  intro hempty
  have hlength := congrArg String.length hempty
  simp at hlength

end Names

/-! ## What filters of one's own have left -/

/-- The by-product that an action leaves, if it evaluates the filter under this key. -/
def leaves (filter : CustomFilter) (key : String) (x : Action × Stage ε) : Option Json :=
  match x.1 with
  | .evaluate a => if Text.trim a.name = key then (filter a x.2.context).byProduct else none
  | .lookUp _ _ | .resolve _ _ _ | .choose => none

/-- What the filter under the key has left last when this was done from the stage on; what the
context held at the start if it has left nothing. -/
def lastLeft (filter : CustomFilter) (key : String) (s : Stage ε)
    (done : List (Action × Stage ε)) : Option Json :=
  (done.filterMap (leaves filter key)).getLast?.or s.context.byProducts[key]?

/-- The last answer of several is the answer of the last one that has one. -/
theorem foldl_or_eq_getLast? {β γ : Type} (f : β → Option γ) (xs : List β) (start : Option γ) :
    xs.foldl (fun v x => (f x).or v) start = (xs.filterMap f).getLast?.or start := by
  induction xs using List.reverseRecOn with
  | nil => rfl
  | append_singleton xs x ih =>
    rw [List.foldl_concat, ih, List.filterMap_append]
    cases hx : f x with
    | none => simp [hx]
    | some v => simp [hx]

/-- A custom filter leaves its by-product under its name, and what was there if it leaves none. -/
theorem play_custom {a : FilterArgs} (hkind : e.filters.classify a.name = .custom filter)
    (s : Stage ε) :
    (s.play (evaluateNamed e a)).2.context.byProducts[Text.trim a.name]? =
      (filter a s.context).byProduct.or s.context.byProducts[Text.trim a.name]? := by
  rw [play_evaluateNamed, hkind, evaluate_custom, Stage.play_bind, Stage.play_map, Stage.play_get]
  dsimp only [Stage.counted]
  cases (filter a s.context).byProduct with
  | none => rfl
  | some v => simp

/-- What one action does to the by-product of a filter of one's own. -/
theorem byProduct_perform_custom (built : e.filters.Built)
    (hkey : e.filters.custom[key]? = some filter) (action : Action) (s : Stage ε) :
    (s.play (action.perform e)).2.context.byProducts[key]? =
      (leaves filter key (action, s)).or s.context.byProducts[key]? := by
  cases action with
  | lookUp name source => exact leavesAlone_renderParam name source s
  | resolve name silent source => exact leavesAlone_renderVariable name silent source s
  | choose => exact leavesAlone_bind (leavesAlone_lift _) (fun _ => leavesAlone_pure _) s
  | evaluate a =>
    rw [Action.perform, leaves]
    dsimp only
    by_cases hname : Text.trim a.name = key
    · rw [if_pos hname, ← hname]
      have hpadded : Text.Padded key a.name := hname ▸ Text.padded_trim a.name
      exact play_custom (built.classify_of_getElem? hkey hpadded) s
    · rw [if_neg hname, Option.none_or]
      refine leavesAlone_evaluateNamed (fun hapi => ?_) (fun _ _ => Ne.symm hname) s
      intro heq
      exact hname (hapi.trans heq.symm)

/-- On the course of a rendering, the by-product of a filter of one's own is what it has
left last. -/
theorem byProduct_left_on_course (built : e.filters.Built)
    (hkey : e.filters.custom[key]? = some filter) {p : Script α} {s t : Stage ε} {action : Action}
    {before after : List (Action × Stage ε)} (h : p.course e s = before ++ (action, t) :: after) :
    t.context.byProducts[key]? = lastLeft filter key s before := by
  have hview := Script.view_on_course (fun s : Stage ε => s.context.byProducts[key]?)
    (fun x held => (leaves filter key x).or held) (byProduct_perform_custom built hkey) h
  rw [lastLeft, ← foldl_or_eq_getLast?]
  exact hview

/-! ## What paths show -/

/-- The text is what a path shows of a value, if there is one. The path `_response` shows all of
it. -/
def ShowsAt (held : Option Json) (path text : String) : Prop :=
  (path ≠ "_response" → Shows held path text) ∧
    (path = "_response" → text = (held.map wholeText).getD "")

/-- Looking a path up shows what the path shows. -/
theorem showsAt_lookupPath (held : Option Json) (path : String) :
    ShowsAt held path ((held.map fun v => lookupPath v path).getD "") := by
  refine ⟨fun hpath => (shows_iff hpath).2 rfl, ?_⟩
  rintro rfl
  rfl

/-- The path of a by-product shows what the context holds under the name. -/
theorem play_byProduct {a : FilterArgs} {path : String}
    (hkind : e.filters.classify a.name = .byProduct key path) (s : Stage ε) :
    (s.play (evaluateNamed e a)).1 =
      (s.context.byProducts[key]?.map fun v => lookupPath v path).getD "" := by
  rw [play_evaluateNamed, hkind, evaluate, Stage.play_bind, Stage.play_get]
  dsimp only [Stage.counted, Stage.play_pure]
  cases s.context.byProducts[key]? <;> rfl

/-- **By-products of filters whose name holds no dot are addressable.** In every registry that
registering leads to, take a registered name and any path. A text that writes the two with a dot
between them, and is not registered itself,

* stands for the path into the by-product of that name if the name holds no dot;
* otherwise stands for a path into the by-product of the first part of the name, or for nothing if
  that part is not registered.

And if the name holds no dot, then wherever in the rendering of a template such a text is evaluated,
the path shows what the filter of that name has left last. -/
theorem path_shows_left (built : e.filters.Built) (hkey : e.filters.custom[key]? = some filter)
    (path : String) :
    (∀ text, Addresses e.filters key path text →
      ('.' ∉ key.toList → e.filters.classify text = .byProduct key path) ∧
      ∀ first rest, key = first ++ "." ++ rest → '.' ∉ first.toList →
        e.filters.classify text =
          if e.filters.custom.contains first then .byProduct first (rest ++ "." ++ path)
          else .unknown) ∧
    ∀ (s : Stage ε) (template : String),
      renderNodes e 0 (parse template) =
          (scriptNodes e.config.maxRenderDepth 0 (parse template)).perform (ε := ε) e ∧
        ∀ before a t after,
          (scriptNodes e.config.maxRenderDepth 0 (parse template)).course e s =
            before ++ (.evaluate a, t) :: after →
          '.' ∉ key.toList → Addresses e.filters key path a.name →
          ShowsAt (lastLeft filter key s before) path (t.play (evaluateNamed e a)).1 := by
  refine ⟨fun text haddresses => ⟨haddresses.classify built, ?_⟩, fun s template =>
    ⟨renderNodes_eq_perform e 0 (parse template), ?_⟩⟩
  · rintro first rest rfl hfirst
    exact haddresses.classify_dotted built hfirst
  · intro before a t after hcourse hplain haddresses
    rw [play_byProduct (haddresses.classify built hplain),
      byProduct_left_on_course built hkey hcourse]
    exact showsAt_lookupPath _ path

namespace Scores

/-- A filter that leaves its first argument as a score. -/
def keep : CustomFilter := fun a _ =>
  { text := some "ok", byProduct := some (.obj [("x", .str (a.args.headD ""))]) }

/-- Two filters of this kind, one of them with a dot in its name. -/
def engine : Engine where
  filters := .after [("top-3", keep), ("game.score", keep)]

def start : Stage Unit where
  context := { sender := ⟨"1", "alice"⟩, capabilities := .viewer ⟨"1", "alice"⟩ }
  world := { extra := () }

def template : String := "(top-3.x)(top-3|7)(top-3.x)(top-3|8)"

def course : List (Action × Stage Unit) :=
  (scriptNodes engine.config.maxRenderDepth 0 (parse template)).course engine start

/-- The filters of the fixture have been registered one after the other. -/
theorem built_engine : engine.filters.Built :=
  FilterRegistry.built_after _

/-- The by-product of the filter with a hyphen can be addressed. -/
theorem addresses_top : Addresses engine.filters "top-3" "x" "top-3.x" where
  registered := ⟨keep, rfl⟩
  ne_empty := by decide
  last := by
    rintro _ ⟨⟩
    rfl
  free := Option.isNone_iff_eq_none.1 (by decide +kernel)
  padded := Text.padded_self _

/-- The path shows nothing at first, and behind the filter what that has left. -/
theorem shows_seven :
    (course.map fun x => (x.2.play (x.1.perform engine)).1) = ["", "ok", "7", "ok"] ∧
      engine.filters.classify "top-3.x" = .byProduct "top-3" "x" ∧
      ∃ before t after, course = before ++ (.evaluate ⟨"top-3.x", []⟩, t) :: after ∧
        before.length = 2 ∧ ShowsAt (lastLeft keep "top-3" start before) "x" "7" := by
  have hkey : engine.filters.custom["top-3"]? = some keep := rfl
  obtain ⟨hclassify, hrenders⟩ := path_shows_left (ε := Unit) built_engine hkey "x"
  refine ⟨by decide +kernel, (hclassify _ addresses_top).1 (by decide), ?_⟩
  have haction : course[2]?.map (·.1) = some (.evaluate ⟨"top-3.x", []⟩) := by decide +kernel
  have htext : course[2]?.map (fun x => (x.2.play (x.1.perform engine)).1) = some "7" := by
    decide +kernel
  obtain ⟨t, hthird, hlength, hsplit⟩ := Script.exists_split_of_action haction
  rw [hthird, Option.map_some, Option.some_inj] at htext
  have hshows := (hrenders start template).2 _ _ _ _ hsplit (by decide) addresses_top
  exact ⟨_, t, _, hsplit, hlength, htext ▸ hshows⟩

/-- The by-product of a filter with a dot in its name is kept, and the path into it is not
understood. -/
theorem score_out_of_reach :
    engine.filters.Built ∧ engine.filters.custom["game.score"]? = some keep ∧
      Addresses engine.filters "game.score" "x" "game.score.x" ∧
      engine.filters.classify "game.score.x" ≠ .byProduct "game.score" "x" ∧
      let rendered := start.play (renderNodes engine 0 (parse "(game.score|7)(game.score.x)"))
      rendered.1 = "ok(game.score.x)" ∧
        rendered.2.context.byProducts["game.score"]?.map (lookupPath · "x") = some "7" := by
  have haddresses : Addresses engine.filters "game.score" "x" "game.score.x" :=
    ⟨⟨keep, rfl⟩, addresses_top.ne_empty, addresses_top.last,
      Option.isNone_iff_eq_none.1 (by decide +kernel), Text.padded_self _⟩
  refine ⟨built_engine, rfl, haddresses, fun hkind => ?_, by decide +kernel, by decide +kernel⟩
  have hlabel := congrArg FilterKind.label hkind
  revert hlabel
  decide +kernel

end Scores

end ChatBot.Template
