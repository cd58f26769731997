import ChatBot.Proofs.Template.Stage

/-!
# What filters have in common

Filters ask the shared state for random numbers, for users and for answers from the network, look
into the context, and keep by-products in it. A property that goes through `bind` and that each of
these things has (`FilterSteps`, `Filtering`) holds of every filter that a name can stand for
(`Filtering.evaluate`). For all that nodes may do, references to variables are what is left to look
at (`Filtering.renderNodes`).
-/

set_option autoImplicit false

namespace ChatBot.Template

variable {ε : Type}

/-! ## On the shared state -/

/-- A property of programs that goes through `bind` and that all steps have which filters take on
the shared state. -/
structure FilterSteps (Q : {α : Type} → Activity ε α → Prop) (e : Engine) : Prop where
  done : ∀ {α : Type} (a : α), Q (.done a)
  bind : ∀ {α β : Type} {p : Activity ε α} {k : α → Activity ε β},
    Q p → (∀ a, Q (k a)) → Q (p.bind k)
  count : ∀ c, Q (World.count c)
  draw : ∀ n positive, Q (e.drawBelow n positive)
  list : ∀ filter, Q (World.listUsers filter)
  find : ∀ id, Q (World.findUser id)
  ignored : ∀ sender, Q (World.isIgnored sender)
  fetch : ∀ client agent address, Q (Http.fetch client agent address)

namespace FilterSteps

variable {Q : {α : Type} → Activity ε α → Prop} {e : Engine}

/-- Looking up who may be drawn has the property, if the steps of filters have it. -/
theorem eligible (h : FilterSteps Q e) (ids : List String) : Q (Template.eligible ids) := by
  induction ids with
  | nil => exact h.done _
  | cons id rest ih =>
    refine h.bind (h.find id) fun user => ?_
    cases user with
    | none => exact ih
    | some u => exact h.bind (h.ignored _) fun ignored => h.bind ih fun others => h.done _

/-- Drawing a user has the property, if the steps of filters have it. -/
theorem drawUser (h : FilterSteps Q e) (scope : RandomScope) : Q (Template.drawUser e scope) := by
  refine h.bind (h.list _) fun ids => h.bind (h.eligible ids) fun pool => ?_
  split
  · exact h.bind (h.draw _ _) fun _ => h.done _
  · exact h.done _

/-- Drawing a number has the property, if the steps of filters have it. -/
theorem drawNumber (h : FilterSteps Q e) (low high : Int) : Q (Template.drawNumber e low high) :=
  h.bind (h.draw _ _) fun _ => h.done _

end FilterSteps

/-- A view of the shared state is kept by filters if it shows neither the counters nor how often
random numbers were drawn, records asked for and fetches made. -/
theorem filterSteps_keeps_of {γ : Type} {f : World ε → γ}
    (hmetrics : ∀ w metrics, f { w with metrics } = f w)
    (hdraws : ∀ w draws, f { w with draws } = f w)
    (hlookups : ∀ w lookups, f { w with lookups } = f w)
    (hfetches : ∀ w fetches requests, f { w with fetches, requests } = f w) (e : Engine) :
    FilterSteps (fun p : Activity ε _ => p.Keeps f) e where
  done := Stepwise.keeps_done
  bind := Stepwise.keeps_bind
  count _ := Stepwise.keeps_change fun w => hmetrics w _
  draw _ _ := Stepwise.keeps_act fun w => hdraws w _
  list _ := Stepwise.keeps_read _
  find _ := Stepwise.keeps_act fun w => hlookups w _
  ignored _ := Stepwise.keeps_read _
  fetch _ _ _ := Stepwise.keeps_act fun w => hfetches w _ _

/-! ## What names stand for -/

/-- The filters of the random family are counted under three labels. -/
theorem label_classifyRandom {name : String} {kind : FilterKind}
    (h : classifyRandom name = some kind) :
    kind.label ∈ ["random_user", "random_number", "random_true_or_false"] := by
  obtain ⟨rest, -, h⟩ := Option.bind_eq_some_iff.1 h
  split at h
  · cases h
    simp [FilterKind.label]
  · split at h
    · cases h
      simp [FilterKind.label]
    · obtain ⟨bounds, -, h⟩ := Option.bind_eq_some_iff.1 h
      obtain ⟨⟨low, high⟩, -, h⟩ := Option.bind_eq_some_iff.1 h
      obtain ⟨a, -, h⟩ := Option.bind_eq_some_iff.1 h
      obtain ⟨b, -, h⟩ := Option.bind_eq_some_iff.1 h
      cases h
      simp [FilterKind.label]

/-- A name of the `api` family stands for a fetch or for a path into what was fetched. -/
theorem classifyApi_cases {name : String} {kind : FilterKind}
    (h : classifyApi name = some kind) :
    (name = "api" ∧ kind = .api) ∨ ∃ path, kind = .byProduct "api" path := by
  unfold classifyApi at h
  split at h
  · cases h
    exact .inl ⟨‹_›, rfl⟩
  · obtain ⟨path, -, h⟩ := Option.bind_eq_some_iff.1 h
    split at h
    · cases h
    · cases h
      exact .inr ⟨path, rfl⟩

/-- The kinds of the built-in families, those of the `api` family apart, are told by their
labels. -/
theorem classifyBuiltin_cases {name : String} {kind : FilterKind}
    (h : classifyBuiltin name = some kind) :
    kind.label ∈ ["if", "random_user", "random_number", "random_true_or_false", "math",
      "to_percent", "to_float"] ∨ classifyApi name = some kind := by
  unfold classifyBuiltin at h
  split at h
  · split at h <;> cases h
    exact .inl (by decide)
  · have hlabel := label_classifyRandom h
    simp only [List.mem_cons, List.not_mem_nil, or_false] at hlabel
    refine .inl ?_
    rcases hlabel with hlabel | hlabel | hlabel <;> simp [hlabel]
  · exact .inr h
  · unfold classifyMath at h
    split at h
    · cases h
      exact .inl (by decide)
    · obtain ⟨expression, -, h⟩ := Option.map_eq_some_iff.1 h
      cases h
      exact .inl (by simp [FilterKind.label])
  · split at h <;> cases h
    exact .inl (by decide)
  · split at h <;> cases h
    exact .inl (by decide)
  · cases h

/-- No name of a built-in family stands for a filter of one's own. -/
theorem classifyBuiltin_ne_custom (name : String) (filter : CustomFilter) :
    classifyBuiltin name ≠ some (.custom filter) := by
  intro h
  rcases classifyBuiltin_cases h with hlabel | hapi
  · simp [FilterKind.label] at hlabel
  · rcases classifyApi_cases hapi with ⟨-, hkind⟩ | ⟨path, hkind⟩ <;> cases hkind

/-- A name stands for a filter of one's own only if that is registered. -/
theorem exists_of_classify {r : FilterRegistry} {name : String} {filter : CustomFilter}
    (h : r.classify name = .custom filter) : ∃ key : String, r.custom[key]? = some filter := by
  unfold FilterRegistry.classify FilterRegistry.classifyTrimmed at h
  split at h
  · rename_i kind hbuiltin
    subst h
    exact absurd hbuiltin (classifyBuiltin_ne_custom _ filter)
  · split at h
    · rename_i found hfound
      cases h
      exact ⟨_, hfound⟩
    · split at h
      · split at h <;> cases h
      · cases h

/-! ## Fetches and paths into what was fetched -/

section Api

variable {r : FilterRegistry} {name path : String}

/-- Only one name is that of a fetch. -/
theorem eq_api_of_classifyBuiltin (h : classifyBuiltin name = some .api) : name = "api" := by
  rcases classifyBuiltin_cases h with hlabel | hapi
  · exact absurd hlabel (by decide)
  · rcases classifyApi_cases hapi with ⟨hname, -⟩ | ⟨path, hkind⟩
    · exact hname
    · cases hkind

/-- Only `api` itself stands for a fetch. -/
theorem classify_eq_api_iff : r.classify name = .api ↔ Text.trim name = "api" := by
  constructor
  · intro h
    unfold FilterRegistry.classify FilterRegistry.classifyTrimmed at h
    split at h
    · rename_i kind hbuiltin
      subst h
      exact eq_api_of_classifyBuiltin hbuiltin
    · split at h
      · cases h
      · split at h
        · split at h <;> cases h
        · cases h
  · intro h
    rw [FilterRegistry.classify, h]
    rfl

/-- The name of a fetch with a dotted path behind it is that of its by-product. -/
theorem classify_path (h : Text.trim name = "api." ++ path) (hpath : path ≠ "") :
    r.classify name = .byProduct "api" path := by
  have hfirst : firstPart ("api." ++ path) = "api" := by
    simp [firstPart]
  have hafter : Text.after? ("api." ++ path) "api." = some path := by
    rw [Text.after?, Text.afterPiece?_eq_some.2 String.toList_append, Option.map_some,
      String.ofList_toList]
  have hne : "api." ++ path ≠ "api" := by
    intro heq
    have hlength := congrArg (fun s : String => s.toList.length) heq
    simp at hlength
  have hbuiltin : classifyBuiltin ("api." ++ path) = some (.byProduct "api" path) := by
    rw [classifyBuiltin, hfirst]
    simp [classifyApi, hne, hafter, hpath]
  rw [FilterRegistry.classify, h, FilterRegistry.classifyTrimmed, hbuiltin]

/-- No custom filter has the name of a fetch. -/
theorem trim_ne_api_of_custom {filter : CustomFilter} (h : r.classify name = .custom filter) :
    Text.trim name ≠ "api" := by
  intro hname
  rw [classify_eq_api_iff.2 hname] at h
  cases h

end Api

/-! ## On the context -/

/-- A filter of one's own is asked before anything is kept of its answer. -/
theorem evaluate_custom (e : Engine) (a : FilterArgs) (filter : CustomFilter) :
    evaluate (ε := ε) e a (.custom filter) = (do
      let out ← filter a <$> get
      match out.byProduct with
      | some v =>
        modify fun c => { c with byProducts := c.byProducts.insert (Text.trim a.name) v }
      | none => pure ()
      return out.text.getD "") := by
  rw [bind_map_left]
  rfl

/-- A property of renderings that goes through `bind`, that follows for programs on the shared state
from a property which the steps of filters have, and that looking into the context and keeping
by-products have. Built-in filters do not look at the notices that have been gathered; those of
one's own are asked as they are registered. -/
structure Filtering (Q : {α : Type} → Activity ε α → Prop) (P : {α : Type} → Render ε α → Prop)
    (e : Engine) : Prop where
  steps : FilterSteps Q e
  pure : ∀ {α : Type} (a : α), P (pure a : Render ε α)
  bind : ∀ {α β : Type} {p : Render ε α} {k : α → Render ε β}, P p → (∀ a, P (k a)) → P (p >>= k)
  lift : ∀ {α : Type} {p : Activity ε α}, Q p → P (StateT.lift p)
  look : ∀ {α : Type} {g : RenderContext → α},
    (∀ c notifications, g { c with notifications } = g c) → P (g <$> get)
  ask : ∀ (key : String) (filter : CustomFilter), e.filters.custom[key]? = some filter →
    ∀ a, P (filter a <$> get)
  keep : ∀ f : NameMap Json → NameMap Json,
    P (modify fun c => { c with byProducts := f c.byProducts })

namespace Filtering

variable {Q : {α : Type} → Activity ε α → Prop} {P : {α : Type} → Render ε α → Prop} {e : Engine}

/-- A fetch has the property that filters have. -/
theorem renderApi (h : Filtering Q P e) (address : String) : P (Template.renderApi e address) := by
  refine h.bind (h.lift (h.steps.fetch _ _ _)) fun body => ?_
  cases body with
  | some body => exact h.bind (h.keep (·.insert "api" (bodyValue body))) fun _ => h.pure ""
  | none =>
    refine h.bind (h.lift (h.steps.count _)) fun _ => ?_
    exact h.bind (h.keep (·.erase "api")) fun _ => h.pure ""

/-- What holds of all that filters do holds of every filter that a name stands for. -/
theorem evaluate (h : Filtering Q P e) (a : FilterArgs) (name : String) :
    P (Template.evaluate e a (e.filters.classify name)) := by
  cases hkind : e.filters.classify name with
  | choice | unknown | math | toPercent | toFloat => exact h.pure _
  | randomUser scope => exact h.lift (h.steps.drawUser scope)
  | randomNumber low high =>
    exact h.bind (h.lift (h.steps.drawNumber low high)) fun _ => h.pure _
  | randomBool => exact h.bind (h.lift (h.steps.draw _ _)) fun _ => h.pure _
  | api => exact h.renderApi _
  | byProduct key path =>
    rw [Template.evaluate, bind_pure_comp]
    exact h.look fun _ _ => rfl
  | custom filter =>
    obtain ⟨key, hregistered⟩ := exists_of_classify hkind
    rw [evaluate_custom]
    refine h.bind (h.ask key filter hregistered a) fun out => ?_
    dsimp only
    split
    · exact h.bind (h.keep (·.insert (Text.trim a.name) _)) fun _ => h.pure _
    · exact h.pure _

/-- A property that filters have is one that passes through a whole rendering, given that references
have it. -/
theorem passing (h : Filtering Q P e) : Passing P e where
  pure := h.pure
  bind := h.bind
  count label := h.lift (h.steps.count (.filterEvaluation label))
  param name source := by
    rw [renderParam, bind_pure_comp]
    exact h.look fun _ _ => rfl
  evaluate := h.evaluate

/-- What holds of all that filters do, and of references to variables, holds of nodes in a row. -/
theorem renderNodes (h : Filtering Q P e)
    (hvariable : ∀ name silent source, P (renderVariable e name silent source)) (depth : Nat)
    (nodes : List Node) : P (Template.renderNodes e depth nodes) :=
  h.passing.renderNodes depth nodes fun _ _ name silent source _ => hvariable name silent source

end Filtering

end ChatBot.Template
