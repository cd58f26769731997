import ChatBot.Proofs.Template.Comparison
import ChatBot.Proofs.Template.Concatenation
import ChatBot.Proofs.Template.Scanning
import ChatBot.Proofs.Template.Sources

/-!
# Templates that render to themselves

A filter with a name that is not known is written out again from its rendered segments, and a
filter that stands too deep, or a choice without a comparison, is copied from the text it was read
from. In a template without references and backslashes the two are the same: the text of a filter
is put together from the texts of its segments (`Node.Verbatim`). So if no name region is the name
of a filter or makes a comparison, such a template is rendered to itself at any depth
(`Node.Verbatim.returns`), and so is every text whose structural characters are escaped. Main
statement: `render_verbatim`.
-/

set_option autoImplicit false

namespace ChatBot.Template

variable {ε α β : Type}

/-! ## Renderings that only return something -/

/-- The rendering returns the value from every stage, and changes nothing but the counters. -/
def Returns (a : α) (p : Render ε α) : Prop :=
  ∀ s : Stage ε, ∃ metrics, s.play p = (a, { s with world := { s.world with metrics } })

/-- A text that is there is returned. -/
theorem returns_pure (a : α) : Returns a (pure a : Render ε α) :=
  fun s => ⟨s.world.metrics, rfl⟩

/-- Counting changes nothing but the counters. -/
theorem returns_count (c : Counter) : Returns () (StateT.lift (World.count c) : Render ε Unit) :=
  fun s => ⟨s.world.metrics.bump c, rfl⟩

/-- Renderings in a row return what the second one does. -/
theorem returns_bind {a : α} {b : β} {p : Render ε α} {k : α → Render ε β} (hp : Returns a p)
    (hk : Returns b (k a)) : Returns b (p >>= k) := by
  intro s
  obtain ⟨between, hplay⟩ := hp s
  obtain ⟨metrics, hplay'⟩ := hk { s with world := { s.world with metrics := between } }
  exact ⟨metrics, by rw [Stage.play_bind, hplay, hplay']⟩

/-- A function of what is returned is returned. -/
theorem returns_map {a : α} {p : Render ε α} (f : α → β) (hp : Returns a p) :
    Returns (f a) (f <$> p) := by
  rw [← bind_pure_comp]
  exact returns_bind hp (returns_pure (f a))

/-- Of each entry of a list, what is returned for it is returned. -/
theorem returns_mapM {f : α → Render ε β} {g : α → β} {l : List α}
    (h : ∀ a ∈ l, Returns (g a) (f a)) : Returns (l.map g) (l.mapM f) := by
  induction l with
  | nil => exact returns_pure []
  | cons a rest ih =>
    obtain ⟨ha, hrest⟩ := List.forall_mem_cons.1 h
    rw [List.mapM_cons]
    exact returns_bind ha (returns_bind (ih hrest) (returns_pure _))

/-- Nodes return their source if each of them does. -/
theorem returns_renderNodes {e : Engine} {depth : Nat} {nodes : List Node}
    (h : ∀ n ∈ nodes, Returns n.source (renderNode (ε := ε) e depth n)) :
    Returns (sourceOf nodes) (renderNodes (ε := ε) e depth nodes) := by
  induction nodes with
  | nil =>
    rw [renderNodes]
    exact returns_pure ""
  | cons n rest ih =>
    obtain ⟨hn, hrest⟩ := List.forall_mem_cons.1 h
    rw [renderNodes]
    exact returns_bind hn (returns_bind (ih hrest) (returns_pure _))

/-! ## Names that mean nothing -/

/-- A filter with the name region stands in a node: it is the node, or one that stands in the node
at any depth. -/
inductive Node.Names (head : List Node) : Node → Prop where
  | here (rest : List (List Node)) (source : String) : Names head (.filter (head :: rest) source)
  | within {segments : List (List Node)} {segment : List Node} {n : Node} (source : String)
      (hsegment : segment ∈ segments) (hn : n ∈ segment) (names : Names head n) :
      Names head (.filter segments source)

/-- There is no filter in literal text. -/
theorem Node.not_names_literal (head : List Node) (text : String) :
    ¬ (Node.literal text).Names head := by
  intro h
  cases h

/-- The name regions in a filter are its own and those in its segments. -/
theorem Node.names_filter_iff {head first : List Node} {rest : List (List Node)} {source : String} :
    (Node.filter (first :: rest) source).Names head ↔
      head = first ∨ ∃ segment ∈ first :: rest, ∃ n ∈ segment, n.Names head := by
  constructor
  · intro h
    cases h with
    | here => exact .inl rfl
    | within _ hsegment hn names => exact .inr ⟨_, hsegment, _, hn, names⟩
  · rintro (rfl | ⟨segment, hsegment, n, hn, names⟩)
    · exact .here rest source
    · exact .within source hsegment hn names

/-- The text of a name region means nothing: it is not the name of a filter, and if it starts as
that of a choice, there is no comparison in it. -/
structure Inert (r : FilterRegistry) (name : String) : Prop where
  unknown : r.classify name = .unknown
  no_comparison : ∀ c rest, name.toList = 'i' :: 'f' :: c :: rest →
    (Text.isBlank c = true ∨ isQuote c = true) →
      ¬ ['=', '='] <:+: name.toList ∧ ¬ ['!', '='] <:+: name.toList

/-! ## Comparisons -/

/-- The source of a node is part of the source of all nodes. -/
theorem infix_sourceOf {n : Node} {nodes : List Node} (h : n ∈ nodes) :
    n.source.toList <:+: (sourceOf nodes).toList := by
  induction nodes with
  | nil => cases h
  | cons m rest ih =>
    rw [sourceOf_cons, String.toList_append]
    rcases List.mem_cons.1 h with rfl | h
    · exact (List.prefix_append _ _).isInfix
    · exact (ih h).trans (List.suffix_append _ _).isInfix

/-- Nodes without a comparison in their text make none. -/
theorem comparisonFrom_eq_none {first : Bool} {quote : Option Char} {nodes : List Node}
    (h : ∀ n ∈ nodes, ¬ ['=', '='] <:+: n.source.toList ∧ ¬ ['!', '='] <:+: n.source.toList) :
    comparisonFrom first quote nodes = none := by
  induction nodes generalizing first quote with
  | nil => rfl
  | cons n rest ih =>
    obtain ⟨hn, hrest⟩ := List.forall_mem_cons.1 h
    cases n with
    | reference | filter => exact ih hrest
    | literal text =>
      rw [comparisonFrom]
      cases hscan : scan quote (conditionText first text) with
      | missing quote => exact ih hrest
      | found before equality after =>
        have hpart : conditionText first text <:+: text.toList := by
          unfold conditionText
          split
          · exact (List.drop_suffix 2 text.toList).isInfix
          · exact List.infix_rfl
        have hsign := right_scan quote (conditionText first text)
        rw [hscan] at hsign
        have hfound : sign equality <:+: text.toList :=
          List.IsInfix.trans ⟨before, after, hsign.1.eq.symm⟩ hpart
        cases equality with
        | true => exact absurd hfound hn.1
        | false => exact absurd hfound hn.2

/-- A name region that means nothing makes no comparison. -/
theorem Inert.comparison?_eq_none {r : FilterRegistry} {head : List Node}
    (h : Inert r (sourceOf head)) (hchoice : startsChoice head = true) :
    comparison? head = none := by
  unfold startsChoice at hchoice
  split at hchoice
  · rename_i text rest
    split at hchoice
    · rename_i c cs htext
      have hstarts : (sourceOf (.literal text :: rest)).toList =
          'i' :: 'f' :: c :: (cs ++ (sourceOf rest).toList) := by
        rw [sourceOf_cons, String.toList_append, Node.source, htext]
        rfl
      obtain ⟨hequal, hunequal⟩ := h.no_comparison c _ hstarts (by simpa using hchoice)
      exact comparisonFrom_eq_none fun n hn =>
        ⟨fun hin => hequal (hin.trans (infix_sourceOf hn)),
          fun hin => hunequal (hin.trans (infix_sourceOf hn))⟩
    · cases hchoice
  · cases hchoice

/-! ## Templates without references and backslashes -/

/-- A node without references, where the text of each filter is put together from the texts of its
segments. -/
inductive Node.Verbatim : Node → Prop where
  | literal (text : String) : Verbatim (.literal text)
  | filter {head : List Node} {rest : List (List Node)} {source : String}
      (written : source = "(" ++ Text.joinWith "|" ((head :: rest).map sourceOf) ++ ")")
      (parts : ∀ segment ∈ head :: rest, ∀ n ∈ segment, Verbatim n) :
      Verbatim (.filter (head :: rest) source)

/-- A token that is plain text as it is written, a parenthesis or a bar. -/
def Token.Bare (t : Token) : Prop :=
  t.raw = t.plain ∧ ∀ silent persisted identifier, t ≠ .reference silent persisted identifier

/-- A text without dollar signs and backslashes is cut into bare tokens. -/
theorem Lexes.bare {cs : List Char} {ts : List Token} (h : Lexes Refers cs ts) (hdollar : '$' ∉ cs)
    (hbackslash : '\\' ∉ cs) : ∀ t ∈ ts, t.Bare := by
  induction h with
  | done => simp
  | escaped | backslash => simp at hbackslash
  | reference | dollar => simp at hdollar
  | opening rest ih | closing rest ih | bar rest ih | plain other rest ih =>
    refine List.forall_mem_cons.2 ⟨⟨rfl, by simp⟩, ih ?_ ?_⟩
    · exact fun h => hdollar (List.mem_cons_of_mem _ h)
    · exact fun h => hbackslash (List.mem_cons_of_mem _ h)

/-- A bare token in front of nodes is its text. -/
theorem Token.Bare.addToken_eq {t : Token} (h : t.Bare) (nodes : List Node) :
    addToken t nodes = addText t.plain nodes := by
  cases t with
  | reference silent persisted identifier => exact absurd rfl (h.2 silent persisted identifier)
  | char | opening | closing | bar => rfl

/-- Text in front of verbatim nodes leaves them verbatim. -/
theorem verbatim_addText (text : List Char) {nodes : List Node} (h : ∀ n ∈ nodes, n.Verbatim) :
    ∀ n ∈ addText text nodes, n.Verbatim := by
  unfold addText
  split
  · exact h
  · exact List.forall_mem_cons.2 ⟨.literal _, (List.forall_mem_cons.1 h).2⟩
  · exact List.forall_mem_cons.2 ⟨.literal _, h⟩

/-- Text in front of the first segment stands in front of all of them. -/
theorem joinWith_onFirst {f : List Node → List Node} {text : List Char}
    (hf : ∀ nodes, (sourceOf (f nodes)).toList = text ++ (sourceOf nodes).toList)
    {segments : List (List Node)} (hne : segments ≠ []) :
    (Text.joinWith "|" ((onFirst f segments).map sourceOf)).toList =
      text ++ (Text.joinWith "|" (segments.map sourceOf)).toList := by
  match segments with
  | [segment] => exact hf segment
  | segment :: next :: rest =>
    simp only [onFirst, List.map_cons, Text.joinWith, String.toList_append, hf, List.append_assoc]

namespace Body

variable {ts : List Token} (b : Body ts)

/-- The body is read from the texts of its segments. -/
structure Verbatim : Prop where
  written : (Text.joinWith "|" (b.segments.map sourceOf)).toList = b.used.flatMap Token.raw
  parts : ∀ segment ∈ b.segments, ∀ n ∈ segment, n.Verbatim

/-- A body that is read from the texts of its segments makes a verbatim filter. -/
theorem Verbatim.filter {b : Body ts} (h : b.Verbatim) (hb : inside ts = some b) :
    b.filter.Verbatim := by
  obtain ⟨head, rest, hsegments⟩ := inside_segments hb
  have hparts := h.parts
  have hwritten := h.written
  rw [hsegments] at hparts hwritten
  rw [Body.filter, hsegments]
  refine .filter ?_ hparts
  rw [← String.toList_inj]
  simp only [String.toList_append, hwritten]
  simp

end Body

/-- The body of every filter is read from the texts of its segments if the tokens are bare, by
induction on these. -/
theorem verbatim_inside {ts : List Token} {b : Body ts} (h : inside ts = some b)
    (hts : ∀ t ∈ ts, t.Bare) : b.Verbatim := by
  induction ts using inside.induct with
  | case1 => simp [inside] at h
  | case2 ts =>
    rw [inside] at h
    cases h
    exact ⟨rfl, by simp⟩
  | case3 ts ih =>
    rw [inside, Option.map_eq_some_iff] at h
    obtain ⟨c, hc, rfl⟩ := h
    obtain ⟨hwritten, hparts⟩ := ih hc (List.forall_mem_cons.1 hts).2
    obtain ⟨head, rest, hsegments⟩ := inside_segments hc
    refine ⟨?_, List.forall_mem_cons.2 ⟨by simp, hparts⟩⟩
    rw [List.flatMap_cons, ← hwritten, hsegments]
    simp [Text.joinWith, sourceOf, Token.raw]
  | case4 ts hnone ih =>
    rw [inside, hnone] at h
    cases h
  | case5 ts inner hinner hlength ih ih' =>
    rw [inside, hinner] at h
    obtain ⟨c, hc, rfl⟩ := Option.map_eq_some_iff.1 h
    have hrest := (List.forall_mem_cons.1 hts).2
    have hfilter := (ih hinner hrest).filter hinner
    obtain ⟨hwritten, hparts⟩ := ih' hc (inner.forall_mem_rest hrest)
    obtain ⟨head, rest, hsegments⟩ := inside_segments hc
    refine ⟨?_, ?_⟩
    · have hsource : ∀ nodes, (sourceOf (inner.filter :: nodes)).toList =
          inner.filter.source.toList ++ (sourceOf nodes).toList := fun nodes => by
        rw [sourceOf_cons, String.toList_append]
      rw [joinWith_onFirst hsource (by simp [hsegments]), hwritten]
      simp [Body.filter, Node.source, Token.raw]
    · exact forall_mem_onFirst (fun segment => ∀ n ∈ segment, n.Verbatim)
        (fun nodes hnodes => List.forall_mem_cons.2 ⟨hfilter, hnodes⟩) hparts
  | case6 t ts hclosing hbar hopening ih =>
    rw [inside_cons hopening hclosing hbar, Option.map_eq_some_iff] at h
    obtain ⟨c, hc, rfl⟩ := h
    obtain ⟨ht, hrest⟩ := List.forall_mem_cons.1 hts
    obtain ⟨hwritten, hparts⟩ := ih hc hrest
    obtain ⟨head, rest, hsegments⟩ := inside_segments hc
    refine ⟨?_, ?_⟩
    · rw [joinWith_onFirst (sourceOf_addToken t) (by simp [hsegments]), hwritten, List.flatMap_cons,
        ht.1]
    · refine forall_mem_onFirst (fun segment => ∀ n ∈ segment, n.Verbatim)
        (fun nodes hnodes => ?_) hparts
      rw [ht.addToken_eq]
      exact verbatim_addText t.plain hnodes

/-- The nodes of bare tokens are verbatim, by induction on the tokens. -/
theorem verbatim_template {ts : List Token} (hts : ∀ t ∈ ts, t.Bare) :
    ∀ n ∈ template ts, n.Verbatim := by
  induction ts using template.induct with
  | case1 => simp [template]
  | case2 ts b hb hlength ih =>
    have hrest := (List.forall_mem_cons.1 hts).2
    rw [template, hb]
    exact List.forall_mem_cons.2
      ⟨(verbatim_inside hb hrest).filter hb, ih (b.forall_mem_rest hrest)⟩
  | case3 ts hnone =>
    rw [template, hnone]
    exact List.forall_mem_singleton.2 (.literal _)
  | case4 t ts hopening ih =>
    obtain ⟨ht, hrest⟩ := List.forall_mem_cons.1 hts
    rw [template_cons hopening, ht.addToken_eq]
    exact verbatim_addText t.plain (ih hrest)

/-! ## Rendering them -/

/-- A filter whose name means nothing is written out again. -/
theorem returns_evaluateNamed {e : Engine} {a : FilterArgs}
    (h : e.filters.classify a.name = .unknown) :
    Returns (writtenOut a) (evaluateNamed (ε := ε) e a) := by
  unfold evaluateNamed
  rw [h]
  exact returns_bind (returns_count _) (returns_pure _)

/-- A condition without a comparison is rendered, and none is found. -/
theorem returns_renderCondition {e : Engine} {depth : Nat} {head : List Node}
    (hhead : ∀ n ∈ head, Returns n.source (renderNode (ε := ε) e depth n))
    (hcomparison : comparison? head = none) :
    ∃ c : Condition, c.equality = none ∧
      Returns c (renderCondition (ε := ε) e depth true emptyCondition head) := by
  rw [renderCondition_eq]
  refine ⟨_, ?_, returns_map _ (returns_mapM hhead)⟩
  rw [Condition.equality_reading rfl, List.map_fst_zip (by simp)]
  exact hcomparison

/-- A node that is written as it reads, where no name region means anything, is rendered to what it
was read from, at any depth. -/
theorem Node.Verbatim.returns {e : Engine} {n : Node} (h : n.Verbatim)
    (hnames : ∀ head, n.Names head → Inert e.filters (sourceOf head)) (depth : Nat) :
    Returns n.source (renderNode (ε := ε) e depth n) := by
  induction h generalizing depth with
  | literal text =>
    rw [renderNode]
    exact returns_pure text
  | @filter head rest source written parts ih =>
    have hinert := hnames head (.here rest source)
    have hparts : ∀ segment ∈ head :: rest, ∀ n ∈ segment,
        Returns n.source (renderNode (ε := ε) e (depth + 1) n) := fun segment hsegment n hn =>
      ih segment hsegment n hn
        (fun inner names => hnames inner (.within source hsegment hn names)) (depth + 1)
    obtain ⟨hhead, hrest⟩ := List.forall_mem_cons.1 hparts
    rw [renderNode]
    split
    · exact returns_pure source
    split
    -- a choice that makes no comparison is copied
    · rename_i hchoice
      obtain ⟨c, hequality, hcondition⟩ :=
        returns_renderCondition hhead (hinert.comparison?_eq_none hchoice)
      refine returns_bind (returns_count _) (returns_bind hcondition ?_)
      rw [hequality]
      exact returns_pure source
    -- another filter is written out again
    · have hsegments :
          Returns (rest.map sourceOf) (renderSegments (ε := ε) e (depth + 1) rest) := by
        rw [renderSegments_eq_mapM]
        exact returns_mapM fun segment hsegment => returns_renderNodes (hrest segment hsegment)
      have hwritten : source = writtenOut ⟨sourceOf head, rest.map sourceOf⟩ := written
      refine returns_bind (returns_renderNodes hhead) (returns_bind hsegments ?_)
      rw [Node.source, hwritten]
      exact returns_evaluateNamed hinert.unknown

/-! ## Escaped texts -/

/-- A text with a backslash in front of each structural character. -/
def escape (text : String) : String :=
  String.ofList (text.toList.flatMap fun c =>
    if c ∈ ['(', ')', '$', '|', '\\'] then ['\\', c] else [c])

/-- An escaped text is cut into plain characters. -/
theorem lexes_escape (cs : List Char) :
    Lexes Refers (cs.flatMap fun c => if c ∈ ['(', ')', '$', '|', '\\'] then ['\\', c] else [c])
      (cs.map fun c => .char c (c ∈ ['(', ')', '$', '|', '\\'])) := by
  induction cs with
  | nil => exact .done
  | cons c cs ih =>
    rw [List.flatMap_cons, List.map_cons]
    by_cases h : c ∈ ['(', ')', '$', '|', '\\']
    · rw [if_pos h, decide_eq_true h]
      exact .escaped h ih
    · rw [if_neg h, decide_eq_false h]
      exact .plain (by simpa [and_comm, and_assoc, and_left_comm] using h) ih

/-- The template of single characters is their text. -/
theorem template_chars (cs : List Char) (escaped : Char → Bool) :
    template (cs.map fun c => .char c (escaped c)) = addText cs [] := by
  induction cs with
  | nil => rw [List.map_nil, template]; rfl
  | cons c cs ih =>
    rw [List.map_cons, template_cons (by simp), ih]
    exact (addText_append [c] cs []).symm

/-- An escaped text is parsed as the text. -/
theorem parse_escape (text : String) : parse (escape text) = addText text.toList [] := by
  rw [parse, ofTokens_eq_template, escape, String.toList_ofList, ← (lexes_escape _).eq_tokens]
  exact template_chars _ _

/-! ## Whole renderings -/

/-- A rendering that gives the text, adds no notice, and changes nothing but the counters: the
notices that were there are handed over with the text. -/
def Recites (e : Engine) (s : Stage ε) (template text : String) : Prop :=
  ∃ metrics, s.play (renderText e template) = (⟨text, s.context.notifications⟩,
    { context := { s.context with notifications := [] }, world := { s.world with metrics } })

/-- A template whose nodes return a text recites it. -/
theorem recites_of_returns {e : Engine} {template text : String}
    (h : Returns text (renderNodes (ε := ε) e 0 (parse template))) (s : Stage ε) :
    Recites e s template text := by
  obtain ⟨metrics, hplay⟩ := h s
  refine ⟨metrics.bump .render, ?_⟩
  rw [play_renderText, hplay]
  rfl

/-- **Templates that render to themselves.** With any engine, however many filters may stand inside
one another, and from any context and shared state:

* A template without a dollar sign and a backslash is rendered to itself, character by character, if
  the text of every name region in it, at any depth, is not the name of a filter, and holds no
  comparison where it starts with `if` and a blank or a quote.
* Any text is what comes out when its parentheses, dollar signs, bars and backslashes have been
  escaped.

In both cases nothing else happens: no notice is added, and the context and the shared state stay as
they are, the counters apart. -/
theorem render_verbatim (e : Engine) (s : Stage ε) :
    (∀ template : String, '$' ∉ template.toList → '\\' ∉ template.toList →
      (∀ n ∈ parse template, ∀ head, n.Names head → Inert e.filters (sourceOf head)) →
        Recites e s template template) ∧
    ∀ text, Recites e s (escape text) text := by
  constructor
  · intro template hdollar hbackslash hnames
    have hbare := (lexes_tokens template.toList).bare hdollar hbackslash
    have hverbatim : ∀ n ∈ parse template, n.Verbatim := by
      rw [parse, ofTokens_eq_template]
      exact verbatim_template hbare
    have hreturns :
        Returns (sourceOf (parse template)) (renderNodes (ε := ε) e 0 (parse template)) :=
      returns_renderNodes fun n hn => (hverbatim n hn).returns (hnames n hn) 0
    rw [sourceOf_parse_of_plain hbackslash] at hreturns
    exact recites_of_returns hreturns s
  · intro text
    have hreturns : Returns text (renderNodes (ε := ε) e 0 (parse (escape text))) := by
      intro s
      refine ⟨s.world.metrics, ?_⟩
      rw [parse_escape, play_renderNodes_addText, play_renderNodes_nil, String.append_empty,
        String.ofList_toList]
    exact recites_of_returns hreturns s

/-! Filters in a name, in an argument and within one that stands too deep, a choice without a
comparison, and a parenthesis that is never closed. -/

namespace Nested

/-- An engine for which no filter may stand in another one. -/
def engine : Engine where
  config := { maxRenderDepth := 1 }

def start : Stage Unit where
  context := { sender := ⟨"1", "alice"⟩, capabilities := .viewer ⟨"1", "alice"⟩ }
  world := { extra := () }

def template : String := "Hi (a (b|(c)) d|(if x|y)) (z"

/-- The nodes of the template in the fixture. -/
theorem parse_template : parse template = [
    .literal "Hi ",
    .filter [
      [.literal "a ", .filter [[.literal "b"], [.filter [[.literal "c"]] "(c)"]] "(b|(c))",
        .literal " d"],
      [.filter [[.literal "if x"], [.literal "y"]] "(if x|y)"]] "(a (b|(c)) d|(if x|y))",
    .literal " (z"] := by
  rfl

/-- No name region in the template of the fixture means anything. -/
theorem inert_of_names {n : Node} (hn : n ∈ parse template) {head : List Node}
    (names : n.Names head) : Inert engine.filters (sourceOf head) := by
  have hall : sourceOf head ∈ ["a (b|(c)) d", "b", "c", "if x"] := by
    simp only [parse_template, List.mem_cons, List.not_mem_nil, or_false] at hn
    rcases hn with rfl | rfl | rfl
    · exact absurd names (Node.not_names_literal _ _)
    · simp only [Node.names_filter_iff, Node.not_names_literal, List.mem_cons, List.not_mem_nil,
        or_false, exists_eq_or_imp, exists_eq_left, false_or] at names
      rcases names with rfl | (rfl | rfl | rfl) | rfl <;> decide
    · exact absurd names (Node.not_names_literal _ _)
  simp only [List.mem_cons, List.not_mem_nil, or_false] at hall
  rcases hall with h | h | h | h
  all_goals
    rw [h]
    exact ⟨rfl, fun _ _ _ _ => by decide⟩

/-- The template is rendered to itself, and its escaped form is, too. -/
theorem recites_template :
    Recites engine start template template ∧
      Recites engine start (escape template) template := by
  obtain ⟨hplain, hescaped⟩ := render_verbatim engine start
  refine ⟨hplain template (by decide) (by decide) ?_, hescaped template⟩
  intro n hn head names
  exact inert_of_names hn names

end Nested

end ChatBot.Template
