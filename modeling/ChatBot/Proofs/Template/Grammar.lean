import ChatBot.Template.Builder

/-!
# The grammar of templates

A recursive parser of token lists. A template is read from left to right; where a parenthesis
opens, the body of the filter is read by recursion up to the parenthesis that closes it (`inside`),
and the template goes on behind that. If nothing closes it, all that is left is plain text.

There is no stack and no text kept for later: a body that never ends is simply not a body. Main
statement: the one pass of `Builder` gives the same nodes (`ofTokens_eq_template`). Its invariant
is about the innermost open region: what is still to come in it extends the segments it has
(`Region.Grows`), and the raw and plain texts grow by what is read.
-/

set_option autoImplicit false

namespace ChatBot.Template

/-! ## The recursive parser -/

/-- Plain text in front of nodes; it is one literal with the plain text that they start with. -/
def addText (text : List Char) (nodes : List Node) : List Node :=
  match text, nodes with
  | [], _ => nodes
  | _, .literal more :: rest => .literal (String.ofList text ++ more) :: rest
  | _, _ => .literal (String.ofList text) :: nodes

/-- A token that is no parenthesis and no bar of a filter, in front of nodes. -/
def addToken (t : Token) (nodes : List Node) : List Node :=
  match t with
  | .reference silent persisted identifier => referenceNode silent persisted identifier :: nodes
  | _ => addText t.plain nodes

/-- Puts something in front of the first segment. -/
def onFirst (f : List Node → List Node) : List (List Node) → List (List Node)
  | [] => []
  | segment :: others => f segment :: others

/-- Two things are put in front of the first segment one after the other. -/
theorem onFirst_onFirst (f g : List Node → List Node) (segments : List (List Node)) :
    onFirst f (onFirst g segments) = onFirst (fun nodes => f (g nodes)) segments := by
  cases segments <;> rfl

/-- Putting nothing in front of the first segment changes nothing. -/
theorem onFirst_id (segments : List (List Node)) :
    onFirst (fun nodes => nodes) segments = segments := by
  cases segments <;> rfl

/-- What is so of all segments stays so when the first one changes in keeping with it. -/
theorem forall_mem_onFirst (P : List Node → Prop) {f : List Node → List Node}
    (hf : ∀ nodes, P nodes → P (f nodes)) {segments : List (List Node)}
    (h : ∀ segment ∈ segments, P segment) : ∀ segment ∈ onFirst f segments, P segment := by
  cases segments with
  | nil => exact h
  | cons segment rest =>
    obtain ⟨hsegment, hrest⟩ := List.forall_mem_cons.1 h
    exact List.forall_mem_cons.2 ⟨hf segment hsegment, hrest⟩

/-- The body of a filter at the start of some tokens. -/
structure Body (ts : List Token) where
  segments : List (List Node)
  used : List Token
  /-- The tokens behind the parenthesis that closes it. -/
  rest : List Token
  /-- All tokens are accounted for. -/
  split : ts = used ++ .closing :: rest

/-- Behind the body of a filter fewer tokens are left. -/
theorem Body.rest_length {ts : List Token} (b : Body ts) : b.rest.length < ts.length := by
  have h := congrArg List.length b.split
  simp only [List.length_append, List.length_cons] at h
  omega

/-- The plain text of some tokens is that of a body, its closing parenthesis and the rest. -/
theorem Body.flatMap_plain {ts : List Token} (b : Body ts) :
    ts.flatMap Token.plain =
      b.used.flatMap Token.plain ++ ')' :: b.rest.flatMap Token.plain := by
  refine (congrArg (List.flatMap Token.plain) b.split).trans ?_
  rw [List.flatMap_append, List.flatMap_cons]
  rfl

/-- The filter that a body makes with its parentheses. -/
def Body.filter {ts : List Token} (b : Body ts) : Node :=
  .filter b.segments (String.ofList ('(' :: (b.used.flatMap Token.raw ++ [')'])))

/-- The body of a filter that has been opened, unless nothing closes it. -/
def inside : (ts : List Token) → Option (Body ts)
  | [] => none
  | .closing :: ts => some ⟨[[]], [], ts, rfl⟩
  | .bar :: ts =>
    (inside ts).map fun b => ⟨[] :: b.segments, .bar :: b.used, b.rest, by simp [← b.split]⟩
  | .opening :: ts =>
    match inside ts with
    | none => none
    | some inner =>
      have := inner.rest_length
      (inside inner.rest).map fun b => {
        segments := onFirst (inner.filter :: ·) b.segments
        used := .opening :: (inner.used ++ .closing :: b.used)
        rest := b.rest
        split := by simp [inner.split, b.split] }
  | t :: ts =>
    (inside ts).map fun b => ⟨onFirst (addToken t) b.segments, t :: b.used, b.rest,
      by simp [← b.split]⟩
termination_by ts => ts.length

/-- The nodes of a template. -/
def template : List Token → List Node
  | [] => []
  | .opening :: ts =>
    match inside ts with
    | some b =>
      have := b.rest_length
      b.filter :: template b.rest
    | none => [.literal (String.ofList ((Token.opening :: ts).flatMap Token.plain))]
  | t :: ts => addToken t (template ts)
termination_by ts => ts.length

/-- A token within a filter that is no parenthesis and no bar. -/
theorem inside_cons {t : Token} (hopening : t ≠ .opening) (hclosing : t ≠ .closing)
    (hbar : t ≠ .bar) (ts : List Token) :
    inside (t :: ts) = (inside ts).map fun b => ⟨onFirst (addToken t) b.segments, t :: b.used,
      b.rest, by simp [← b.split]⟩ := by
  rw [inside]
  · exact hclosing
  · exact hbar
  · exact hopening

/-! ## Plain text -/

/-- No text in front of nodes changes nothing. -/
@[simp] theorem addText_nil (nodes : List Node) : addText [] nodes = nodes := rfl

/-- Plain text in two pieces is plain text in one. -/
theorem addText_append (front back : List Char) (nodes : List Node) :
    addText (front ++ back) nodes = addText front (addText back nodes) := by
  cases front with
  | nil => rfl
  | cons c front =>
    cases back with
    | nil => rw [List.append_nil, addText_nil]
    | cons d back =>
      have h : String.ofList (c :: front ++ d :: back) =
          String.ofList (c :: front) ++ String.ofList (d :: back) := String.ofList_append
      cases nodes with
      | nil => exact congrArg (fun s => [Node.literal s]) h
      | cons n rest =>
        cases n with
        | literal s =>
          change [Node.literal (_ ++ s)] ++ rest = [Node.literal (_ ++ (_ ++ s))] ++ rest
          rw [h, String.append_assoc]
        | reference name silent persisted source =>
          exact congrArg (fun s => Node.literal s :: _) h
        | filter segments source => exact congrArg (fun s => Node.literal s :: _) h

/-- Plain text does not join with a reference or a filter. -/
theorem addText_cons {n : Node} (h : n.isLiteral = false) (text : List Char) (rest : List Node) :
    addText text (n :: rest) = addText text [] ++ n :: rest := by
  cases text with
  | nil => rfl
  | cons c text =>
    cases n with
    | literal s => cases h
    | reference name silent persisted source => rfl
    | filter segments source => rfl

/-! ## What a region is, given what is still to come in it -/

namespace Region

/-- The current segment, given the nodes that are still to come in it. -/
def before (r : Region) (nodes : List Node) : List Node :=
  r.nodes.reverse ++ addText r.literal.reverse nodes

/-- Reads a token that is no parenthesis and no bar of a filter. -/
def withToken (r : Region) (t : Token) : Region :=
  match t with
  | .reference silent persisted identifier =>
    (r.addNode (referenceNode silent persisted identifier)).note t
  | _ => r.addPlain t

/-- A region grows into another by segments that are still to come, and by the tokens that these
are read from. -/
structure Grows (r r' : Region) (segments : List (List Node)) (used : List Token) : Prop where
  segments : r'.allSegments = r.segments.reverse ++ onFirst r.before segments
  raw : r'.raw = (used.flatMap Token.raw).reverse ++ r.raw
  plain : r'.plain = (used.flatMap Token.plain).reverse ++ r.plain

/-- Once the literal has been made a node, the nodes are those of the current segment. -/
theorem flush_nodes (r : Region) : r.flush.nodes.reverse = r.before [] := by
  unfold flush before
  cases h : r.literal with
  | nil => simp
  | cons c cs =>
    obtain ⟨d, ds, hd⟩ := List.exists_cons_of_ne_nil (l := (c :: cs).reverse) (by simp)
    simp [hd, addText]

/-- Once the literal has been made a node, it is empty. -/
theorem flush_literal (r : Region) : r.flush.literal = [] := by
  unfold flush
  split
  · rename_i h
    simpa using h
  · rfl

/-- Making the literal a node leaves the segments. -/
theorem flush_segments (r : Region) : r.flush.segments = r.segments := by
  unfold flush
  split <;> rfl

/-- Making the literal a node leaves the text that was read. -/
theorem flush_raw (r : Region) : r.flush.raw = r.raw := by
  unfold flush
  split <;> rfl

/-- Making the literal a node leaves the plain text. -/
theorem flush_plain (r : Region) : r.flush.plain = r.plain := by
  unfold flush
  split <;> rfl

/-- A node leaves the segments before its own. -/
@[simp] theorem addNode_segments (r : Region) (n : Node) :
    (r.addNode n).segments = r.segments := r.flush_segments

/-- A node leaves the text that was read. -/
@[simp] theorem addNode_raw (r : Region) (n : Node) : (r.addNode n).raw = r.raw := r.flush_raw

/-- A node leaves the plain text. -/
@[simp] theorem addNode_plain (r : Region) (n : Node) : (r.addNode n).plain = r.plain :=
  r.flush_plain

/-- A node stands in front of those that are still to come. -/
theorem before_addNode (r : Region) {n : Node} (h : n.isLiteral = false) (nodes : List Node) :
    (r.addNode n).before nodes = r.before (n :: nodes) := by
  unfold addNode before
  rw [flush_literal, List.reverse_cons, flush_nodes, before, addText_cons h]
  simp

/-- Noting a token leaves the current segment. -/
theorem before_note (r : Region) (t : Token) (nodes : List Node) :
    (r.note t).before nodes = r.before nodes := rfl

/-- Reading a token puts it in front of what is still to come. -/
theorem before_withToken (r : Region) (t : Token) (nodes : List Node) :
    (r.withToken t).before nodes = r.before (addToken t nodes) := by
  have plain : (r.addPlain t).before nodes = r.before (addText t.plain nodes) := by
    unfold addPlain before
    simp only [note, List.reverse_append, List.reverse_reverse, addText_append]
  cases t with
  | reference silent persisted identifier =>
    exact (before_note _ _ _).trans (before_addNode _ rfl _)
  | char c escaped => exact plain
  | opening => exact plain
  | closing => exact plain
  | bar => exact plain

/-- A token of plain text leaves the segments before its own. -/
theorem withToken_segments (r : Region) (t : Token) : (r.withToken t).segments = r.segments := by
  cases t with
  | reference silent persisted identifier =>
    exact r.addNode_segments (referenceNode silent persisted identifier)
  | _ => rfl

/-- A token adds its text to what was read. -/
theorem withToken_raw (r : Region) (t : Token) : (r.withToken t).raw = t.raw.reverse ++ r.raw := by
  cases t with
  | reference silent persisted identifier => exact congrArg (_ ++ ·) (r.addNode_raw _)
  | _ => rfl

/-- A token adds its plain text to that of the region. -/
theorem withToken_plain (r : Region) (t : Token) :
    (r.withToken t).plain = t.plain.reverse ++ r.plain := by
  cases t with
  | reference silent persisted identifier => exact congrArg (_ ++ ·) (r.addNode_plain _)
  | _ => rfl

/-- The segments of a region are the finished ones and the current one. -/
theorem allSegments_eq (r : Region) : r.allSegments = r.segments.reverse ++ [r.before []] := by
  unfold allSegments
  dsimp only
  rw [List.reverse_cons, flush_nodes, flush_segments]

/-! ## How regions grow -/

section Grows

variable {r r' q : Region} {segments : List (List Node)} {used : List Token}

/-- A region that is closed has all its segments. -/
theorem Grows.closing (r : Region) : r.Grows r [[]] [] :=
  ⟨r.allSegments_eq, rfl, rfl⟩

/-- A bar ends a segment. -/
theorem Grows.bar (h : (r.nextSegment.note .bar).Grows r' segments used) :
    r.Grows r' ([] :: segments) (.bar :: used) := by
  have hbefore : (r.nextSegment.note .bar).before = fun nodes => nodes := by
    funext nodes
    rw [before_note]
    unfold nextSegment before
    rw [flush_literal]
    rfl
  have hsegments : (r.nextSegment.note .bar).segments = r.before [] :: r.segments := by
    change r.flush.nodes.reverse :: r.flush.segments = _
    rw [flush_nodes, flush_segments]
  refine ⟨?_, ?_, ?_⟩
  · rw [h.segments, hbefore, onFirst_id, hsegments]
    simp [onFirst]
  · rw [h.raw, List.flatMap_cons, List.reverse_append, List.append_assoc]
    exact congrArg (fun cs => _ ++ ('|' :: cs)) r.flush_raw
  · rw [h.plain, List.flatMap_cons, List.reverse_append, List.append_assoc]
    exact congrArg (fun cs => _ ++ ('|' :: cs)) r.flush_plain

/-- A reference or plain text goes to the current segment. -/
theorem Grows.token {t : Token} (h : (r.withToken t).Grows r' segments used) :
    r.Grows r' (onFirst (addToken t) segments) (t :: used) := by
  have hbefore : (r.withToken t).before = fun nodes => r.before (addToken t nodes) :=
    funext (r.before_withToken t)
  refine ⟨?_, ?_, ?_⟩
  · rw [h.segments, hbefore, withToken_segments, onFirst_onFirst]
  · rw [h.raw, withToken_raw, List.flatMap_cons, List.reverse_append, List.append_assoc]
  · rw [h.plain, withToken_plain, List.flatMap_cons, List.reverse_append, List.append_assoc]

/-- A region that grew from an opened one is the filter of its body. -/
theorem Grows.toFilter {ts : List Token} {b : Body ts} (h : opened.Grows q b.segments b.used) :
    q.toFilter = b.filter := by
  have hsegments : q.allSegments = b.segments := by
    rw [h.segments]
    exact onFirst_id b.segments
  have hraw : (q.note .closing).raw.reverse = '(' :: (b.used.flatMap Token.raw ++ [')']) := by
    unfold note
    rw [h.raw]
    simp [opened, note, Token.raw]
  unfold Region.toFilter Body.filter
  rw [hsegments, hraw]

/-- A closed filter goes to the current segment of the region around it. -/
theorem before_addClosed {ts : List Token} {b : Body ts} (h : opened.Grows q b.segments b.used)
    (r : Region) (nodes : List Node) :
    (r.addClosed q).before nodes = r.before (b.filter :: nodes) := by
  rw [← h.toFilter]
  exact r.before_addNode rfl nodes

/-- A closed region adds its text, in parentheses, to that of the region around it. -/
theorem addClosed_raw {ts : List Token} {b : Body ts} (h : opened.Grows q b.segments b.used)
    (r : Region) :
    (r.addClosed q).raw = ')' :: ((b.used.flatMap Token.raw).reverse ++ '(' :: r.raw) := by
  unfold addClosed note
  rw [h.raw]
  simp [opened, note, Token.raw]

/-- A closed region adds its plain text, in parentheses, to that of the region around it. -/
theorem addClosed_plain {ts : List Token} {b : Body ts} (h : opened.Grows q b.segments b.used)
    (r : Region) :
    (r.addClosed q).plain = ')' :: ((b.used.flatMap Token.plain).reverse ++ '(' :: r.plain) := by
  unfold addClosed note
  rw [h.plain]
  simp [opened, note, Token.plain, Token.raw]

/-- A region grows by a filter, and then by what comes behind it. -/
theorem Grows.filter {ts : List Token} {b : Body ts} (inner : opened.Grows q b.segments b.used)
    (h : (r.addClosed q).Grows r' segments used) :
    r.Grows r' (onFirst (b.filter :: ·) segments) (.opening :: (b.used ++ .closing :: used)) := by
  have hbefore : (r.addClosed q).before = fun nodes => r.before (b.filter :: nodes) :=
    funext (before_addClosed inner r)
  refine ⟨?_, ?_, ?_⟩
  · rw [h.segments, hbefore, onFirst_onFirst]
    exact congrArg (fun front => List.reverse front ++ _) (r.addNode_segments q.toFilter)
  · rw [h.raw, addClosed_raw inner]
    simp [Token.raw]
  · rw [h.plain, addClosed_plain inner]
    simp [Token.plain, Token.raw]

end Grows

end Region

/-! ## The one pass -/

/-- The plain text of the regions that are open, last character first. -/
def openText (stack : List Region) : List Char :=
  stack.foldr (fun r text => r.plain ++ text) []

/-- The plain text of open regions, the innermost first. -/
theorem openText_cons (r : Region) (stack : List Region) :
    openText (r :: stack) = r.plain ++ openText stack := rfl

namespace Builder

/-- Inside a filter, a token of plain text is added to the innermost region. -/
theorem step_withToken {t : Token} (hopening : t ≠ .opening) (hclosing : t ≠ .closing)
    (hbar : t ≠ .bar) (root r : Region) (below : List Region) :
    step ⟨root, r :: below⟩ t = ⟨root, r.withToken t :: below⟩ := by
  cases t with
  | opening => exact absurd rfl hopening
  | closing => exact absurd rfl hclosing
  | bar => exact absurd rfl hbar
  | char c escaped => rfl
  | reference silent persisted identifier => rfl

/-- Outside all filters, every token but an opening parenthesis is plain text. -/
theorem step_root {t : Token} (hopening : t ≠ .opening) (root : Region) :
    step ⟨root, []⟩ t = ⟨root.withToken t, []⟩ := by
  cases t with
  | opening => exact absurd rfl hopening
  | closing => rfl
  | bar => rfl
  | char c escaped => rfl
  | reference silent persisted identifier => rfl

/-- The pass over the body of an open filter: the filter grows by the body, and is then closed. -/
theorem foldl_of_inside {ts : List Token} {b : Body ts} (h : inside ts = some b) (root r : Region)
    (below : List Region) :
    ∃ r', r.Grows r' b.segments b.used ∧ ts.foldl step ⟨root, r :: below⟩ =
      b.rest.foldl step ((⟨root, below⟩ : Builder).onTop fun around => around.addClosed r') := by
  induction ts using inside.induct generalizing r below with
  | case1 => simp [inside] at h
  | case2 ts =>
    rw [inside] at h
    cases h
    exact ⟨r, .closing r, rfl⟩
  | case3 ts ih =>
    rw [inside, Option.map_eq_some_iff] at h
    obtain ⟨c, hc, rfl⟩ := h
    obtain ⟨r', grows, hfold⟩ := ih hc (r.nextSegment.note .bar) below
    exact ⟨r', grows.bar, hfold⟩
  | case4 ts hnone ih =>
    rw [inside, hnone] at h
    cases h
  | case5 ts inner hinner hlength ih ih' =>
    rw [inside, hinner] at h
    obtain ⟨c, hc, rfl⟩ := Option.map_eq_some_iff.1 h
    obtain ⟨q, grows, hfold⟩ := ih hinner .opened (r :: below)
    obtain ⟨r', grows', hfold'⟩ := ih' hc (r.addClosed q) below
    exact ⟨r', .filter grows grows', hfold.trans hfold'⟩
  | case6 t ts hclosing hbar hopening ih =>
    rw [inside_cons hopening hclosing hbar, Option.map_eq_some_iff] at h
    obtain ⟨c, hc, rfl⟩ := h
    obtain ⟨r', grows, hfold⟩ := ih hc (r.withToken t) below
    rw [List.foldl_cons, step_withToken hopening hclosing hbar]
    exact ⟨r', grows.token, hfold⟩

/-- The pass over tokens that do not close the innermost filter: whatever it builds stays open, and
what is open is their plain text. -/
theorem foldl_of_inside_none {ts : List Token} (h : inside ts = none) (root r : Region)
    (below : List Region) :
    ∃ stack, ts.foldl step ⟨root, r :: below⟩ = ⟨root, stack⟩ ∧
      openText stack = (ts.flatMap Token.plain).reverse ++ openText (r :: below) := by
  induction ts using inside.induct generalizing r below with
  | case1 => exact ⟨r :: below, rfl, rfl⟩
  | case2 ts =>
    rw [inside] at h
    cases h
  | case3 ts ih =>
    rw [inside, Option.map_eq_none_iff] at h
    obtain ⟨stack, hfold, htext⟩ := ih h (r.nextSegment.note .bar) below
    refine ⟨stack, hfold, ?_⟩
    rw [htext, List.flatMap_cons, List.reverse_append, List.append_assoc, openText_cons,
      openText_cons, ← r.flush_plain]
    rfl
  | case4 ts hnone ih =>
    -- nothing closes the parenthesis that opens here, so it stays open above the others
    obtain ⟨stack, hfold, htext⟩ := ih hnone .opened (r :: below)
    refine ⟨stack, hfold, ?_⟩
    rw [htext, List.flatMap_cons, List.reverse_append, List.append_assoc]
    rfl
  | case5 ts inner hinner hlength ih ih' =>
    rw [inside, hinner] at h
    obtain ⟨q, grows, hfold⟩ := foldl_of_inside hinner root .opened (r :: below)
    obtain ⟨stack, hfold', htext⟩ := ih' (Option.map_eq_none_iff.1 h) (r.addClosed q) below
    refine ⟨stack, hfold.trans hfold', ?_⟩
    rw [htext, openText_cons, openText_cons, Region.addClosed_plain grows, List.flatMap_cons,
      inner.flatMap_plain]
    simp [Token.plain, Token.raw]
  | case6 t ts hclosing hbar hopening ih =>
    rw [inside_cons hopening hclosing hbar, Option.map_eq_none_iff] at h
    obtain ⟨stack, hfold, htext⟩ := ih h (r.withToken t) below
    rw [List.foldl_cons, step_withToken hopening hclosing hbar]
    refine ⟨stack, hfold, ?_⟩
    rw [htext, List.flatMap_cons, List.reverse_append, List.append_assoc, openText_cons,
      openText_cons, Region.withToken_plain, List.append_assoc]

/-- At the end, regions that are still open are plain text behind the nodes. -/
theorem finish_eq (root : Region) (stack : List Region) :
    finish ⟨root, stack⟩ = root.before (addText (openText stack).reverse []) := by
  unfold finish
  dsimp only
  rw [Region.flush_nodes]
  unfold Region.before
  rw [← addText_append, ← List.reverse_append]
  rfl

/-- The pass over tokens outside all filters: the nodes that are there, and those that the recursive
parser gives. -/
theorem finish_foldl (ts : List Token) (root : Region) :
    (ts.foldl step ⟨root, []⟩).finish = root.before (template ts) := by
  induction ts using template.induct generalizing root with
  | case1 => rw [template, List.foldl_nil, finish_eq]; rfl
  | case2 ts b hb hlength ih =>
    obtain ⟨r', grows, hfold⟩ := foldl_of_inside hb root .opened []
    rw [template, hb]
    dsimp only
    rw [← Region.before_addClosed grows, ← ih]
    exact congrArg finish hfold
  | case3 ts hnone =>
    obtain ⟨stack, hfold, htext⟩ := foldl_of_inside_none hnone root .opened []
    rw [template, hnone]
    dsimp only
    have h : (openText stack).reverse = (Token.opening :: ts).flatMap Token.plain := by
      rw [htext, List.flatMap_cons, List.reverse_append, List.reverse_reverse]
      rfl
    calc ((Token.opening :: ts).foldl step ⟨root, []⟩).finish
        = finish ⟨root, stack⟩ := congrArg finish hfold
      _ = root.before (addText ((Token.opening :: ts).flatMap Token.plain) []) := by
        rw [finish_eq, h]
  | case4 t ts hopening ih =>
    rw [List.foldl_cons, step_root hopening, ih, Region.before_withToken, template]
    exact hopening

end Builder

/-- **The one pass follows the grammar.** It gives the nodes that the recursive parser gives. -/
theorem ofTokens_eq_template (ts : List Token) : ofTokens ts = template ts := by
  rw [ofTokens, Builder.finish_foldl]
  rfl

end ChatBot.Template
