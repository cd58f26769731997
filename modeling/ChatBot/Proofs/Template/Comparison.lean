import ChatBot.Proofs.Template.Choice
import ChatBot.Proofs.Text.Trimming
import ChatBot.Template.Builder

/-!
# The comparison of a choice

Users of a chat may supply much of what stands in a condition once it is rendered. None of that has
a part in finding the comparison. A condition is *cut* at a sign of comparison that stands in one
piece of its literal text, where no quote is open that an earlier character of literal text has
opened (`Cut.Cuts`); the comparison is made at the first such place (`Cut.First`), which is found
before anything is rendered (`firstCut`). Main statement: a choice renders the nodes left of its
first cut, then those right of it, and then the branch that the two texts call for
(`renderNode_choice`).
-/

set_option autoImplicit false

namespace ChatBot.Template

variable {ε : Type}

/-! ## Signs outside quotes -/

/-- The quote that is open behind a character, where `quote` is the one that is open before it. -/
def quoteAfter (quote : Option Char) (c : Char) : Option Char :=
  match quote with
  | some q => if c = q then none else some q
  | none => if isQuote c then some c else none

/-- The quote that is open behind a text. -/
def openQuote (quote : Option Char) (cs : List Char) : Option Char :=
  cs.foldl quoteAfter quote

/-- The sign of a comparison. -/
def sign (equality : Bool) : List Char :=
  if equality then ['=', '='] else ['!', '=']

/-- A sign stands in a text, with `before` in front of it and `after` behind it, and it stands
outside quotes. -/
structure SignAt (quote : Option Char) (cs before : List Char) (equality : Bool)
    (after : List Char) : Prop where
  eq : cs = before ++ sign equality ++ after
  unquoted : openQuote quote before = none

/-- A sign behind at least one character stands in the text behind that one. -/
theorem signAt_cons_cons {quote : Option Char} {c d : Char} {cs before after : List Char}
    {equality : Bool} : SignAt quote (c :: cs) (d :: before) equality after ↔
      d = c ∧ SignAt (quoteAfter quote c) cs before equality after := by
  constructor
  · rintro ⟨heq, hunquoted⟩
    obtain ⟨rfl, rfl⟩ := List.cons.inj heq
    exact ⟨rfl, rfl, hunquoted⟩
  · rintro ⟨rfl, rfl, hunquoted⟩
    exact ⟨rfl, hunquoted⟩

/-- A finding is right: a sign that is found is the first one outside quotes, and if none is found
then there is none. -/
def Scan.Right (quote : Option Char) (cs : List Char) : Scan → Prop
  | found before equality after => SignAt quote cs before equality after ∧
      ∀ before' equality' after', SignAt quote cs before' equality' after' →
        before.length ≤ before'.length
  | missing last => (∀ before equality after, ¬ SignAt quote cs before equality after) ∧
      last = openQuote quote cs

/-- If no sign starts with the character in front, what is right behind it is right with it. -/
theorem Scan.Right.cons {quote inner : Option Char} {c : Char} {cs : List Char} {found : Scan}
    (h : found.Right inner cs) (hinner : quoteAfter quote c = inner)
    (hnot : ∀ equality after, ¬ SignAt quote (c :: cs) [] equality after) :
    (found.cons c).Right quote (c :: cs) := by
  subst hinner
  cases found with
  | found before equality after =>
    obtain ⟨hsign, hfirst⟩ := h
    refine ⟨signAt_cons_cons.2 ⟨rfl, hsign⟩, fun before' equality' after' hsign' => ?_⟩
    cases before' with
    | nil => exact absurd hsign' (hnot equality' after')
    | cons d before' =>
      exact Nat.succ_le_succ (hfirst _ _ _ (signAt_cons_cons.1 hsign').2)
  | missing last =>
    obtain ⟨hnone, hlast⟩ := h
    refine ⟨fun before equality after hsign => ?_, hlast⟩
    cases before with
    | nil => exact hnot equality after hsign
    | cons d before => exact hnone _ _ _ (signAt_cons_cons.1 hsign).2

/-- Looking for a comparison finds the first sign that stands outside quotes. -/
theorem right_scan (quote : Option Char) (cs : List Char) :
    (scan quote cs).Right quote cs := by
  induction quote, cs using scan.induct with
  | case1 quote =>
    refine ⟨fun before equality after hsign => ?_, rfl⟩
    have heq := hsign.eq
    cases equality <;> simp [sign] at heq
  -- within quotes no sign starts
  | case2 c cs q ih =>
    rw [scan]
    refine ih.cons rfl fun equality after hsign => ?_
    cases hsign.unquoted
  -- nor does one start with a quote
  | case3 c cs hquote ih =>
    rw [scan.eq_def]
    dsimp only
    rw [if_pos hquote]
    refine ih.cons (if_pos hquote) fun equality after hsign => ?_
    have heq := hsign.eq
    cases equality <;> cases heq <;> exact absurd hquote (by decide)
  | case4 rest hquote =>
    rw [scan, if_neg hquote, if_pos rfl]
    exact ⟨⟨rfl, rfl⟩, fun _ _ _ _ => Nat.zero_le _⟩
  | case5 rest hquote hne =>
    rw [scan, if_neg hquote, if_neg hne, if_pos rfl]
    exact ⟨⟨rfl, rfl⟩, fun _ _ _ _ => Nat.zero_le _⟩
  | case6 c hquote rest hequal hbang ih =>
    rw [scan, if_neg hquote, if_neg hequal, if_neg hbang]
    refine ih.cons (if_neg hquote) fun equality after hsign => ?_
    have heq := hsign.eq
    cases equality <;> cases heq
    · exact hbang rfl
    · exact hequal rfl
  | case7 c cs hquote hne ih =>
    rw [scan, if_neg hquote]
    · refine ih.cons (if_neg hquote) fun equality after hsign => ?_
      have heq := hsign.eq
      cases equality <;> cases heq <;> exact hne _ rfl
    · exact hne

/-! ## Cuts of a condition -/

/-- The literal text that a node is. -/
def Node.literalText : Node → List Char
  | .literal text => text.toList
  | .reference _ _ _ _ => []
  | .filter _ _ => []

/-- A sign in a piece of literal text among nodes, with all that stands left and right of it. -/
structure Cut where
  /-- The nodes before the one that is cut. -/
  front : List Node
  /-- The literal text left of the sign. -/
  before : List Char
  /-- Whether the sign is one of equality. -/
  equality : Bool
  /-- The literal text right of the sign. -/
  after : List Char
  /-- The nodes behind the one that is cut. -/
  back : List Node

namespace Cut

/-- The nodes left of the sign. -/
def left (k : Cut) : List Node :=
  k.front ++ [.literal (String.ofList k.before)]

/-- The nodes right of the sign. -/
def right (k : Cut) : List Node :=
  .literal (String.ofList k.after) :: k.back

/-- The cut with one more node in front. -/
def behind (n : Node) (k : Cut) : Cut :=
  { k with front := n :: k.front }

/-- The nodes can be cut there: they have the sign at that place, and of the quotes in the literal
text before it none is open. -/
structure Cuts (quote : Option Char) (nodes : List Node) (k : Cut) : Prop where
  eq : nodes =
    k.front ++ .literal (String.ofList (k.before ++ sign k.equality ++ k.after)) :: k.back
  unquoted : openQuote quote (k.front.flatMap Node.literalText ++ k.before) = none

/-- It is the leftmost of all places at which the nodes can be cut. -/
structure First (quote : Option Char) (nodes : List Node) (k : Cut) : Prop
    extends Cuts quote nodes k where
  first : ∀ other : Cut, other.Cuts quote nodes → k.front.length < other.front.length ∨
    k.front.length = other.front.length ∧ k.before.length ≤ other.before.length

variable {quote : Option Char} {nodes rest : List Node} {n : Node} {k other : Cut}

/-- No two places are the leftmost one. -/
theorem First.unique (h : k.First quote nodes) (hother : other.First quote nodes) : k = other := by
  -- each of them is at most as far to the right as the other one
  have hlength : k.front.length = other.front.length ∧ k.before.length = other.before.length := by
    have hle := h.first other hother.toCuts
    have hge := hother.first k h.toCuts
    omega
  obtain ⟨hfront, hliteral, hback⟩ := (List.append_inj (h.eq.symm.trans hother.eq) hlength.1).imp id
    List.cons.inj
  have htext := String.ofList_injective (Node.literal.inj hliteral)
  rw [List.append_assoc, List.append_assoc] at htext
  obtain ⟨hbefore, hsign⟩ := List.append_inj htext hlength.2
  obtain ⟨front, before, equality, after, back⟩ := k
  obtain ⟨front', before', equality', after', back'⟩ := other
  dsimp only at hfront hback hbefore hsign
  cases equality <;> cases equality' <;> cases hsign <;> simp [*]

/-- The nodes can be cut in the first one if that is literal text with the sign, and otherwise
behind it. -/
theorem cuts_cons_iff : k.Cuts quote (n :: rest) ↔
    (∃ text before equality after, n = .literal text ∧
      SignAt quote text.toList before equality after ∧ k = ⟨[], before, equality, after, rest⟩) ∨
    ∃ inner : Cut, k = inner.behind n ∧ inner.Cuts (openQuote quote n.literalText) rest := by
  constructor
  · rintro ⟨heq, hunquoted⟩
    obtain ⟨front, before, equality, after, back⟩ := k
    cases front with
    | nil =>
      obtain ⟨rfl, rfl⟩ := List.cons.inj heq
      exact .inl ⟨_, before, equality, after, rfl, ⟨String.toList_ofList, hunquoted⟩, rfl⟩
    | cons m front =>
      obtain ⟨rfl, rfl⟩ := List.cons.inj heq
      refine .inr ⟨⟨front, before, equality, after, back⟩, rfl, rfl, ?_⟩
      rwa [List.flatMap_cons, List.append_assoc, openQuote, List.foldl_append] at hunquoted
  · rintro (⟨text, before, equality, after, rfl, hsign, rfl⟩ | ⟨inner, rfl, heq, hunquoted⟩)
    · refine ⟨?_, hsign.unquoted⟩
      rw [← hsign.eq, String.ofList_toList]
      rfl
    · refine ⟨congrArg (n :: ·) heq, ?_⟩
      change openQuote quote ((n :: inner.front).flatMap Node.literalText ++ inner.before) = none
      rwa [List.flatMap_cons, List.append_assoc, openQuote, List.foldl_append]

/-- Behind a node in which the nodes cannot be cut, the first cut stays the first one. -/
theorem First.behind (h : k.First (openQuote quote n.literalText) rest)
    (hnot : ∀ text before equality after, n = .literal text →
      ¬ SignAt quote text.toList before equality after) :
    (k.behind n).First quote (n :: rest) := by
  refine ⟨cuts_cons_iff.2 (.inr ⟨k, rfl, h.toCuts⟩), fun other hother => ?_⟩
  rcases cuts_cons_iff.1 hother with ⟨text, before, equality, after, hn, hsign, -⟩ |
    ⟨inner, rfl, hinner⟩
  · exact absurd hsign (hnot text before equality after hn)
  · exact (h.first inner hinner).imp Nat.succ_lt_succ (And.imp_left (congrArg Nat.succ))

end Cut

/-- Looks for the first place at which nodes can be cut. -/
def firstCut (quote : Option Char) : List Node → Option Cut
  | [] => none
  | .literal text :: rest =>
    match scan quote text.toList with
    | .found before equality after => some ⟨[], before, equality, after, rest⟩
    | .missing last => (firstCut last rest).map (Cut.behind (.literal text))
  | .reference name silent persisted source :: rest =>
    (firstCut quote rest).map (Cut.behind (.reference name silent persisted source))
  | .filter segments source :: rest =>
    (firstCut quote rest).map (Cut.behind (.filter segments source))

/-- What is found is the first cut, and if nothing is found then there is no cut. -/
def Cut.Right (quote : Option Char) (nodes : List Node) : Option Cut → Prop
  | some k => k.First quote nodes
  | none => ∀ k : Cut, ¬ k.Cuts quote nodes

/-- A finding among the later nodes is one among all if the first node has no sign. -/
theorem Cut.Right.behind {quote : Option Char} {n : Node} {rest : List Node} {found : Option Cut}
    (h : Cut.Right (openQuote quote n.literalText) rest found)
    (hnot : ∀ text before equality after, n = .literal text →
      ¬ SignAt quote text.toList before equality after) :
    Cut.Right quote (n :: rest) (found.map (Cut.behind n)) := by
  cases found with
  | some k => exact First.behind h hnot
  | none =>
    intro k hk
    rcases cuts_cons_iff.1 hk with ⟨text, before, equality, after, hn, hsign, -⟩ |
      ⟨inner, -, hinner⟩
    · exact hnot text before equality after hn hsign
    · exact h inner hinner

/-- The search for a cut finds the first one, by induction on the nodes. -/
theorem right_firstCut (quote : Option Char) (nodes : List Node) :
    Cut.Right quote nodes (firstCut quote nodes) := by
  induction nodes generalizing quote with
  | nil =>
    intro k hk
    simpa using hk.eq
  | cons n rest ih =>
    cases n with
    | reference | filter => exact Cut.Right.behind (ih _) nofun
    | literal text =>
      rw [firstCut]
      have hscan := right_scan quote text.toList
      cases h : scan quote text.toList with
      | missing last =>
        obtain ⟨hnone, rfl⟩ := h ▸ hscan
        refine Cut.Right.behind (ih _) ?_
        rintro _ before equality after ⟨⟩
        exact hnone before equality after
      | found before equality after =>
        obtain ⟨hsign, hfirst⟩ := h ▸ hscan
        refine ⟨Cut.cuts_cons_iff.2 (.inl ⟨text, before, equality, after, rfl, hsign, rfl⟩), ?_⟩
        intro other hother
        rcases Cut.cuts_cons_iff.1 hother with ⟨_, before', equality', after', ⟨⟩, hsign', rfl⟩ |
          ⟨inner, rfl, -⟩
        · exact .inr ⟨rfl, hfirst _ _ _ hsign'⟩
        · exact .inl (Nat.succ_pos _)

/-- What the search finds is the first cut. -/
theorem firstCut_eq_some_iff {quote : Option Char} {nodes : List Node} {k : Cut} :
    firstCut quote nodes = some k ↔ k.First quote nodes := by
  have hright := right_firstCut quote nodes
  constructor
  · intro h
    rwa [h] at hright
  · intro hk
    cases h : firstCut quote nodes with
    | none =>
      rw [h] at hright
      exact absurd hk.toCuts (hright k)
    | some first =>
      rw [h] at hright
      exact congrArg some (hright.unique hk)

/-- The search finds nothing just if there is no cut. -/
theorem firstCut_eq_none_iff {quote : Option Char} {nodes : List Node} :
    firstCut quote nodes = none ↔ ∀ k : Cut, ¬ k.Cuts quote nodes := by
  have hright := right_firstCut quote nodes
  constructor
  · intro h
    rwa [h] at hright
  · intro hnone
    cases h : firstCut quote nodes with
    | none => rfl
    | some first =>
      rw [h] at hright
      exact absurd hright.toCuts (hnone first)

/-! ## Rendering a condition -/

/-- Literal text comes in front of what the other nodes render to. -/
theorem renderNodes_literal (e : Engine) (depth : Nat) (text : String) (rest : List Node) :
    renderNodes (ε := ε) e depth (.literal text :: rest) = do
      let more ← renderNodes e depth rest
      return text ++ more := by
  rw [renderNodes, renderNode, pure_bind]

/-- A node that is no literal text is rendered, and nothing is looked for in its text. -/
theorem renderCondition_cons (e : Engine) (depth : Nat) (c : Condition) {n : Node}
    (hn : ∀ text : String, n ≠ .literal text) (rest : List Node) :
    renderCondition (ε := ε) e depth false c (n :: rest) = (do
      let text ← renderNode e depth n
      renderCondition e depth false (c.addText text) rest) := by
  rw [renderCondition]
  exact hn

/-- Behind the comparison nothing is looked for. -/
theorem renderCondition_of_some (e : Engine) (depth : Nat) {c : Condition} {equality : Bool}
    (h : c.equality = some equality) (nodes : List Node) :
    renderCondition (ε := ε) e depth false c nodes = do
      let text ← renderNodes e depth nodes
      return { c with right := c.right ++ text } := by
  induction nodes generalizing c with
  | nil => simp only [renderCondition, renderNodes, pure_bind, String.append_empty]
  | cons n rest ih =>
    have hadd : ∀ text, c.addText text = { c with right := c.right ++ text } := by
      simp [Condition.addText, h]
    have hrest : ∀ text, renderCondition (ε := ε) e depth false (c.addText text) rest = do
        let more ← renderNodes e depth rest
        return { c with right := c.right ++ (text ++ more) } := by
      intro text
      rw [ih (by simpa using h), hadd]
      simp only [String.append_assoc]
    cases n with
    | literal text =>
      have hliteral : c.addLiteral text.toList = c.addText text := by
        simp [Condition.addLiteral, h]
      rw [renderCondition, conditionText, if_neg Bool.false_ne_true, hliteral, hrest,
        renderNodes_literal]
      simp only [bind_assoc, pure_bind]
    | reference | filter =>
      rw [renderCondition_cons _ _ _ (by simp), renderNodes]
      simp only [hrest, bind_assoc, pure_bind]

/-- Renders what stands left of a cut, if there is one, and then what stands right of it. -/
def renderSides (e : Engine) (depth : Nat) (c : Condition) (nodes : List Node) :
    Option Cut → Render ε Condition
  | some k => do
    let left ← renderNodes e depth k.left
    let right ← renderNodes e depth k.right
    return { left := c.left ++ left, right, equality := some k.equality, quote := none }
  | none => do
    let left ← renderNodes e depth nodes
    return { c with
      left := c.left ++ left, quote := openQuote c.quote (nodes.flatMap Node.literalText) }

/-- A node in front of a cut is rendered on the left, and only its literal text opens quotes. -/
theorem renderSides_behind (e : Engine) (depth : Nat) (c : Condition) (n : Node) (rest : List Node)
    (found : Option Cut) :
    renderSides (ε := ε) e depth c (n :: rest) (found.map (Cut.behind n)) = (do
      let text ← renderNode e depth n
      renderSides e depth { c with
        left := c.left ++ text, quote := openQuote c.quote n.literalText } rest found) := by
  cases found with
  | some k =>
    simp only [Option.map_some, renderSides, Cut.left, Cut.right, Cut.behind, List.cons_append,
      renderNodes, bind_assoc, pure_bind, String.append_assoc]
  | none =>
    simp only [Option.map_none, renderSides, renderNodes, bind_assoc, pure_bind,
      String.append_assoc, List.flatMap_cons, openQuote, List.foldl_append]

/-- The nodes of a condition are rendered one after the other, and the comparison is found at the
first cut. -/
theorem renderCondition_eq_renderSides (e : Engine) (depth : Nat) {c : Condition}
    (h : c.equality = none) (nodes : List Node) :
    renderCondition (ε := ε) e depth false c nodes =
      renderSides e depth c nodes (firstCut c.quote nodes) := by
  induction nodes generalizing c with
  | nil =>
    simp only [renderCondition, firstCut, renderSides, renderNodes, pure_bind, String.append_empty]
    rfl
  | cons n rest ih =>
    have hread : ∀ left quote,
        renderCondition (ε := ε) e depth false { c with left, quote } rest =
          renderSides e depth { c with left, quote } rest (firstCut quote rest) :=
      fun left quote => ih h
    cases n with
    | literal text =>
      rw [renderCondition, conditionText, if_neg Bool.false_ne_true, firstCut]
      have hscan := right_scan c.quote text.toList
      cases hfound : scan c.quote text.toList with
      | found before equality after =>
        have hliteral : c.addLiteral text.toList = {
            left := c.left ++ String.ofList before
            right := String.ofList after
            equality := some equality
            quote := none } := by
          simp [Condition.addLiteral, h, hfound]
        rw [hliteral, renderCondition_of_some e depth rfl]
        simp only [renderSides, Cut.left, Cut.right, List.nil_append, renderNodes_literal,
          renderNodes, bind_assoc, pure_bind, String.append_empty]
      | missing last =>
        -- the quote that the scan reports is the one that the text leaves open
        obtain ⟨-, rfl⟩ := hfound ▸ hscan
        have hliteral : c.addLiteral text.toList = { c with
            left := c.left ++ text, quote := openQuote c.quote text.toList } := by
          simp [Condition.addLiteral, h, hfound]
        rw [hliteral, hread, renderSides_behind, renderNode, pure_bind]
        rfl
    | reference | filter =>
      have hadd : ∀ text, c.addText text = { c with left := c.left ++ text } := by
        simp [Condition.addText, h]
      rw [renderCondition_cons _ _ _ (by simp), firstCut, renderSides_behind]
      refine bind_congr fun text => ?_
      rw [hadd]
      exact hread _ _

/-! ## What is compared -/

/-- What is left of a text when a pair of equal quotes around it is taken off. -/
inductive Unquoted : List Char → List Char → Prop where
  | quoted {quote : Char} (hquote : isQuote quote = true) (inner : List Char) :
    Unquoted (quote :: (inner ++ [quote])) inner
  | bare {cs : List Char} (hbare : ∀ quote inner, isQuote quote = true →
      cs ≠ quote :: (inner ++ [quote])) : Unquoted cs cs

/-- A pair of equal quotes around a text is taken off. -/
theorem stripQuotes_quoted {quote : Char} (hquote : isQuote quote = true) (inner : List Char) :
    stripQuotes (quote :: (inner ++ [quote])) = inner := by
  simp [stripQuotes, hquote]

/-- A text without such a pair stays as it is. -/
theorem stripQuotes_bare {cs : List Char} (hbare : ∀ quote inner, isQuote quote = true →
    cs ≠ quote :: (inner ++ [quote])) : stripQuotes cs = cs := by
  cases cs with
  | nil => rfl
  | cons first rest =>
    cases rest using List.reverseRecOn with
    | nil => rfl
    | append_singleton mid last =>
      have hnot : ¬ (isQuote first && last == first) = true := by
        intro hboth
        obtain ⟨hquote, hlast⟩ := (Bool.and_eq_true _ _).mp hboth
        obtain rfl := eq_of_beq hlast
        exact hbare last mid hquote rfl
      simp only [stripQuotes, List.getLast?_concat, if_neg hnot]

/-- What is left when quotes are taken off, told without the search. -/
theorem stripQuotes_eq_iff {cs inner : List Char} :
    stripQuotes cs = inner ↔ Unquoted cs inner := by
  constructor
  · rintro rfl
    by_cases h : ∃ quote inner, isQuote quote = true ∧ cs = quote :: (inner ++ [quote])
    · obtain ⟨quote, inner, hquote, rfl⟩ := h
      rw [stripQuotes_quoted hquote]
      exact .quoted hquote inner
    · have hbare : ∀ quote inner, isQuote quote = true → cs ≠ quote :: (inner ++ [quote]) :=
        fun quote inner hquote heq => h ⟨quote, inner, hquote, heq⟩
      rw [stripQuotes_bare hbare]
      exact .bare hbare
  · intro h
    cases h with
    | quoted hquote inner => exact stripQuotes_quoted hquote inner
    | bare hbare => exact stripQuotes_bare hbare

/-- A side of a comparison counts as `compared`: that is the side without the blanks at its ends
and then without a pair of equal quotes around it. -/
def Compared (side : String) (compared : List Char) : Prop :=
  ∃ trimmed, Text.Trimmed side.toList trimmed ∧ Unquoted trimmed compared

/-- What a side of a comparison counts as, told without the search. -/
theorem comparand_eq_iff {side : String} {compared : List Char} :
    comparand side = compared ↔ Compared side compared := by
  constructor
  · rintro rfl
    exact ⟨_, Text.trimmed_trimChars _, stripQuotes_eq_iff.1 rfl⟩
  · rintro ⟨trimmed, htrimmed, hunquoted⟩
    rw [comparand, htrimmed.eq]
    exact stripQuotes_eq_iff.2 hunquoted

/-! ## The choice -/

/-- The nodes of a choice's condition: those of its name region, without the `if`. -/
def conditionNodes : List Node → List Node
  | .literal text :: rest => .literal (String.ofList (text.toList.drop 2)) :: rest
  | nodes => nodes

/-- The condition of a choice is rendered from its nodes without the `if`. -/
theorem renderCondition_true (e : Engine) (depth : Nat) (c : Condition) {head : List Node}
    (h : startsChoice head = true) :
    renderCondition (ε := ε) e depth true c head =
      renderCondition e depth false c (conditionNodes head) := by
  cases head with
  | nil => cases h
  | cons n rest =>
    cases n with
    | reference | filter => cases h
    | literal text =>
      simp only [conditionNodes, renderCondition, conditionText, if_pos, String.toList_ofList,
        Bool.false_eq_true, if_false]

/-- A choice that does not stand too deep renders its condition, and then a branch or nothing. -/
theorem renderNode_of_startsChoice {e : Engine} {depth : Nat} {head : List Node}
    (hdepth : depth < e.config.maxRenderDepth) (hchoice : startsChoice head = true)
    (branches : List (List Node)) (source : String) :
    renderNode (ε := ε) e depth (.filter (head :: branches) source) = do
      StateT.lift (World.count (.filterEvaluation "if"))
      let c ← renderSides e (depth + 1) emptyCondition (conditionNodes head)
        (firstCut none (conditionNodes head))
      match c.equality with
      | none => return source
      | some equality =>
        return Text.joinWith "|" (← (taken (c.holds equality) branches).mapM
          (renderNodes e (depth + 1))) := by
  rw [renderNode, if_neg (Nat.not_le.2 hdepth), if_pos hchoice, renderCondition_true _ _ _ hchoice,
    renderCondition_eq_renderSides _ _ rfl]
  refine bind_congr fun _ => bind_congr fun c => ?_
  cases c.equality with
  | none => rfl
  | some equality =>
    cases branches with
    | nil => simp [taken, Text.joinWith]
    | cons branch others =>
      dsimp only
      cases c.holds equality <;> simp [taken, renderSegments_eq_mapM, Text.joinWith]

/-- **The comparison of a choice is decided by its literal text.** Take a choice that does not
stand too deep, and the nodes of its condition.

* If the nodes can be cut anywhere, then exactly one cut is the first one: the sign and what stands
  left and right of it are given by the nodes alone.
* The choice then renders, in every context, first the nodes left of that cut and then those right
  of it, and goes on with the first branch if the two texts are equal, for the sign of equality, or
  different, for the other sign, and with the branches behind it if not. No text that the nodes
  render to is looked into before that.
* If the nodes cannot be cut, they are rendered and the choice stays as it is written, in every
  context.
* The texts are compared without the blanks at their ends and then without a pair of equal quotes
  around them. -/
theorem renderNode_choice {e : Engine} {depth : Nat} (hdepth : depth < e.config.maxRenderDepth)
    {head : List Node} (hchoice : startsChoice head = true) (branches : List (List Node))
    (source : String) :
    ((∃ k : Cut, k.Cuts none (conditionNodes head)) →
      ∃! k : Cut, k.First none (conditionNodes head)) ∧
    (∀ k : Cut, k.First none (conditionNodes head) →
      renderNode (ε := ε) e depth (.filter (head :: branches) source) = do
        StateT.lift (World.count (.filterEvaluation "if"))
        let left ← renderNodes e (depth + 1) k.left
        let right ← renderNodes e (depth + 1) k.right
        let holds := decide (comparand left = comparand right) == k.equality
        return Text.joinWith "|" (← (taken holds branches).mapM (renderNodes e (depth + 1)))) ∧
    ((∀ k : Cut, ¬ k.Cuts none (conditionNodes head)) →
      renderNode (ε := ε) e depth (.filter (head :: branches) source) = do
        StateT.lift (World.count (.filterEvaluation "if"))
        let _ ← renderNodes e (depth + 1) (conditionNodes head)
        return source) ∧
    ∀ side compared, comparand side = compared ↔ Compared side compared := by
  refine ⟨?_, fun k hk => ?_, fun hnone => ?_, fun _ _ => comparand_eq_iff⟩
  · rintro ⟨k, hk⟩
    obtain ⟨first, hfirst⟩ := Option.ne_none_iff_exists'.1 fun hnone =>
      firstCut_eq_none_iff.1 hnone k hk
    have hfirst := firstCut_eq_some_iff.1 hfirst
    exact ⟨first, hfirst, fun other hother => hother.unique hfirst⟩
  · rw [renderNode_of_startsChoice hdepth hchoice, firstCut_eq_some_iff.2 hk]
    simp only [renderSides, emptyCondition, bind_assoc, pure_bind, String.empty_append,
      Condition.holds, beq_eq_decide]
  · rw [renderNode_of_startsChoice hdepth hchoice, firstCut_eq_none_iff.2 hnone]
    simp only [renderSides, emptyCondition, bind_assoc, pure_bind]

/-! ## A parameter that looks like a condition -/

namespace Disguise

/-- A viewer whose name, if it had a say, would hide the comparison or make another one. -/
def start : Stage Unit where
  context := {
    sender := ⟨"1", "alice"⟩
    capabilities := .viewer ⟨"1", "alice"⟩
    params := NameMap.ofList [("who", "'a!=b")] }
  world := { extra := () }

/-- The name region of `(if $who==admin|yes|no)`. -/
def head : List Node :=
  [.literal "if ", .reference "who" false false "$who", .literal "==admin"]

/-- Where its condition is cut. -/
def cut : Cut where
  front := [.literal " ", .reference "who" false false "$who"]
  before := []
  equality := true
  after := ['a', 'd', 'm', 'i', 'n']
  back := []

/-- The choice. -/
def choice : Node :=
  .filter [head, [.literal "yes"], [.literal "no"]] "(if $who==admin|yes|no)"

/-- Neither the quote nor the sign in the viewer's name counts. -/
theorem play_disguised_name :
    0 < ({} : Engine).config.maxRenderDepth ∧ startsChoice head = true ∧
    cut.First none (conditionNodes head) ∧ (start.play (renderNode {} 0 choice)).1 = "no" := by
  have hdepth : 0 < ({} : Engine).config.maxRenderDepth := by decide
  have hchoice : startsChoice head = true := by decide
  have hcut : cut.First none (conditionNodes head) := firstCut_eq_some_iff.1 rfl
  obtain ⟨-, hcompared, -⟩ := renderNode_choice (ε := Unit) hdepth hchoice
    [[.literal "yes"], [.literal "no"]] "(if $who==admin|yes|no)"
  refine ⟨hdepth, hchoice, hcut, ?_⟩
  rw [choice, hcompared cut hcut]
  decide +kernel

end Disguise

end ChatBot.Template
