import ChatBot.Proofs.Template.Numbering
import ChatBot.Proofs.Template.Seam
import ChatBot.Proofs.Template.Sources

/-!
# Reading the source of a filter again

Every filter of a template knows the text that it was read from. Main statement: this text, read
alone, is a template of one node, and that node is the filter (`parse_source`); in the numbered
forms the filter takes up a stretch of the slots, and the stretch is the numbered form of its text
with all numbers moved by the same amount.

Two things come together here. A filter ends in a parenthesis, and no token reaches beyond one, so
the text of a filter is cut into the tokens that it has in the template (`Stable`). And the body of
a filter does not depend on what stands behind the parenthesis that closes it
(`exists_inside_used`).
-/

set_option autoImplicit false

namespace ChatBot.Template

/-! ## Tokens of a piece of text -/

/-- The tokens are those that their own text is cut into. -/
def Stable (ts : List Token) : Prop :=
  Lexes Refers (ts.flatMap Token.raw) ts

/-- The tokens of a text are those that their own text is cut into. -/
theorem stable_tokens (cs : List Char) : Stable (tokens cs) := by
  have h := lexes_tokens cs
  unfold Stable
  rwa [h.flatMap_raw]

/-- Without its first token, a text is cut into the others. -/
theorem Lexes.tail {cs : List Char} {t : Token} {ts : List Token} (h : Lexes Refers cs (t :: ts)) :
    ∃ ds, Lexes Refers ds ts := by
  cases h <;> exact ⟨_, ‹_›⟩

/-- Every token has a text. -/
theorem Token.raw_ne_nil (t : Token) : t.raw ≠ [] := by
  cases t with
  | char c escaped => cases escaped <;> simp [raw]
  | reference | opening | closing | bar => simp [raw, referenceText]

/-- Only no tokens have no text. -/
theorem eq_nil_of_flatMap_raw {ts : List Token} (h : ts.flatMap Token.raw = []) : ts = [] := by
  cases ts with
  | nil => rfl
  | cons t ts => exact absurd (List.append_eq_nil_iff.1 h).1 t.raw_ne_nil

/-- Of two beginnings of the same tokens, neither is longer if their texts are the same. -/
theorem eq_of_prefix_of_flatMap_raw {ts us : List Token} (h : ts <+: us)
    (hraw : ts.flatMap Token.raw = us.flatMap Token.raw) : ts = us := by
  obtain ⟨rest, rfl⟩ := h
  rw [List.flatMap_append] at hraw
  have hrest : rest.flatMap Token.raw = [] := List.append_right_eq_self.1 hraw.symm
  rw [eq_nil_of_flatMap_raw hrest, List.append_nil]

namespace Stable

/-- Stable tokens without the first one are stable. -/
theorem of_cons {t : Token} {ts : List Token} (h : Stable (t :: ts)) : Stable ts := by
  obtain ⟨ds, hds⟩ := Lexes.tail h
  unfold Stable
  rwa [hds.flatMap_raw]

/-- The last ones of stable tokens are stable. -/
theorem of_append {front back : List Token} (h : Stable (front ++ back)) : Stable back := by
  induction front with
  | nil => exact h
  | cons t front ih => exact ih h.of_cons

/-- Tokens whose text ends are cut in the same way without what follows them. -/
theorem take {front back : List Token} (h : Stable (front ++ back))
    (ends : Ends (front.flatMap Token.raw)) : Stable front := by
  have hall : tokens (front.flatMap Token.raw) ++ tokens (back.flatMap Token.raw) =
      front ++ back := by
    rw [← tokens_append ends, ← List.flatMap_append]
    exact (Lexes.eq_tokens h).symm
  have hraw : (tokens (front.flatMap Token.raw)).flatMap Token.raw = front.flatMap Token.raw :=
    (lexes_tokens _).flatMap_raw
  have hfront : front = tokens (front.flatMap Token.raw) := by
    rcases List.prefix_or_prefix_of_prefix (List.prefix_append _ _)
      (hall ▸ List.prefix_append front back) with hle | hle
    · exact (eq_of_prefix_of_flatMap_raw hle hraw).symm
    · exact eq_of_prefix_of_flatMap_raw hle hraw.symm
  rw [hfront]
  exact stable_tokens _

end Stable

/-- Behind a closing parenthesis, nothing goes on with what was read before. -/
theorem ends_closing (cs : List Char) : Ends (cs ++ [')']) := by
  intro c hc
  rw [List.getLast?_concat] at hc
  obtain rfl : ')' = c := Option.some.inj hc
  decide

/-! ## The body of a filter alone -/

/-- A filter with its parentheses, and what stands behind it. -/
theorem Body.opening_split {ts : List Token} (b : Body ts) :
    Token.opening :: ts = (.opening :: (b.used ++ [.closing])) ++ b.rest := by
  refine (congrArg (Token.opening :: ·) b.split).trans ?_
  simp

/-- What stands behind a filter is cut as it would be alone. -/
theorem Stable.rest {ts : List Token} (h : Stable (.opening :: ts)) (b : Body ts) :
    Stable b.rest := by
  rw [b.opening_split] at h
  exact h.of_append

/-- The filter of a body does not depend on what stands behind it. -/
theorem filter_eq {ts us : List Token} {b : Body ts} {b' : Body us}
    (hsegments : b'.segments = b.segments) (hused : b'.used = b.used) : b'.filter = b.filter := by
  rw [Body.filter, Body.filter, hsegments, hused]

/-- A body ends at the parenthesis that closes it, whatever follows. -/
theorem exists_inside_used {ts : List Token} {b : Body ts} (h : inside ts = some b)
    {us rest : List Token} (hus : us = b.used ++ .closing :: rest) :
    ∃ b' : Body us, inside us = some b' ∧ b'.segments = b.segments ∧ b'.used = b.used ∧
      b'.rest = rest := by
  induction ts using inside.induct generalizing us rest with
  | case1 => simp [inside] at h
  | case2 ts =>
    rw [inside] at h
    cases h
    subst hus
    exact ⟨_, inside.eq_2 rest, rfl, rfl, rfl⟩
  | case3 ts ih =>
    rw [inside, Option.map_eq_some_iff] at h
    obtain ⟨c, hc, rfl⟩ := h
    obtain ⟨c', hc', hsegments, hused, hrest⟩ :=
      ih hc (Eq.refl (c.used ++ .closing :: rest))
    subst hus
    refine ⟨_, (inside.eq_3 _).trans (congrArg (Option.map _) hc'), ?_, ?_, hrest⟩
    · exact congrArg ([] :: ·) hsegments
    · exact congrArg (Token.bar :: ·) hused
  | case4 ts hnone ih =>
    rw [inside, hnone] at h
    cases h
  | case5 ts inner hinner hlength ih ih' =>
    rw [inside, hinner] at h
    obtain ⟨c, hc, rfl⟩ := Option.map_eq_some_iff.1 h
    obtain rfl : us = .opening :: (inner.used ++ .closing :: (c.used ++ .closing :: rest)) := by
      rw [hus]
      simp
    -- the inner body ends at its own parenthesis, and the outer one is read on behind it
    obtain ⟨inner', hinner', hsegments, hused, hrest⟩ := ih hinner rfl
    obtain ⟨c', hc', hsegments', hused', hrest'⟩ := ih' hc hrest
    rw [inside, hinner']
    refine ⟨_, congrArg (Option.map _) hc', ?_, ?_, hrest'⟩
    · dsimp only
      rw [filter_eq hsegments hused, hsegments']
    · dsimp only
      rw [hused, hused']
  | case6 t ts hclosing hbar hopening ih =>
    rw [inside_cons hopening hclosing hbar, Option.map_eq_some_iff] at h
    obtain ⟨c, hc, rfl⟩ := h
    obtain ⟨c', hc', hsegments, hused, hrest⟩ :=
      ih hc (Eq.refl (c.used ++ .closing :: rest))
    subst hus
    refine ⟨_, (inside_cons hopening hclosing hbar _).trans (congrArg (Option.map _) hc'), ?_, ?_,
      hrest⟩
    · exact congrArg (onFirst (addToken t)) hsegments
    · exact congrArg (t :: ·) hused

/-- The text of a filter is read as the filter. -/
theorem parse_filter {ts : List Token} {b : Body ts} (h : inside ts = some b)
    (hts : Stable (.opening :: ts)) : parse b.filter.source = [b.filter] := by
  obtain ⟨b', hb', hsegments, hused, hrest⟩ := exists_inside_used h
    (Eq.refl (b.used ++ [.closing]))
  have hraw : (Token.opening :: (b.used ++ [.closing])).flatMap Token.raw =
      '(' :: (b.used.flatMap Token.raw ++ [')']) := by
    simp [Token.raw]
  have hstable : Stable (.opening :: (b.used ++ [.closing])) := by
    rw [b.opening_split] at hts
    refine hts.take ?_
    rw [hraw]
    exact ends_closing ('(' :: b.used.flatMap Token.raw)
  have htokens : tokens b.filter.source.toList = .opening :: (b.used ++ [.closing]) := by
    rw [Body.filter, Node.source, String.toList_ofList, ← hraw]
    exact (Lexes.eq_tokens hstable).symm
  rw [parse, ofTokens_eq_template, htokens, template, hb']
  dsimp only
  rw [hrest, template, filter_eq hsegments hused]

/-! ## Filters at any depth -/

/-- A node stands in another one: it is that node, or stands in a node of one of its segments. -/
inductive Node.PartOf (n : Node) : Node → Prop where
  | self : PartOf n n
  | within {segments : List (List Node)} {segment : List Node} {m : Node} (source : String)
      (hsegment : segment ∈ segments) (hm : m ∈ segment) (part : PartOf n m) :
      PartOf n (.filter segments source)

/-- The filters that stand in the node, itself included, are read again from their texts. -/
def Node.Rereads (n : Node) : Prop :=
  ∀ m : Node, m.PartOf n → m.isFilter = true → parse m.source = [m]

namespace Node

/-- There are no filters in literal text. -/
theorem rereads_literal (text : String) : (literal text).Rereads := by
  intro m hpart hfilter
  cases hpart
  cases hfilter

/-- There are no filters in a reference. -/
theorem rereads_reference (name : String) (silent persisted : Bool) (source : String) :
    (reference name silent persisted source).Rereads := by
  intro m hpart hfilter
  cases hpart
  cases hfilter

/-- The filters in a filter are read again if those in its segments are, and itself is. -/
theorem rereads_filter {segments : List (List Node)} {source : String}
    (hself : parse source = [.filter segments source])
    (hparts : ∀ segment ∈ segments, ∀ n ∈ segment, n.Rereads) :
    (filter segments source).Rereads := by
  intro m hpart hfilter
  cases hpart with
  | self => exact hself
  | within _ hsegment hn part => exact hparts _ hsegment _ hn m part hfilter

end Node

/-- Text in front of nodes adds no filters. -/
theorem rereads_addText (text : List Char) {nodes : List Node} (h : ∀ n ∈ nodes, n.Rereads) :
    ∀ n ∈ addText text nodes, n.Rereads := by
  unfold addText
  split
  · exact h
  · exact List.forall_mem_cons.2 ⟨Node.rereads_literal _, (List.forall_mem_cons.1 h).2⟩
  · exact List.forall_mem_cons.2 ⟨Node.rereads_literal _, h⟩

/-- A token in front of nodes adds no filters. -/
theorem rereads_addToken (t : Token) {nodes : List Node} (h : ∀ n ∈ nodes, n.Rereads) :
    ∀ n ∈ addToken t nodes, n.Rereads := by
  unfold addToken
  split
  · exact List.forall_mem_cons.2 ⟨Node.rereads_reference _ _ _ _, h⟩
  · exact rereads_addText _ h

/-- All filters in the body of a filter are read again, by induction on the tokens. -/
theorem rereads_inside {ts : List Token} {b : Body ts} (h : inside ts = some b)
    (hts : Stable ts) : ∀ segment ∈ b.segments, ∀ n ∈ segment, n.Rereads := by
  induction ts using inside.induct with
  | case1 => simp [inside] at h
  | case2 ts =>
    rw [inside] at h
    cases h
    simp
  | case3 ts ih =>
    rw [inside, Option.map_eq_some_iff] at h
    obtain ⟨c, hc, rfl⟩ := h
    exact List.forall_mem_cons.2 ⟨by simp, ih hc hts.of_cons⟩
  | case4 ts hnone ih =>
    rw [inside, hnone] at h
    cases h
  | case5 ts inner hinner hlength ih ih' =>
    rw [inside, hinner] at h
    obtain ⟨c, hc, rfl⟩ := Option.map_eq_some_iff.1 h
    have hfilter : inner.filter.Rereads :=
      Node.rereads_filter (parse_filter hinner hts) (ih hinner hts.of_cons)
    exact forall_mem_onFirst (fun segment => ∀ n ∈ segment, n.Rereads)
      (fun nodes hnodes => List.forall_mem_cons.2 ⟨hfilter, hnodes⟩) (ih' hc (hts.rest inner))
  | case6 t ts hclosing hbar hopening ih =>
    rw [inside_cons hopening hclosing hbar, Option.map_eq_some_iff] at h
    obtain ⟨c, hc, rfl⟩ := h
    exact forall_mem_onFirst (fun segment => ∀ n ∈ segment, n.Rereads)
      (fun nodes => rereads_addToken t) (ih hc hts.of_cons)

/-- All filters of a template are read again, by induction on its tokens. -/
theorem rereads_template {ts : List Token} (hts : Stable ts) : ∀ n ∈ template ts, n.Rereads := by
  induction ts using template.induct with
  | case1 =>
    rw [template]
    simp
  | case2 ts b hb hlength ih =>
    rw [template, hb]
    exact List.forall_mem_cons.2
      ⟨Node.rereads_filter (parse_filter hb hts) (rereads_inside hb hts.of_cons), ih (hts.rest b)⟩
  | case3 ts hnone =>
    rw [template, hnone]
    exact List.forall_mem_singleton.2 (Node.rereads_literal _)
  | case4 t ts hopening ih =>
    rw [template_cons hopening]
    exact rereads_addToken t (ih hts.of_cons)

/-- Every filter of a template is read again from its text. -/
theorem rereads_parse (text : String) : ∀ n ∈ parse text, n.Rereads := by
  rw [parse, ofTokens_eq_template]
  exact rereads_template (stable_tokens text.toList)

/-! ## Stretches of slots -/

/-- A slot with all numbers moved by the same amount. -/
def Slot.shift (k : Nat) : Slot → Slot
  | literal text => literal text
  | reference name silent persisted source => reference name silent persisted source
  | filter segments source => filter (segments.map fun (ids : List Nat) => ids.map (k + ·)) source

mutual

/-- Nodes that are laid out further on have their numbers moved. -/
theorem slotsOf_add (k next : Nat) : (n : Node) →
    slotsOf (k + next) n = (slotsOf next n).map (Slot.shift k)
  | .literal text => rfl
  | .reference name silent persisted source => rfl
  | .filter segments source => by
    obtain ⟨hslots, hids⟩ := slotsOfSegments_add k next segments
    simp only [slotsOf, hslots, hids, List.map_append, List.map_cons, List.map_nil, Slot.shift]

/-- Nodes that are laid out further on have their slots shifted. -/
theorem slotsOfNodes_add (k next : Nat) : (ns : List Node) →
    (slotsOfNodes (k + next) ns).1 = (slotsOfNodes next ns).1.map (Slot.shift k) ∧
      (slotsOfNodes (k + next) ns).2 = (slotsOfNodes next ns).2.map (k + ·)
  | [] => ⟨rfl, rfl⟩
  | n :: rest => by
    have hpos := slotsOf_length_pos next n
    obtain ⟨hslots, hids⟩ := slotsOfNodes_add k (next + (slotsOf next n).length) rest
    have hnumber : k + next + (slotsOf next n).length - 1 =
        k + (next + (slotsOf next n).length - 1) := by
      omega
    simp only [slotsOfNodes, slotsOf_add k next n, List.length_map, List.map_append, List.map_cons,
      Nat.add_assoc] at hslots hids hnumber ⊢
    exact ⟨by rw [hslots], by rw [hids, hnumber]⟩

/-- Segments that are laid out further on have their slots shifted. -/
theorem slotsOfSegments_add (k next : Nat) : (segments : List (List Node)) →
    (slotsOfSegments (k + next) segments).1 = (slotsOfSegments next segments).1.map (Slot.shift k) ∧
      (slotsOfSegments (k + next) segments).2 =
        (slotsOfSegments next segments).2.map (fun (ids : List Nat) => ids.map (k + ·))
  | [] => ⟨rfl, rfl⟩
  | segment :: rest => by
    obtain ⟨hslots, hids⟩ := slotsOfNodes_add k next segment
    obtain ⟨hmore, hothers⟩ :=
      slotsOfSegments_add k (next + (slotsOfNodes next segment).1.length) rest
    simp only [slotsOfSegments, hslots, hids, List.length_map, List.map_append, List.map_cons,
      Nat.add_assoc]
    exact ⟨by rw [hmore], by rw [hothers]⟩

end

/-- Among slots that are laid out from `next` on, those of the node are a stretch that ends with the
slot in the place `i`. -/
def TakesUp (next : Nat) (slots : List Slot) (i : Nat) (n : Node) : Prop :=
  ∃ front back, slots = front ++ slotsOf (next + front.length) n ++ back ∧
    i + 1 = front.length + (slotsOf (next + front.length) n).length

section TakesUp

variable {next i : Nat} {slots : List Slot} {n : Node}

/-- A node takes up its slots whatever comes behind them. -/
theorem TakesUp.append_right (h : TakesUp next slots i n) (more : List Slot) :
    TakesUp next (slots ++ more) i n := by
  obtain ⟨front, back, rfl, hi⟩ := h
  exact ⟨front, back ++ more, List.append_assoc _ _ _, hi⟩

/-- A node takes up its slots further on when something comes in front of them. -/
theorem TakesUp.append_left {before : List Slot} (h : TakesUp (next + before.length) slots i n) :
    TakesUp next (before ++ slots) (before.length + i) n := by
  obtain ⟨front, back, rfl, hi⟩ := h
  refine ⟨before ++ front, back, ?_, ?_⟩
  · rw [List.length_append, ← Nat.add_assoc]
    simp only [List.append_assoc]
  · rw [List.length_append, ← Nat.add_assoc]
    omega

end TakesUp

mutual

/-- The slot of a filter ends the stretch that a filter of the node takes up. -/
theorem exists_takesUp_slotsOf {i : Nat} {ids : List (List Nat)} {source : String} (next : Nat) :
    (n : Node) → (slotsOf next n)[i]? = some (.filter ids source) →
      ∃ segments, (Node.filter segments source).PartOf n ∧
        TakesUp next (slotsOf next n) i (.filter segments source)
  | .literal text, h => by
    rw [slotsOf, List.getElem?_singleton] at h
    split at h <;> cases h
  | .reference name silent persisted mention, h => by
    rw [slotsOf, List.getElem?_singleton] at h
    split at h <;> cases h
  | .filter segments whole, h => by
    by_cases hi : i < (slotsOfSegments next segments).1.length
    · have hinner : (slotsOfSegments next segments).1[i]? = some (.filter ids source) := by
        rw [slotsOf] at h
        rwa [List.getElem?_append_left hi] at h
      obtain ⟨rows, segment, hsegment, m, hm, hpart, htakes⟩ :=
        exists_takesUp_slotsOfSegments next segments hinner
      exact ⟨rows, .within whole hsegment hm hpart, htakes.append_right _⟩
    · rw [slotsOf, List.getElem?_append_right (Nat.le_of_not_lt hi), List.getElem?_singleton] at h
      split at h
      · cases h
        refine ⟨segments, .self, [], [], by simp, ?_⟩
        simp only [slotsOf, List.length_append, List.length_singleton, List.length_nil,
          Nat.add_zero]
        omega
      · cases h

/-- The slot of a filter among those of nodes is where a filter that stands in one of them is laid
out. -/
theorem exists_takesUp_slotsOfNodes {i : Nat} {ids : List (List Nat)} {source : String}
    (next : Nat) : (ns : List Node) → (slotsOfNodes next ns).1[i]? = some (.filter ids source) →
      ∃ segments, ∃ n ∈ ns, (Node.filter segments source).PartOf n ∧
        TakesUp next (slotsOfNodes next ns).1 i (.filter segments source)
  | [], h => by simp [slotsOfNodes] at h
  | n :: rest, h => by
    by_cases hi : i < (slotsOf next n).length
    · have hhere : (slotsOf next n)[i]? = some (.filter ids source) := by
        rw [slotsOfNodes] at h
        rwa [List.getElem?_append_left hi] at h
      obtain ⟨segments, hpart, htakes⟩ := exists_takesUp_slotsOf next n hhere
      exact ⟨segments, n, List.mem_cons_self, hpart, htakes.append_right _⟩
    · rw [slotsOfNodes, List.getElem?_append_right (Nat.le_of_not_lt hi)] at h
      obtain ⟨segments, m, hm, hpart, htakes⟩ := exists_takesUp_slotsOfNodes _ rest h
      refine ⟨segments, m, List.mem_cons_of_mem n hm, hpart, ?_⟩
      have hleft := htakes.append_left
      rwa [Nat.add_sub_cancel' (Nat.le_of_not_lt hi)] at hleft

/-- The slot of a filter among those of segments is where a filter that stands in one of them is
laid out. -/
theorem exists_takesUp_slotsOfSegments {i : Nat} {ids : List (List Nat)} {source : String}
    (next : Nat) : (segments : List (List Node)) →
      (slotsOfSegments next segments).1[i]? = some (.filter ids source) →
      ∃ rows, ∃ segment ∈ segments, ∃ n ∈ segment, (Node.filter rows source).PartOf n ∧
        TakesUp next (slotsOfSegments next segments).1 i (.filter rows source)
  | [], h => by simp [slotsOfSegments] at h
  | segment :: rest, h => by
    by_cases hi : i < (slotsOfNodes next segment).1.length
    · have hhere : (slotsOfNodes next segment).1[i]? = some (.filter ids source) := by
        rw [slotsOfSegments] at h
        rwa [List.getElem?_append_left hi] at h
      obtain ⟨rows, n, hn, hpart, htakes⟩ := exists_takesUp_slotsOfNodes next segment hhere
      exact ⟨rows, segment, List.mem_cons_self, n, hn, hpart, htakes.append_right _⟩
    · rw [slotsOfSegments, List.getElem?_append_right (Nat.le_of_not_lt hi)] at h
      obtain ⟨rows, row, hrow, n, hn, hpart, htakes⟩ := exists_takesUp_slotsOfSegments _ rest h
      refine ⟨rows, row, List.mem_cons_of_mem segment hrow, n, hn, hpart, ?_⟩
      have hleft := htakes.append_left
      rwa [Nat.add_sub_cancel' (Nat.le_of_not_lt hi)] at hleft

end

/-- **The source of a filter is read as the filter.** Take any filter of any template, at any depth,
by its number. The text that it was read from is, as a template of its own, one node, and this node
is the filter, with the same segments, texts, references and sources at every depth. In the numbered
forms, the filter with its parts takes up the slots from a number `first` on up to its own; the
numbered form of its text consists of these slots, with all numbers counted from there. -/
theorem parse_source (text : String) {i : Nat} {ids : List (List Nat)} {source : String}
    (h : (Arena.ofNodes (parse text)).slots[i]? = some (.filter ids source)) :
    let whole := Arena.ofNodes (parse text)
    let alone := Arena.ofNodes (parse source)
    ∃ segments first,
      Arena.nodeAt whole.slots i = some (.filter segments source) ∧
      parse source = [.filter segments source] ∧
      alone.root = [i - first] ∧ i + 1 = first + alone.size ∧
      (whole.slots.drop first).take alone.size = alone.slots.map (Slot.shift first) := by
  intro whole alone
  obtain ⟨segments, n, hn, hpart, front, back, hslots, hi⟩ :=
    exists_takesUp_slotsOfNodes 0 (parse text) h
  rw [Nat.zero_add] at hslots hi
  have hparse : parse source = [.filter segments source] :=
    rereads_parse text n hn (.filter segments source) hpart rfl
  have halone : alone = ⟨slotsOf 0 (.filter segments source),
      [0 + (slotsOf 0 (.filter segments source)).length - 1]⟩ := by
    simp [alone, Arena.ofNodes, hparse, slotsOfNodes]
  -- alone, the source has its slots from zero on; in the whole they stand behind `front`
  have hstretch : slotsOf front.length (.filter segments source) =
      alone.slots.map (Slot.shift front.length) := by
    rw [halone]
    exact slotsOf_add front.length 0 (.filter segments source)
  have hsize : (slotsOf front.length (.filter segments source)).length = alone.size := by
    rw [hstretch, List.length_map, Arena.size]
  have hwhole : whole.slots = front ++ slotsOf front.length (.filter segments source) ++ back :=
    hslots
  refine ⟨segments, front.length, ?_, hparse, ?_, hsize ▸ hi, ?_⟩
  · have hself := nodeAt_slotsOf (.filter segments source) front back
    rwa [← hwhole, ← hi, Nat.add_sub_cancel] at hself
  · have hroot : alone.root = [0 + alone.slots.length - 1] := by rw [halone]
    have hindex : 0 + (slotsOf front.length (.filter segments source)).length - 1 =
        i - front.length := by
      omega
    rw [hroot, ← Arena.size, ← hsize, hindex]
  · rw [hwhole, List.append_assoc, List.drop_left, ← hsize, List.take_left, hstretch]

/-! A choice in the name region of another filter, in a template that leaves a parenthesis open. -/

namespace Picking

/-- The choice. -/
def choice : String := "(if $a|\\)$!_b)"

/-- The template around it. -/
def template : String := "Hi (pick (if $a|\\)$!_b)|c) ("

/-- The choice has the number 6 in the template, and its text is read as what has this number. -/
theorem parse_choice :
    (Arena.ofNodes (parse template)).slots[6]? = some (.filter [[2, 3], [4, 5]] choice) ∧
    ∃ segments, Arena.nodeAt (Arena.ofNodes (parse template)).slots 6 =
      some (.filter segments choice) ∧ parse choice = [.filter segments choice] := by
  have hslot : (Arena.ofNodes (parse template)).slots[6]? =
      some (.filter [[2, 3], [4, 5]] choice) := by
    decide +kernel
  obtain ⟨segments, first, hnode, hparse, -, -, -⟩ := parse_source template hslot
  exact ⟨hslot, segments, hnode, hparse⟩

end Picking

end ChatBot.Template
