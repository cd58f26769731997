import ChatBot.Proofs.Template.Seam
import Mathlib.Data.List.Infix

/-!
# What parsing keeps of a text

A template text is divided into the filters that stand outside all others, and the rest. Where such
a filter starts and ends is a matter of counting parentheses: it is opened by a parenthesis, and it
ends where as many have been closed as opened (`Encloses`). A parenthesis that is never closed makes
plain text of all that follows it (`Divides`). Escape pairs do not count; they are found in one go
from left to right (`pieces`).

Main statement: what the nodes outside all filters were read from is the text again, but for the
backslashes of the escape pairs that do not stand in one of those filters (`sourceOf_parse`).
-/

set_option autoImplicit false

namespace ChatBot.Template

/-! ## Dividing a text -/

/-- A piece of a template text. -/
inductive Piece where
  /-- A backslash, and the character that it makes plain text. -/
  | pair (c : Char)
  | single (c : Char)
  deriving DecidableEq

namespace Piece

/-- The text of a piece. -/
def raw : Piece → List Char
  | pair c => ['\\', c]
  | single c => [c]

/-- The text of a piece without the backslash of a pair. -/
def kept : Piece → List Char
  | pair c => [c]
  | single c => [c]

end Piece

/-- The pieces of a text. A backslash makes a pair with the next character if it can. -/
def pieces : List Char → List Piece
  | [] => []
  | [c] => [.single c]
  | c :: d :: cs =>
    if c = '\\' ∧ d ∈ ['(', ')', '$', '|', '\\'] then .pair d :: pieces cs
    else .single c :: pieces (d :: cs)

/-- How many more parentheses are opened than closed. -/
def depth (ps : List Piece) : Int :=
  ps.count (.single '(') - ps.count (.single ')')

/-- A parenthesis with all that follows up to the one that closes it. -/
structure Encloses (ps : List Piece) : Prop where
  opens : ps.head? = some (.single '(')
  closes : depth ps = 0
  stays_open : ∀ front, front <+: ps → front ≠ [] → front ≠ ps → 0 < depth front

/-- A stretch of a template text. -/
inductive Stretch where
  | outside (p : Piece)
  /-- A filter that stands outside all others. -/
  | closed (ps : List Piece)

namespace Stretch

/-- The text of a stretch. -/
def raw : Stretch → List Char
  | outside p => p.raw
  | closed ps => ps.flatMap Piece.raw

/-- The text of a stretch without the backslashes that do not stand in a filter. -/
def kept : Stretch → List Char
  | outside p => p.kept
  | closed ps => ps.flatMap Piece.raw

/-- The text of a filter. -/
def filter? : Stretch → Option (List Char)
  | outside _ => none
  | closed ps => some (ps.flatMap Piece.raw)

end Stretch

/-- The pieces are divided into the stretches. -/
inductive Divides : List Piece → List Stretch → Prop where
  | nil : Divides [] []
  | closed {front rest : List Piece} {ss : List Stretch} (encloses : Encloses front)
      (divides : Divides rest ss) : Divides (front ++ rest) (.closed front :: ss)
  /-- Behind a parenthesis that is never closed nothing is a filter. -/
  | unclosed {ps : List Piece} (never : ∀ front, front <+: .single '(' :: ps → ¬ Encloses front) :
      Divides (.single '(' :: ps) ((.single '(' :: ps).map .outside)
  | outside {p : Piece} {ps : List Piece} {ss : List Stretch} (other : p ≠ .single '(')
      (divides : Divides ps ss) : Divides (p :: ps) (.outside p :: ss)

/-! ## A text is divided in one way -/

/-- The pieces of a text make up the text. -/
theorem flatMap_raw_pieces (cs : List Char) : (pieces cs).flatMap Piece.raw = cs := by
  induction cs using pieces.induct with
  | case1 => rfl
  | case2 c => rfl
  | case3 c d cs h ih =>
    rw [pieces, if_pos h, List.flatMap_cons, ih, h.1]
    rfl
  | case4 c d cs h ih =>
    rw [pieces, if_neg h, List.flatMap_cons, ih]
    rfl

/-- A character that starts no pair is a piece of its own. -/
theorem pieces_cons {c : Char} {cs : List Char}
    (h : c = '\\' → ∀ d ∈ cs.head?, d ∉ ['(', ')', '$', '|', '\\']) :
    pieces (c :: cs) = .single c :: pieces cs := by
  cases cs with
  | nil => rfl
  | cons d cs => exact if_neg fun hpair => h hpair.1 d rfl hpair.2

namespace Encloses

variable {front front' rest rest' : List Piece}

/-- A parenthesis with what follows is not empty. -/
theorem ne_nil (h : Encloses front) : front ≠ [] := by
  rintro rfl
  cases h.opens

/-- Of two beginnings of the same pieces that end where their parenthesis is closed, neither is
longer. -/
theorem unique (h : Encloses front) (h' : Encloses front')
    (heq : front ++ rest = front' ++ rest') : front = front' ∧ rest = rest' := by
  have shorter {a b : List Piece} (ha : Encloses a) (hb : Encloses b) (hab : a <+: b) : a = b := by
    by_contra hne
    have hopen := hb.stays_open a hab ha.ne_nil hne
    rw [ha.closes] at hopen
    exact Int.lt_irrefl 0 hopen
  have hsame : front = front' := by
    rcases List.prefix_or_prefix_of_prefix (heq ▸ List.prefix_append front rest)
      (List.prefix_append front' rest') with hle | hle
    · exact shorter h h' hle
    · exact (shorter h' h hle).symm
  subst hsame
  exact ⟨rfl, List.append_cancel_left heq⟩

end Encloses

/-- Pieces are divided into stretches in one way at most. -/
theorem Divides.unique {ps : List Piece} {ss ss' : List Stretch} (h : Divides ps ss)
    (h' : Divides ps ss') : ss = ss' := by
  -- the first piece decides which rule was used: a front that encloses starts with a parenthesis,
  -- and there is one such front at most
  induction h generalizing ss' with
  | nil =>
    generalize hps : [] = ps at h'
    cases h' with
    | nil => rfl
    | closed encloses => exact absurd (List.append_eq_nil_iff.1 hps.symm).1 encloses.ne_nil
    | unclosed | outside => cases hps
  | @closed front rest ss encloses _ ih =>
    have hhead : (front ++ rest).head? = some (.single '(') := by
      rw [List.head?_append, encloses.opens]
      rfl
    generalize hps : front ++ rest = ps at h' hhead
    cases h' with
    | nil => cases hhead
    | closed encloses' divides' =>
      obtain ⟨rfl, rfl⟩ := encloses.unique encloses' hps
      rw [ih divides']
    | unclosed never => exact absurd encloses (never front (hps ▸ List.prefix_append front rest))
    | outside other => exact absurd (Option.some_inj.1 hhead) other
  | @unclosed ps never =>
    generalize hps : Piece.single '(' :: ps = ps' at h'
    cases h' with
    | nil => cases hps
    | @closed front rest _ encloses =>
      exact absurd encloses (never front (hps ▸ List.prefix_append front rest))
    | unclosed => rfl
    | outside other => exact absurd (List.cons.inj hps).1.symm other
  | @outside p ps ss other _ ih =>
    generalize hps : p :: ps = ps' at h'
    cases h' with
    | nil => cases hps
    | closed encloses =>
      have hhead := congrArg List.head? hps
      rw [List.head?_append, encloses.opens] at hhead
      exact absurd (Option.some_inj.1 hhead) other
    | unclosed => exact absurd (List.cons.inj hps).1 other
    | outside _ divides' =>
      obtain ⟨rfl, rfl⟩ := List.cons.inj hps
      rw [ih divides']

/-- The stretches lose nothing. -/
theorem Divides.flatMap_raw {ps : List Piece} {ss : List Stretch} (h : Divides ps ss) :
    ss.flatMap Stretch.raw = ps.flatMap Piece.raw := by
  induction h with
  | nil => rfl
  | closed _ _ ih => rw [List.flatMap_cons, List.flatMap_append, ih]; rfl
  | unclosed => rw [List.flatMap_map]; rfl
  | outside _ _ ih => rw [List.flatMap_cons, List.flatMap_cons, ih]; rfl

/-! ## The pieces of tokens -/

/-- The pieces that a token is read from. -/
def Token.pieces : Token → List Piece
  | .char c escaped => [if escaped then .pair c else .single c]
  | t => t.raw.map .single

/-- Pieces none of which opens or closes a parenthesis. -/
def Flat (ps : List Piece) : Prop :=
  .single '(' ∉ ps ∧ .single ')' ∉ ps

/-- The parentheses among the pieces of a token are the token itself. -/
def Token.Parenthesised (t : Token) : Prop :=
  t = .opening ∨ t = .closing ∨ Flat t.pieces

/-- A reference holds neither parentheses nor backslashes. -/
theorem Refers.not_mem_referenceText {cs identifier behind : List Char} {silent persisted : Bool}
    (h : Refers cs silent persisted identifier behind) {c : Char} (hc : c ∈ ['(', ')', '\\']) :
    c ∉ Token.referenceText silent persisted identifier := by
  intro hmem
  rw [Token.referenceText, ← List.append_assoc, List.mem_cons] at hmem
  have hnot : c ≠ '$' ∧ c ≠ '!' ∧ isIdentifierChar c = false := by
    simp only [List.mem_cons, List.not_mem_nil, or_false] at hc
    rcases hc with rfl | rfl | rfl <;> decide
  obtain ⟨hdollar, hbang, hidentifier⟩ := hnot
  rcases h.isReferenceChar c (hmem.resolve_left hdollar) with hmark | hchar
  · exact hbang hmark
  · rw [hidentifier] at hchar
    cases hchar

/-- In front of anything, a text without backslashes is single pieces. -/
theorem pieces_append {cs : List Char} (h : '\\' ∉ cs) (more : List Char) :
    pieces (cs ++ more) = cs.map .single ++ pieces more := by
  induction cs with
  | nil => rfl
  | cons c cs ih =>
    obtain ⟨hc, hcs⟩ := not_or.1 (mt List.mem_cons.2 h)
    rw [List.cons_append, List.map_cons, List.cons_append, ← ih hcs]
    exact pieces_cons fun heq => absurd heq.symm hc

/-- The tokens of a text are put together from its pieces. -/
theorem Lexes.flatMap_pieces {cs : List Char} {ts : List Token} (h : Lexes Refers cs ts) :
    ts.flatMap Token.pieces = pieces cs := by
  induction h with
  | done => rfl
  | escaped escapable rest ih =>
    rw [List.flatMap_cons, ih, pieces, if_pos ⟨rfl, escapable⟩]
    rfl
  | @backslash cs ts lone rest ih =>
    rw [List.flatMap_cons, ih]
    exact (pieces_cons fun _ d hd => lone d hd).symm
  | opening rest ih | closing rest ih | bar rest ih =>
    rw [List.flatMap_cons, ih]
    exact (pieces_cons fun heq => by simp at heq).symm
  | @reference cs identifier behind silent persisted ts refers rest ih =>
    have htext : '$' :: cs = Token.referenceText silent persisted identifier ++ behind := by
      rw [refers.text]
      simp [Token.referenceText]
    rw [List.flatMap_cons, ih, htext, pieces_append (refers.not_mem_referenceText (by simp))]
    rfl
  | dollar lone rest ih =>
    rw [List.flatMap_cons, ih]
    exact (pieces_cons fun heq => by simp at heq).symm
  | plain other rest ih =>
    rw [List.flatMap_cons, ih]
    exact (pieces_cons fun heq => absurd (by simp [heq]) other).symm

/-- The parentheses of a text are tokens. -/
theorem Lexes.parenthesised {cs : List Char} {ts : List Token} (h : Lexes Refers cs ts) :
    ∀ t ∈ ts, t.Parenthesised := by
  induction h with
  | done => simp
  | escaped escapable rest ih =>
    exact List.forall_mem_cons.2 ⟨.inr (.inr (by simp [Flat, Token.pieces])), ih⟩
  | backslash lone rest ih | dollar lone rest ih =>
    exact List.forall_mem_cons.2 ⟨.inr (.inr (by simp [Flat, Token.pieces])), ih⟩
  | opening rest ih => exact List.forall_mem_cons.2 ⟨.inl rfl, ih⟩
  | closing rest ih => exact List.forall_mem_cons.2 ⟨.inr (.inl rfl), ih⟩
  | bar rest ih =>
    exact List.forall_mem_cons.2 ⟨.inr (.inr (by simp [Flat, Token.pieces, Token.raw])), ih⟩
  | reference refers rest ih =>
    refine List.forall_mem_cons.2 ⟨.inr (.inr ?_), ih⟩
    have hopening := refers.not_mem_referenceText (c := '(') (by simp)
    have hclosing := refers.not_mem_referenceText (c := ')') (by simp)
    simp [Flat, Token.pieces, Token.raw, hopening, hclosing]
  | plain other rest ih =>
    refine List.forall_mem_cons.2 ⟨.inr (.inr ?_), ih⟩
    simp only [List.mem_cons, List.not_mem_nil, or_false, not_or] at other
    simp [Flat, Token.pieces, Ne.symm other.2.1, Ne.symm other.2.2.1]

namespace Body

variable {ts : List Token} (b : Body ts)

/-- The pieces of some tokens are those of a body, its closing parenthesis and the rest. -/
theorem flatMap_pieces :
    ts.flatMap Token.pieces =
      b.used.flatMap Token.pieces ++ .single ')' :: b.rest.flatMap Token.pieces := by
  refine (congrArg (List.flatMap Token.pieces) b.split).trans ?_
  rw [List.flatMap_append, List.flatMap_cons]
  rfl

/-- What is so of all tokens is so of those behind the body of a filter. -/
theorem forall_mem_rest {P : Token → Prop} (h : ∀ t ∈ ts, P t) : ∀ t ∈ b.rest, P t := by
  intro t ht
  apply h
  rw [b.split]
  exact List.mem_append_right _ (List.mem_cons_of_mem _ ht)

end Body

/-! ## Counting parentheses -/

/-- Depths add up. -/
theorem depth_append (ps qs : List Piece) : depth (ps ++ qs) = depth ps + depth qs := by
  simp only [depth, List.count_append]
  omega

/-- An opening parenthesis adds one to the depth. -/
theorem depth_opening (ps : List Piece) : depth (.single '(' :: ps) = 1 + depth ps :=
  depth_append [.single '('] ps

/-- Flat pieces have no depth. -/
theorem Flat.depth_eq {ps : List Piece} (h : Flat ps) : depth ps = 0 := by
  rw [depth, List.count_eq_zero_of_not_mem h.1, List.count_eq_zero_of_not_mem h.2]
  rfl

/-- No more parentheses are closed than have been opened. -/
def Level (ps : List Piece) : Prop :=
  ∀ front, front <+: ps → 0 ≤ depth front

/-- All parentheses are closed that have been opened, and no others. -/
structure Balanced (ps : List Piece) : Prop where
  level : Level ps
  closes : depth ps = 0

section Counting

variable {ps qs : List Piece}

/-- Level pieces behind level ones are level. -/
theorem Level.append (hps : Level ps) (hqs : Level qs) : Level (ps ++ qs) := by
  rintro front ⟨behind, hsplit⟩
  rcases List.append_eq_append_iff.1 hsplit with ⟨rest, rfl, -⟩ | ⟨rest, rfl, hrest⟩
  · exact hps front (List.prefix_append front rest)
  · have hopen := hps ps List.prefix_rfl
    have hlevel := hqs rest (hrest ▸ List.prefix_append rest behind)
    rw [depth_append]
    omega

/-- Within a parenthesis at least this one is open. -/
theorem Level.depth_pos (h : Level ps) {front : List Piece} (hfront : front <+: .single '(' :: ps)
    (hne : front ≠ []) : 0 < depth front := by
  obtain hnil | ⟨rest, rfl, hrest⟩ := List.prefix_cons_iff.1 hfront
  · exact absurd hnil hne
  · have hlevel := h rest hrest
    rw [depth_opening]
    omega

/-- Level pieces behind an opening parenthesis are level. -/
theorem Level.opening (h : Level ps) : Level (.single '(' :: ps) := by
  intro front hfront
  by_cases hne : front = []
  · rw [hne]
    exact Int.le_refl 0
  · exact Int.le_of_lt (h.depth_pos hfront hne)

namespace Balanced

/-- Flat pieces are balanced. -/
theorem of_flat (h : Flat ps) : Balanced ps := by
  refine ⟨fun front hfront => ?_, h.depth_eq⟩
  have hflat : Flat front :=
    ⟨fun hmem => h.1 (hfront.subset hmem), fun hmem => h.2 (hfront.subset hmem)⟩
  exact Int.le_of_eq hflat.depth_eq.symm

/-- Balanced pieces behind balanced ones are balanced. -/
theorem append (hps : Balanced ps) (hqs : Balanced qs) : Balanced (ps ++ qs) :=
  ⟨hps.level.append hqs.level, by rw [depth_append, hps.closes, hqs.closes]; rfl⟩

/-- A group has no depth. -/
theorem depth_group (h : Balanced ps) :
    depth (.single '(' :: (ps ++ [.single ')'])) = 0 := by
  rw [depth_opening, depth_append, h.closes]
  rfl

/-- Inside a group, its parenthesis is open. -/
theorem depth_pos (h : Balanced ps) {front : List Piece}
    (hfront : front <+: .single '(' :: (ps ++ [.single ')'])) (hnil : front ≠ [])
    (hall : front ≠ .single '(' :: (ps ++ [.single ')'])) : 0 < depth front := by
  refine h.level.depth_pos ?_ hnil
  rw [← List.cons_append] at hfront hall
  exact (List.prefix_concat_iff.1 hfront).resolve_left hall

/-- A group is a parenthesis with what follows up to the one that closes it. -/
theorem encloses (h : Balanced ps) : Encloses (.single '(' :: (ps ++ [.single ')'])) :=
  ⟨rfl, h.depth_group, fun _ => h.depth_pos⟩

/-- A group of balanced pieces is balanced. -/
theorem group (h : Balanced ps) : Balanced (.single '(' :: (ps ++ [.single ')'])) := by
  refine ⟨fun front hfront => ?_, h.depth_group⟩
  by_cases hnil : front = []
  · rw [hnil]
    exact Int.le_refl 0
  by_cases hall : front = .single '(' :: (ps ++ [.single ')'])
  · rw [hall]
    exact Int.le_of_eq h.depth_group.symm
  · exact Int.le_of_lt (h.depth_pos hfront hnil hall)

end Balanced

end Counting

/-- A bar opens and closes nothing. -/
theorem flat_bar : Flat (Token.pieces .bar) := by
  simp [Flat, Token.pieces, Token.raw]

/-- Every parenthesis within a body is closed there. -/
theorem balanced_of_inside {ts : List Token} {b : Body ts} (h : inside ts = some b)
    (hts : ∀ t ∈ ts, t.Parenthesised) : Balanced (b.used.flatMap Token.pieces) := by
  induction ts using inside.induct with
  | case1 => simp [inside] at h
  | case2 ts =>
    rw [inside] at h
    cases h
    exact .of_flat (by simp [Flat])
  | case3 ts ih =>
    rw [inside, Option.map_eq_some_iff] at h
    obtain ⟨c, hc, rfl⟩ := h
    exact (Balanced.of_flat flat_bar).append (ih hc (List.forall_mem_cons.1 hts).2)
  | case4 ts hnone ih =>
    rw [inside, hnone] at h
    cases h
  | case5 ts inner hinner hlength ih ih' =>
    rw [inside, hinner] at h
    obtain ⟨c, hc, rfl⟩ := Option.map_eq_some_iff.1 h
    have hrest := (List.forall_mem_cons.1 hts).2
    have hgroup := (ih hinner hrest).group.append (ih' hc (inner.forall_mem_rest hrest))
    simpa [Token.pieces, Token.raw] using hgroup
  | case6 t ts hclosing hbar hopening ih =>
    rw [inside_cons hopening hclosing hbar, Option.map_eq_some_iff] at h
    obtain ⟨c, hc, rfl⟩ := h
    obtain ⟨ht, hrest⟩ := List.forall_mem_cons.1 hts
    have hflat : Flat t.pieces := (ht.resolve_left hopening).resolve_left hclosing
    exact (Balanced.of_flat hflat).append (ih hc hrest)

/-- Where no body ends, the parenthesis around it is never closed. -/
theorem level_of_inside_none {ts : List Token} (h : inside ts = none)
    (hts : ∀ t ∈ ts, t.Parenthesised) : Level (ts.flatMap Token.pieces) := by
  induction ts using inside.induct with
  | case1 => exact (Balanced.of_flat (by simp [Flat])).level
  | case2 ts =>
    rw [inside] at h
    cases h
  | case3 ts ih =>
    rw [inside, Option.map_eq_none_iff] at h
    exact (Balanced.of_flat flat_bar).level.append (ih h (List.forall_mem_cons.1 hts).2)
  | case4 ts hnone ih => exact (ih hnone (List.forall_mem_cons.1 hts).2).opening
  | case5 ts inner hinner hlength ih ih' =>
    rw [inside, hinner] at h
    have hrest := (List.forall_mem_cons.1 hts).2
    have hgroup := (balanced_of_inside hinner hrest).group.level.append
      (ih' (Option.map_eq_none_iff.1 h) (inner.forall_mem_rest hrest))
    rw [List.flatMap_cons, inner.flatMap_pieces]
    simpa [Token.pieces, Token.raw] using hgroup
  | case6 t ts hclosing hbar hopening ih =>
    rw [inside_cons hopening hclosing hbar, Option.map_eq_none_iff] at h
    obtain ⟨ht, hrest⟩ := List.forall_mem_cons.1 hts
    have hflat : Flat t.pieces := (ht.resolve_left hopening).resolve_left hclosing
    exact (Balanced.of_flat hflat).level.append (ih h hrest)

/-! ## What nodes were read from -/

/-- The pieces of a token make up its text. -/
theorem Token.flatMap_raw_pieces (t : Token) : t.pieces.flatMap Piece.raw = t.raw := by
  cases t with
  | char c escaped => cases escaped <;> rfl
  | reference | opening | closing | bar =>
    simp only [Token.pieces, List.flatMap_map]
    exact List.flatMap_singleton' _

/-- The pieces of a token, without the backslashes of pairs, make up its plain text. -/
theorem Token.flatMap_kept_pieces (t : Token) : t.pieces.flatMap Piece.kept = t.plain := by
  cases t with
  | char c escaped => cases escaped <;> rfl
  | reference | opening | closing | bar =>
    simp only [Token.pieces, List.flatMap_map]
    exact List.flatMap_singleton' _

/-- The pieces of tokens, without the backslashes of pairs, make up their plain text. -/
theorem flatMap_kept_pieces (ts : List Token) :
    (ts.flatMap Token.pieces).flatMap Piece.kept = ts.flatMap Token.plain := by
  simp only [List.flatMap_assoc, Token.flatMap_kept_pieces]

/-- A token that opens no filter comes in front of the nodes of the others. -/
theorem template_cons {t : Token} (h : t ≠ .opening) (ts : List Token) :
    template (t :: ts) = addToken t (template ts) := by
  rw [template]
  exact h

/-- The texts of the filters among nodes in a row. -/
def filterTexts (nodes : List Node) : List (List Char) :=
  (nodes.filter Node.isFilter).map fun n => n.source.toList

/-- The source of nodes is that of the first one and then that of the others. -/
theorem sourceOf_cons (n : Node) (rest : List Node) :
    sourceOf (n :: rest) = n.source ++ sourceOf rest := rfl

/-- The source of text in front of nodes is the text and their source. -/
theorem sourceOf_addText (text : List Char) (nodes : List Node) :
    (sourceOf (addText text nodes)).toList = text ++ (sourceOf nodes).toList := by
  unfold addText
  split
  · rfl
  · simp [sourceOf_cons, Node.source]
  · simp [sourceOf_cons, Node.source]

/-- Text in front of nodes adds no filters. -/
theorem filterTexts_addText (text : List Char) (nodes : List Node) :
    filterTexts (addText text nodes) = filterTexts nodes := by
  unfold addText
  split <;> rfl

/-- The source of a token in front of nodes is its plain text and their source. -/
theorem sourceOf_addToken (t : Token) (nodes : List Node) :
    (sourceOf (addToken t nodes)).toList = t.plain ++ (sourceOf nodes).toList := by
  unfold addToken
  split
  · simp [sourceOf_cons, Node.source, referenceNode, Token.plain, Token.raw]
  · exact sourceOf_addText _ _

/-- A token in front of nodes adds no filters. -/
theorem filterTexts_addToken (t : Token) (nodes : List Node) :
    filterTexts (addToken t nodes) = filterTexts nodes := by
  unfold addToken
  split
  · rfl
  · exact filterTexts_addText _ _

/-- Pieces without an opening parenthesis come in front as stretches of their own. -/
theorem Divides.append {ps qs : List Piece} {ss : List Stretch} (hps : .single '(' ∉ ps)
    (h : Divides qs ss) : Divides (ps ++ qs) (ps.map .outside ++ ss) := by
  induction ps with
  | nil => exact h
  | cons p ps ih =>
    obtain ⟨hp, hrest⟩ := not_or.1 (mt List.mem_cons.2 hps)
    exact .outside (Ne.symm hp) (ih hrest)

/-- Outside filters, what is kept of stretches is what is kept of their pieces. -/
theorem flatMap_kept_outside (ps : List Piece) :
    (ps.map Stretch.outside).flatMap Stretch.kept = ps.flatMap Piece.kept := by
  rw [List.flatMap_map]
  rfl

/-- Outside filters, no stretch is the text of one. -/
theorem filterMap_filter?_outside (ps : List Piece) :
    (ps.map Stretch.outside).filterMap Stretch.filter? = [] := by
  simp [Stretch.filter?]

/-- The nodes of tokens were read from the stretches of the text. -/
theorem exists_divides {ts : List Token} (hts : ∀ t ∈ ts, t.Parenthesised) :
    ∃ ss, Divides (ts.flatMap Token.pieces) ss ∧
      (sourceOf (template ts)).toList = ss.flatMap Stretch.kept ∧
      filterTexts (template ts) = ss.filterMap Stretch.filter? := by
  induction ts using template.induct with
  | case1 =>
    rw [template]
    exact ⟨[], .nil, rfl, rfl⟩
  | case2 ts b hb hlength ih =>
    have hinner := (List.forall_mem_cons.1 hts).2
    obtain ⟨ss, hdivides, hsource, hfilters⟩ := ih (b.forall_mem_rest hinner)
    have hencloses := (balanced_of_inside hb hinner).encloses
    have hraw : b.filter.source.toList = (Stretch.closed
        (.single '(' :: (b.used.flatMap Token.pieces ++ [.single ')']))).raw := by
      simp [Stretch.raw, Body.filter, Node.source, Piece.raw, List.flatMap_assoc,
        Token.flatMap_raw_pieces]
    refine ⟨.closed (.single '(' :: (b.used.flatMap Token.pieces ++ [.single ')'])) :: ss,
      ?_, ?_, ?_⟩
    · have hall : (Token.opening :: ts).flatMap Token.pieces =
          .single '(' :: (b.used.flatMap Token.pieces ++ [.single ')']) ++
            b.rest.flatMap Token.pieces := by
        rw [List.flatMap_cons, b.flatMap_pieces]
        simp [Token.pieces, Token.raw]
      rw [hall]
      exact .closed hencloses hdivides
    · rw [template, hb]
      dsimp only
      rw [sourceOf_cons, String.toList_append, hsource, hraw]
      rfl
    · rw [template, hb]
      dsimp only
      rw [filterTexts, List.filter_cons_of_pos rfl, List.map_cons, ← filterTexts, hfilters, hraw]
      rfl
  | case3 ts hnone =>
    -- nothing closes this parenthesis, so no front of what follows comes back to the level before
    -- it
    have hlevel := level_of_inside_none hnone (List.forall_mem_cons.1 hts).2
    have hnever : ∀ front, front <+: .single '(' :: ts.flatMap Token.pieces → ¬ Encloses front := by
      intro front hfront hencloses
      have hopen := hlevel.depth_pos hfront hencloses.ne_nil
      rw [hencloses.closes] at hopen
      exact Int.lt_irrefl 0 hopen
    have hdivides : Divides ((Token.opening :: ts).flatMap Token.pieces)
        ((.single '(' :: ts.flatMap Token.pieces).map .outside) := .unclosed hnever
    refine ⟨_, hdivides, ?_, ?_⟩
    · have hkept : (Piece.single '(' :: ts.flatMap Token.pieces).flatMap Piece.kept =
          Token.opening.plain ++ ts.flatMap Token.plain := flatMap_kept_pieces (.opening :: ts)
      rw [template, hnone, flatMap_kept_outside, hkept]
      simp [sourceOf, Node.source]
    · rw [template, hnone, filterMap_filter?_outside]
      rfl
  | case4 t ts hopening ih =>
    obtain ⟨ht, hrest⟩ := List.forall_mem_cons.1 hts
    obtain ⟨ss, hdivides, hsource, hfilters⟩ := ih hrest
    have hnot : .single '(' ∉ t.pieces := by
      rcases ht.resolve_left hopening with rfl | hflat
      · simp [Token.pieces, Token.raw]
      · exact hflat.1
    refine ⟨_, hdivides.append hnot, ?_, ?_⟩
    · rw [template_cons hopening, sourceOf_addToken, List.flatMap_append, flatMap_kept_outside,
        t.flatMap_kept_pieces, hsource]
    · rw [template_cons hopening, filterTexts_addToken, List.filterMap_append,
        filterMap_filter?_outside, hfilters]
      rfl

/-- Where there are no pairs, nothing is left out. -/
theorem Divides.flatMap_kept {ps : List Piece} {ss : List Stretch} (h : Divides ps ss)
    (hkept : ∀ p ∈ ps, p.kept = p.raw) : ss.flatMap Stretch.kept = ps.flatMap Piece.raw := by
  induction h with
  | nil => rfl
  | closed _ _ ih =>
    rw [List.flatMap_cons, List.flatMap_append,
      ih fun p hp => hkept p (List.mem_append_right _ hp)]
    rfl
  | unclosed =>
    rw [flatMap_kept_outside]
    exact List.flatMap_congr hkept
  | outside _ _ ih =>
    obtain ⟨hp, hps⟩ := List.forall_mem_cons.1 hkept
    rw [List.flatMap_cons, List.flatMap_cons, ih hps, ← hp]
    rfl

/-- The pieces of a text are divided into stretches that keep the source of the template, and among
which its filters are. -/
theorem divides_parse (text : String) :
    ∃ ss, Divides (pieces text.toList) ss ∧
      (sourceOf (parse text)).toList = ss.flatMap Stretch.kept ∧
      filterTexts (parse text) = ss.filterMap Stretch.filter? := by
  have hlexes := lexes_tokens text.toList
  rw [parse, ofTokens_eq_template, ← hlexes.flatMap_pieces]
  exact exists_divides hlexes.parenthesised

/-- A text without a backslash is kept as it is. -/
theorem sourceOf_parse_of_plain {text : String} (h : '\\' ∉ text.toList) :
    sourceOf (parse text) = text := by
  obtain ⟨ss, hdivides, hsource, -⟩ := divides_parse text
  have hpieces := pieces_append h []
  rw [List.append_nil] at hpieces
  have hkept : ∀ p ∈ pieces text.toList, p.kept = p.raw := by
    rw [hpieces]
    simp [pieces, Piece.kept, Piece.raw]
  rw [← String.toList_inj, hsource, hdivides.flatMap_kept hkept, flatMap_raw_pieces]

/-- **Parsing loses no text.** Every text is divided in one way into the filters that stand outside
all others and the pieces around them, and the stretches are the text. What the nodes outside all
filters were read from is, one after the other, the text with each escape pair outside the filters
replaced by its second character, and everything else kept, the whole text of the filters included.
The filters among these nodes were read from the filters of the text. A text without a backslash is
kept as it is. -/
theorem sourceOf_parse (text : String) :
    ∃ ss, (∀ ss', Divides (pieces text.toList) ss' ↔ ss' = ss) ∧
      ss.flatMap Stretch.raw = text.toList ∧
      (sourceOf (parse text)).toList = ss.flatMap Stretch.kept ∧
      filterTexts (parse text) = ss.filterMap Stretch.filter? ∧
      ('\\' ∉ text.toList → sourceOf (parse text) = text) := by
  obtain ⟨ss, hdivides, hsource, hfilters⟩ := divides_parse text
  have hraw := hdivides.flatMap_raw.trans (flatMap_raw_pieces text.toList)
  exact ⟨ss, fun ss' => ⟨fun h => h.unique hdivides, fun h => h ▸ hdivides⟩, hraw, hsource,
    hfilters, sourceOf_parse_of_plain⟩

end ChatBot.Template
