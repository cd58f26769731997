import ChatBot.Proofs.Template.Grammar
import ChatBot.Proofs.Template.Scanner

/-!
# A scan lays out the template

What a scan over a template text gives, against the recursive parser. The body of a parenthesis is
laid out segment by segment behind what was there, wherever the parenthesis was opened
(`Scanner.readsBody`); where nothing closes a parenthesis, all that was there before it stays as it
was (`Scanner.tokens?_of_inside_none`). Main statement: a scan is never at fault, and it gives the
numbered form of the nodes that the text is parsed to (`scan?_eq`).
-/

set_option autoImplicit false

namespace ChatBot.Template

open Text

/-! ## Laying out nodes -/

/-- Nodes in a row are laid out one part after the other. -/
theorem slotsOfNodes_append (next : Nat) (front back : List Node) :
    slotsOfNodes next (front ++ back) =
      ((slotsOfNodes next front).1 ++
          (slotsOfNodes (next + (slotsOfNodes next front).1.length) back).1,
        (slotsOfNodes next front).2 ++
          (slotsOfNodes (next + (slotsOfNodes next front).1.length) back).2) := by
  induction front generalizing next with
  | nil => rfl
  | cons n front ih =>
    simp only [List.cons_append, slotsOfNodes, ih, List.length_append, List.append_assoc,
      Nat.add_assoc]

namespace Layout

/-- Lays nodes out at the end of the innermost row. -/
def put (l : Layout) (nodes : List Node) : Layout :=
  let laid := slotsOfNodes l.slots.length nodes
  { l with slots := l.slots ++ laid.1 }.link laid.2

/-- Lays out the rest of the current segment of the innermost parenthesis, and more segments. -/
def putSegments (l : Layout) : List (List Node) → Layout
  | [] => l
  | row :: rest => rest.foldl (fun l row => l.nextRow.put row) (l.put row)

variable {l : Layout}

/-- Linking no numbers changes nothing. -/
theorem link_nil (l : Layout) : l.link [] = l := by
  obtain ⟨slots, root, stack⟩ := l
  cases stack <;> simp [link]

/-- Numbers are linked one list after the other. -/
theorem link_link (l : Layout) (ids more : List Nat) :
    (l.link ids).link more = l.link (ids ++ more) := by
  obtain ⟨slots, root, stack⟩ := l
  cases stack <;> simp [link]

/-- Linking numbers adds no slots. -/
theorem link_slots (l : Layout) (ids : List Nat) : (l.link ids).slots = l.slots := by
  obtain ⟨slots, root, stack⟩ := l
  cases stack <;> rfl

/-- Linking numbers opens and closes no parenthesis. -/
theorem link_stack_eq_nil (l : Layout) (ids : List Nat) :
    (l.link ids).stack = [] ↔ l.stack = [] := by
  obtain ⟨slots, root, stack⟩ := l
  cases stack <;> simp [link]

/-- Laying nodes out adds their slots behind the others. -/
theorem put_slots (l : Layout) (nodes : List Node) :
    (l.put nodes).slots = l.slots ++ (slotsOfNodes l.slots.length nodes).1 :=
  link_slots _ _

/-- Laying nodes out opens and closes no parenthesis. -/
theorem put_stack_eq_nil (l : Layout) (nodes : List Node) :
    (l.put nodes).stack = [] ↔ l.stack = [] :=
  link_stack_eq_nil _ _

/-- Laying no nodes out changes nothing. -/
theorem put_nil (l : Layout) : l.put [] = l := by
  change { l with slots := l.slots ++ [] }.link [] = l
  rw [List.append_nil, link_nil]

/-- Slots that are added leave the rows as they are. -/
theorem link_with_slots (l : Layout) (ids : List Nat) (slots : List Slot) :
    { l.link ids with slots := slots } = { l with slots := slots }.link ids := by
  obtain ⟨_, root, stack⟩ := l
  cases stack <;> rfl

/-- Nodes are laid out one list after the other. -/
theorem put_put (l : Layout) (nodes more : List Node) :
    (l.put nodes).put more = l.put (nodes ++ more) := by
  rw [put.eq_def (l.put nodes), put_slots, List.length_append]
  simp only [put, link_with_slots, link_link, slotsOfNodes_append, List.append_assoc]

/-- Adding the one slot of a node is laying it out. -/
theorem push_eq_put {slot : Slot} {n : Node} (h : ∀ next, slotsOf next n = [slot]) (l : Layout) :
    l.push slot = l.put [n] := by
  simp [push, put, slotsOfNodes, h]

/-- Behind an opening parenthesis one is open. -/
theorem opened_stack_ne_nil (l : Layout) (i : Nat) : (l.opened i).stack ≠ [] :=
  List.cons_ne_nil _ _

/-- Behind a bar the parenthesis is still open. -/
theorem nextRow_stack_ne_nil (h : l.stack ≠ []) : l.nextRow.stack ≠ [] := by
  obtain ⟨slots, root, stack⟩ := l
  cases stack with
  | nil => exact absurd rfl h
  | cons f below => simp [nextRow]

/-- Nodes laid out in front are the beginning of the first segment. -/
theorem put_putSegments (l : Layout) (nodes row : List Node) (rest : List (List Node)) :
    (l.put nodes).putSegments (row :: rest) = l.putSegments ((nodes ++ row) :: rest) := by
  rw [putSegments, putSegments, put_put]

/-- Segments are laid out one after the other, each in a row of its own. -/
theorem putSegments_cons_cons (l : Layout) (row next : List Node) (rest : List (List Node)) :
    l.putSegments (row :: next :: rest) = (l.put row).nextRow.putSegments (next :: rest) := rfl

/-- What segments add to the layout within a parenthesis. -/
theorem putSegments_eq (f : Frame) (below : List Frame) (slots : List Slot) (root : List Nat)
    (row : List Node) (rest : List (List Node)) :
    ∃ g : Frame, putSegments ⟨slots, root, f :: below⟩ (row :: rest) =
        ⟨slots ++ (slotsOfSegments slots.length (row :: rest)).1, root, g :: below⟩ ∧
      g.start = f.start ∧ g.mark = f.mark ∧
      ∃ first others, (slotsOfSegments slots.length (row :: rest)).2 = first :: others ∧
        g.segments = f.finished ++ (f.row ++ first) :: others := by
  induction rest generalizing slots f row with
  | nil =>
    refine ⟨{ f with row := f.row ++ (slotsOfNodes slots.length row).2 }, ?_, rfl, rfl, _, _, rfl,
      rfl⟩
    simp [putSegments, put, link, slotsOfSegments]
  | cons next rest ih =>
    obtain ⟨g, hput, hstart, hmark, first, others, hids, hsegments⟩ :=
      ih { f with
          finished := f.finished ++ [f.row ++ (slotsOfNodes slots.length row).2], row := [] }
        (slots ++ (slotsOfNodes slots.length row).1) next
    rw [List.length_append] at hput hids
    refine ⟨g, ?_, hstart, hmark, (slotsOfNodes slots.length row).2, first :: others, ?_, ?_⟩
    · rw [putSegments_cons_cons]
      refine Eq.trans hput ?_
      simp [slotsOfSegments.eq_def slots.length]
    · rw [slotsOfSegments]
      simp only [hids]
    · simpa using hsegments

end Layout

/-! ## The scan follows the grammar -/

/-- A body has at least one segment. -/
theorem inside_segments {ts : List Token} {b : Body ts} (h : inside ts = some b) :
    ∃ row rest, b.segments = row :: rest := by
  induction ts using inside.induct with
  | case1 => simp [inside] at h
  | case2 ts =>
    rw [inside] at h
    cases h
    exact ⟨_, _, rfl⟩
  | case3 ts ih =>
    rw [inside, Option.map_eq_some_iff] at h
    obtain ⟨c, -, rfl⟩ := h
    exact ⟨_, _, rfl⟩
  | case4 ts hnone ih =>
    rw [inside, hnone] at h
    cases h
  | case5 ts inner hinner hlength ih ih' =>
    rw [inside, hinner] at h
    obtain ⟨c, hc, rfl⟩ := Option.map_eq_some_iff.1 h
    obtain ⟨row, rest, hsegments⟩ := ih' hc
    exact ⟨_, _, congrArg (onFirst _) hsegments⟩
  | case6 t ts hclosing hbar hopening ih =>
    rw [inside_cons hopening hclosing hbar, Option.map_eq_some_iff] at h
    obtain ⟨c, hc, rfl⟩ := h
    obtain ⟨row, rest, hsegments⟩ := ih hc
    exact ⟨_, _, congrArg (onFirst _) hsegments⟩

/-- No text in front of the first segment changes nothing. -/
theorem onFirst_addText_nil (segments : List (List Node)) :
    onFirst (addText []) segments = segments := by
  cases segments <;> rfl

namespace Scanner

/-- Making a node of the plain text lays it out, if there is any. -/
theorem flush_mk (l : Layout) (literal pending : List Char) :
    (⟨l, literal, pending⟩ : Scanner).flush = ⟨l.put (addText literal []), [], pending⟩ := by
  cases literal with
  | nil => rw [addText_nil, Layout.put_nil]; rfl
  | cons c cs =>
    change (⟨l.push _, [], pending⟩ : Scanner) = _
    rw [Layout.push_eq_put (n := .literal (String.ofList (c :: cs))) fun _ => rfl]
    rfl

/-- In a parenthesis, plain text is noted on the side. -/
theorem hold_open {l : Layout} (h : l.stack ≠ []) (literal pending cs : List Char) :
    (⟨l, literal, pending⟩ : Scanner).hold cs = ⟨l, literal, pending ++ cs⟩ :=
  if_neg (by simpa using h)

/-- Outside all parentheses, plain text is not noted. -/
theorem hold_root {l : Layout} (h : l.stack = []) (literal pending cs : List Char) :
    (⟨l, literal, pending⟩ : Scanner).hold cs = ⟨l, literal, pending⟩ :=
  if_pos (by simpa using h)

/-- Reading an opening parenthesis lays out the plain text before it, and opens. -/
theorem openAt_mk (l : Layout) (literal pending : List Char) (i : Nat) :
    (⟨l, literal, pending⟩ : Scanner).openAt i =
      ⟨(l.put (addText literal [])).opened i, [], pending ++ ['(']⟩ := by
  rw [openAt, flush_mk]
  exact hold_open (Layout.opened_stack_ne_nil _ _) _ _ _

section Open

variable {l : Layout} (h : l.stack ≠ []) (literal pending : List Char)
include h

/-- Reading a closing parenthesis lays out the plain text before it, and makes a node. -/
theorem closeAt?_open (input : List Char) (i : Nat) :
    (⟨l, literal, pending⟩ : Scanner).closeAt? input i =
      pop? input i ⟨l.put (addText literal []), [], pending ++ [')']⟩ := by
  rw [closeAt?, flush_mk, hold_open (mt (Layout.put_stack_eq_nil _ _).1 h)]

/-- Reading a bar in a parenthesis lays out the plain text before it, and starts a row. -/
theorem bar_open :
    (⟨l, literal, pending⟩ : Scanner).bar =
      ⟨(l.put (addText literal [])).nextRow, [], pending ++ ['|']⟩ := by
  rw [bar, flush_mk]
  exact hold_open (Layout.nextRow_stack_ne_nil (mt (Layout.put_stack_eq_nil _ _).1 h)) _ _ _

end Open

/-- A reference is laid out behind the plain text before it. -/
theorem addReference_mk (silent persisted : Bool) (identifier : List Char) (l : Layout)
    (literal pending : List Char) :
    (⟨l, literal, pending⟩ : Scanner).addReference (referenceSlot silent persisted identifier)
        (Token.referenceText silent persisted identifier) =
      ⟨l.put (addText literal [] ++ [referenceNode silent persisted identifier]), [],
        ((⟨l, literal, pending⟩ : Scanner).hold
          (Token.referenceText silent persisted identifier)).pending⟩ := by
  rw [addReference, flush_mk, ← Layout.put_put, ← Layout.push_eq_put fun _ => rfl]
  by_cases h : l.stack = []
  · rw [hold_root h, hold_root ((Layout.put_stack_eq_nil _ _).2 h)]
    rfl
  · rw [hold_open h, hold_open (mt (Layout.put_stack_eq_nil _ _).1 h)]
    rfl

/-- The body of a parenthesis is read up to the parenthesis that closes it. -/
def ReadsBody (input : List Char) {ts : List Token} (b : Body ts) : Prop :=
  ∀ (used : List Char) (l : Layout) (literal pending : List Char),
    input = used ++ ts.flatMap Token.raw → l.stack ≠ [] →
    tokens? input (byteLength used) ts ⟨l, literal, pending⟩ =
      (pop? input (byteLength (used ++ b.used.flatMap Token.raw))
        ⟨l.putSegments (onFirst (addText literal) b.segments), [],
          pending ++ b.used.flatMap Token.plain ++ [')']⟩).bind fun s =>
        tokens? input (byteLength (used ++ b.used.flatMap Token.raw ++ [')'])) b.rest s

/-- When a parenthesis is closed, its filter is laid out where it was opened. -/
theorem pop?_filter {input : List Char} {ts : List Token} {b : Body ts} (hb : inside ts = some b)
    {start i : Nat} (hslice : slice? input start (i + 1) =
      some ('(' :: (b.used.flatMap Token.raw ++ [')'])))
    (l : Layout) (pending : List Char) :
    pop? input i ⟨(l.opened start).putSegments b.segments, [], pending⟩ =
      some ⟨l.put [b.filter], [], if l.stack.isEmpty then [] else pending⟩ := by
  obtain ⟨row, rest, hsegments⟩ := inside_segments hb
  obtain ⟨g, hput, hstart, -, first, others, hids, hg⟩ :=
    Layout.putSegments_eq { start, mark := l.slots.length } l.stack l.slots l.root row rest
  rw [hsegments, Layout.opened, hput]
  simp only [List.nil_append] at hg
  rw [← hids] at hg
  have hstack : g.start = start := hstart
  simp only [pop?, hstack, hslice, hg, Body.filter, hsegments]
  simp [Layout.put, Layout.push, slotsOfNodes, slotsOf]

/-- A filter is read from one parenthesis to the other. -/
theorem ReadsBody.filter {input : List Char} {ts : List Token} {b : Body ts}
    (hreads : ReadsBody input b) (hb : inside ts = some b) {used : List Char}
    (hinput : input = used ++ '(' :: ts.flatMap Token.raw) (l : Layout)
    (literal pending : List Char) :
    tokens? input (byteLength used) (.opening :: ts) ⟨l, literal, pending⟩ =
      tokens? input (byteLength (used ++ '(' :: (b.used.flatMap Token.raw ++ [')']))) b.rest
        ⟨l.put (addText literal [] ++ [b.filter]), [],
          if l.stack.isEmpty then []
          else pending ++ '(' :: (b.used.flatMap Token.plain ++ [')'])⟩ := by
  have hbody := hreads (used ++ ['(']) ((l.put (addText literal [])).opened (byteLength used)) []
    (pending ++ ['(']) (by simp [hinput]) (Layout.opened_stack_ne_nil _ _)
  have hslice : slice? input (byteLength used)
      (byteLength (used ++ ['('] ++ b.used.flatMap Token.raw) + 1) =
        some ('(' :: (b.used.flatMap Token.raw ++ [')'])) := by
    have htext : input = used ++ '(' :: (b.used.flatMap Token.raw ++ [')']) ++
        b.rest.flatMap Token.raw := by
      rw [hinput, congrArg (List.flatMap Token.raw) b.split]
      simp [Token.raw]
    have hstop : byteLength (used ++ ['('] ++ b.used.flatMap Token.raw) + 1 =
        byteLength (used ++ '(' :: (b.used.flatMap Token.raw ++ [')'])) := by
      simp [Nat.add_assoc]
      rfl
    rw [htext, hstop]
    exact slice?_append used _ _
  have hpop := pop?_filter hb hslice (l.put (addText literal []))
    (pending ++ '(' :: (b.used.flatMap Token.plain ++ [')']))
  have hroot : (l.put (addText literal [])).stack.isEmpty = l.stack.isEmpty := by
    rw [Bool.eq_iff_iff, List.isEmpty_iff, List.isEmpty_iff, Layout.put_stack_eq_nil]
  rw [Layout.put_put, hroot] at hpop
  rw [onFirst_addText_nil] at hbody
  simp only [List.append_assoc, List.cons_append, List.nil_append] at hbody hpop
  rw [tokens?, token?, openAt_mk, Option.bind_some, Token.raw, ← byteLength_append, hbody, hpop,
    Option.bind_some]

/-- The body of every parenthesis is read up to the one that closes it, by induction on
the tokens. -/
theorem readsBody {input : List Char} {ts : List Token} {b : Body ts} (h : inside ts = some b) :
    ReadsBody input b := by
  -- `ReadsBody` speaks of every layout and every text held, so that each case may change both
  induction ts using inside.induct with
  | case1 => simp [inside] at h
  | case2 ts =>
    rw [inside] at h
    cases h
    intro used l literal pending hinput hl
    rw [tokens?, token?, if_neg hl, closeAt?_open hl]
    simp [onFirst, Layout.putSegments, Token.raw]
  | case3 ts ih =>
    rw [inside, Option.map_eq_some_iff] at h
    obtain ⟨c, hc, rfl⟩ := h
    intro used l literal pending hinput hl
    obtain ⟨row, rest, hsegments⟩ := inside_segments hc
    have hread := ih hc (used ++ ['|']) (l.put (addText literal [])).nextRow [] (pending ++ ['|'])
      (by simp [hinput, Token.raw])
      (Layout.nextRow_stack_ne_nil (mt (Layout.put_stack_eq_nil _ _).1 hl))
    rw [onFirst_addText_nil, hsegments, ← Layout.putSegments_cons_cons, ← hsegments] at hread
    rw [tokens?, token?, if_neg hl, bar_open hl, Option.bind_some, Token.raw, ← byteLength_append,
      hread]
    simp [onFirst, Token.raw, Token.plain]
  | case4 ts hnone ih =>
    rw [inside, hnone] at h
    cases h
  | case5 ts inner hinner hlength ih ih' =>
    rw [inside, hinner] at h
    obtain ⟨c, hc, rfl⟩ := Option.map_eq_some_iff.1 h
    intro used l literal pending hinput hl
    obtain ⟨row, rest, hsegments⟩ := inside_segments hc
    have hinput' : input = used ++ '(' :: ts.flatMap Token.raw := hinput
    rw [(ih hinner).filter hinner hinput', if_neg (by simpa using hl)]
    have hread := ih' hc (used ++ '(' :: (inner.used.flatMap Token.raw ++ [')']))
      (l.put (addText literal [] ++ [inner.filter])) []
      (pending ++ '(' :: (inner.used.flatMap Token.plain ++ [')']))
      (by rw [hinput', congrArg (List.flatMap Token.raw) inner.split]; simp [Token.raw])
      (mt (Layout.put_stack_eq_nil _ _).1 hl)
    rw [onFirst_addText_nil, hsegments, Layout.put_putSegments] at hread
    rw [hread]
    have hrow : addText literal (inner.filter :: row) =
        addText literal [] ++ [inner.filter] ++ row := by
      rw [addText_cons rfl, List.append_assoc, List.singleton_append]
    simp only [hsegments, onFirst, hrow]
    simp [Token.raw, Token.plain]
  | case6 t ts hclosing hbar hopening ih =>
    rw [inside_cons hopening hclosing hbar, Option.map_eq_some_iff] at h
    obtain ⟨c, hc, rfl⟩ := h
    intro used l literal pending hinput hl
    obtain ⟨row, rest, hsegments⟩ := inside_segments hc
    cases t with
    | opening => exact absurd rfl hopening
    | closing => exact absurd rfl hclosing
    | bar => exact absurd rfl hbar
    | char x escaped =>
      have hread := ih hc (used ++ (Token.char x escaped).raw) l (literal ++ [x]) (pending ++ [x])
        (by simp [hinput]) hl
      have hadd : (⟨l, literal, pending⟩ : Scanner).addChar x =
          ⟨l, literal ++ [x], pending ++ [x]⟩ := hold_open hl _ _ _
      have hrow : addText (literal ++ [x]) row = addText literal (addText [x] row) :=
        addText_append _ _ _
      rw [tokens?, token?, Option.bind_some, hadd, ← byteLength_append, hread]
      simp [hsegments, onFirst, hrow, addToken, Token.plain]
    | reference silent persisted identifier =>
      have hadd := addReference_mk silent persisted identifier l literal pending
      rw [hold_open hl] at hadd
      have hread := ih hc (used ++ Token.referenceText silent persisted identifier)
        (l.put (addText literal [] ++ [referenceNode silent persisted identifier])) []
        (pending ++ Token.referenceText silent persisted identifier)
        (by simp [hinput, Token.raw]) (mt (Layout.put_stack_eq_nil _ _).1 hl)
      rw [onFirst_addText_nil, hsegments, Layout.put_putSegments] at hread
      have hrow : addText literal (referenceNode silent persisted identifier :: row) =
          addText literal [] ++ [referenceNode silent persisted identifier] ++ row := by
        rw [addText_cons rfl, List.append_assoc, List.singleton_append]
      rw [tokens?, token?, Option.bind_some, hadd, Token.raw, ← byteLength_append, hread]
      simp [hsegments, onFirst, hrow, addToken, Token.plain, Token.raw]

end Scanner

/-! ## Parentheses that are never closed -/

namespace Layout

/-- What was there before the outermost open parenthesis is left as it was. -/
structure Stays (l l' : Layout) : Prop where
  root : l'.root = l.root
  slots : l.slots <+: l'.slots
  outer : l'.stack.getLast?.map Frame.mark = l.stack.getLast?.map Frame.mark

variable {l l' l'' : Layout}

/-- A layout leaves itself as it was. -/
theorem Stays.refl (l : Layout) : l.Stays l := ⟨rfl, List.prefix_rfl, rfl⟩

/-- What is left as it was twice in a row is so altogether. -/
theorem Stays.trans (h : l.Stays l') (h' : l'.Stays l'') : l.Stays l'' :=
  ⟨h'.root.trans h.root, h.slots.trans h'.slots, h'.outer.trans h.outer⟩

/-- Laying nodes out in a parenthesis leaves what was before it. -/
theorem stays_put (h : l.stack ≠ []) (nodes : List Node) : l.Stays (l.put nodes) := by
  refine ⟨?_, put_slots l nodes ▸ List.prefix_append _ _, ?_⟩ <;>
  · obtain ⟨slots, root, stack⟩ := l
    match stack with
    | [] => exact absurd rfl h
    | [f] => rfl
    | f :: g :: below => rfl

/-- A bar leaves what was before the parenthesis. -/
theorem stays_nextRow (l : Layout) : l.Stays l.nextRow := by
  obtain ⟨slots, root, stack⟩ := l
  match stack with
  | [] => exact .refl _
  | [f] => exact ⟨rfl, List.prefix_rfl, rfl⟩
  | f :: g :: below => exact ⟨rfl, List.prefix_rfl, rfl⟩

/-- Another opening parenthesis leaves what was before the outermost one. -/
theorem stays_opened (h : l.stack ≠ []) (i : Nat) : l.Stays (l.opened i) := by
  obtain ⟨g, below, hstack⟩ := List.exists_cons_of_ne_nil h
  refine ⟨rfl, List.prefix_rfl, ?_⟩
  simp [opened, hstack]

end Layout

namespace Scanner

/-- If nothing closes a parenthesis, the scan goes on to the end within it, and holds the plain
text. -/
theorem tokens?_of_inside_none {input : List Char} {ts : List Token} (h : inside ts = none)
    {used : List Char} (hinput : input = used ++ ts.flatMap Token.raw) {l : Layout}
    (hl : l.stack ≠ []) (literal pending : List Char) :
    ∃ l' literal', tokens? input (byteLength used) ts ⟨l, literal, pending⟩ =
      some ⟨l', literal', pending ++ ts.flatMap Token.plain⟩ ∧ l.Stays l' := by
  induction ts using inside.induct generalizing used l literal pending with
  | case1 => exact ⟨l, literal, by simp [tokens?], .refl l⟩
  | case2 ts =>
    rw [inside] at h
    cases h
  | case3 ts ih =>
    rw [inside, Option.map_eq_none_iff] at h
    have hput := mt (Layout.put_stack_eq_nil l (addText literal [])).1 hl
    have hnext : input = (used ++ ['|']) ++ ts.flatMap Token.raw := by simp [hinput, Token.raw]
    obtain ⟨l', literal', hread, hstays⟩ :=
      ih h hnext (Layout.nextRow_stack_ne_nil hput) [] (pending ++ ['|'])
    refine ⟨l', literal', ?_, (Layout.stays_put hl _).trans ((Layout.stays_nextRow _).trans hstays)⟩
    rw [tokens?, token?, if_neg hl, bar_open hl, Option.bind_some, Token.raw, ← byteLength_append,
      hread]
    simp [Token.plain, Token.raw]
  | case4 ts hnone ih =>
    -- the parenthesis that opens here is not closed either, and its frame stays on the stack
    have hput := mt (Layout.put_stack_eq_nil l (addText literal [])).1 hl
    have hopened := Layout.stays_opened hput (byteLength used)
    have hnext : input = (used ++ ['(']) ++ ts.flatMap Token.raw := by simp [hinput, Token.raw]
    obtain ⟨l', literal', hread, hstays⟩ :=
      ih hnone hnext (Layout.opened_stack_ne_nil _ _) [] (pending ++ ['('])
    refine ⟨l', literal', ?_, (Layout.stays_put hl _).trans (hopened.trans hstays)⟩
    rw [tokens?, token?, openAt_mk, Option.bind_some, Token.raw, ← byteLength_append, hread]
    simp [Token.plain, Token.raw]
  | case5 ts inner hinner hlength ih ih' =>
    rw [inside, hinner] at h
    have hinput' : input = used ++ '(' :: ts.flatMap Token.raw := hinput
    have hnext : input = (used ++ '(' :: (inner.used.flatMap Token.raw ++ [')'])) ++
        inner.rest.flatMap Token.raw := by
      rw [hinput', congrArg (List.flatMap Token.raw) inner.split]
      simp [Token.raw]
    obtain ⟨l', literal', hread, hstays⟩ := ih' (Option.map_eq_none_iff.1 h) hnext
      (mt (Layout.put_stack_eq_nil l (addText literal [] ++ [inner.filter])).1 hl) []
      (pending ++ '(' :: (inner.used.flatMap Token.plain ++ [')']))
    refine ⟨l', literal', ?_, (Layout.stays_put hl _).trans hstays⟩
    rw [(readsBody hinner).filter hinner hinput', if_neg (by simpa using hl), hread,
      List.flatMap_cons, inner.flatMap_plain]
    simp [Token.plain, Token.raw]
  | case6 t ts hclosing hbar hopening ih =>
    rw [inside_cons hopening hclosing hbar, Option.map_eq_none_iff] at h
    cases t with
    | opening => exact absurd rfl hopening
    | closing => exact absurd rfl hclosing
    | bar => exact absurd rfl hbar
    | char x escaped =>
      have hnext : input = (used ++ (Token.char x escaped).raw) ++ ts.flatMap Token.raw := by
        simp [hinput]
      obtain ⟨l', literal', hread, hstays⟩ := ih h hnext hl (literal ++ [x]) (pending ++ [x])
      have hadd : (⟨l, literal, pending⟩ : Scanner).addChar x =
          ⟨l, literal ++ [x], pending ++ [x]⟩ := hold_open hl _ _ _
      refine ⟨l', literal', ?_, hstays⟩
      rw [tokens?, token?, Option.bind_some, hadd, ← byteLength_append, hread]
      simp [Token.plain]
    | reference silent persisted identifier =>
      have hadd := addReference_mk silent persisted identifier l literal pending
      rw [hold_open hl] at hadd
      have hnext : input = (used ++ Token.referenceText silent persisted identifier) ++
          ts.flatMap Token.raw := by
        simp [hinput, Token.raw]
      obtain ⟨l', literal', hread, hstays⟩ := ih h hnext
        (mt (Layout.put_stack_eq_nil l (addText literal [] ++
          [referenceNode silent persisted identifier])).1 hl) []
        (pending ++ Token.referenceText silent persisted identifier)
      refine ⟨l', literal', ?_, (Layout.stays_put hl _).trans hstays⟩
      rw [tokens?, token?, Option.bind_some, hadd, Token.raw, ← byteLength_append, hread]
      simp [Token.plain, Token.raw]

end Scanner

/-! ## The whole text -/

/-- Whether a slot holds plain text. -/
def Slot.isLiteral : Slot → Bool
  | .literal _ => true
  | _ => false

/-- The last slot of a node is its own. -/
theorem slotsOf_eq_append (next : Nat) (n : Node) :
    ∃ parts slot, slotsOf next n = parts ++ [slot] ∧ slot.isLiteral = n.isLiteral := by
  cases n with
  | literal text => exact ⟨[], _, rfl, rfl⟩
  | reference name silent persisted source => exact ⟨[], _, rfl, rfl⟩
  | filter segments source => exact ⟨_, _, rfl, rfl⟩

namespace Layout

/-- The last node outside all parentheses is there, and is no plain text. -/
def EndsApart (l : Layout) : Prop :=
  ∀ last ∈ l.root.getLast?, ∃ slot, l.slots[last]? = some slot ∧ slot.isLiteral = false

/-- Outside all parentheses, nodes are laid out at the end of the root. -/
theorem put_root {l : Layout} (h : l.stack = []) (nodes : List Node) :
    l.put nodes = ⟨l.slots ++ (slotsOfNodes l.slots.length nodes).1,
      l.root ++ (slotsOfNodes l.slots.length nodes).2, []⟩ := by
  obtain ⟨slots, root, stack⟩ := l
  subst h
  rfl

/-- Behind a node that is no literal text, the layout ends apart. -/
theorem endsApart_put {l : Layout} (h : l.stack = []) (nodes : List Node) {n : Node}
    (hn : n.isLiteral = false) : (l.put (nodes ++ [n])).EndsApart := by
  obtain ⟨parts, slot, hslots, hslot⟩ := slotsOf_eq_append (l.put nodes).slots.length n
  rw [← put_put, put_root ((put_stack_eq_nil l nodes).2 h)]
  intro last hlast
  simp only [slotsOfNodes, hslots, List.getLast?_append, List.getLast?_singleton, Option.mem_def,
    Option.some_or, Option.some.injEq] at hlast ⊢
  refine ⟨slot, ?_, hslot.trans hn⟩
  subst hlast
  simp

end Layout

namespace Scanner

/-- The plain text at the end goes on with the plain text before it. -/
theorem settle?_put {l : Layout} (h : l.stack = []) (hends : l.EndsApart) (literal : List Char)
    {tail : List Char} (htail : tail ≠ []) :
    settle? (l.put (addText literal [])) tail =
      some (l.put (addText literal [.literal (String.ofList tail)])) := by
  obtain ⟨c, cs, rfl⟩ := List.exists_cons_of_ne_nil htail
  cases literal with
  | nil =>
    have hflush : (⟨l, c :: cs, []⟩ : Scanner).flush.laid =
        l.put [.literal (String.ofList (c :: cs))] := by
      rw [flush_mk]
      rfl
    rw [addText_nil, addText_nil, Layout.put_nil, settle?]
    split
    · rw [hflush]
    · rename_i last hlast
      obtain ⟨slot, hslot, hliteral⟩ := hends last hlast
      rw [hslot]
      cases slot with
      | literal text => cases hliteral
      | reference name silent persisted source => exact congrArg some hflush
      | filter segments source => exact congrArg some hflush
  | cons d ds =>
    rw [Layout.put_root h, Layout.put_root h, settle?]
    simp [addText, slotsOfNodes, slotsOf]

/-- A scan outside all parentheses lays out the nodes of the recursive parser. -/
theorem finish?_tokens? {input : List Char} (ts : List Token) {used : List Char}
    (hinput : input = used ++ ts.flatMap Token.raw) {l : Layout} (hl : l.stack = [])
    (hends : l.EndsApart) (literal : List Char) :
    (tokens? input (byteLength used) ts ⟨l, literal, []⟩).bind finish? =
      some (l.put (addText literal (template ts))) := by
  induction ts using template.induct generalizing used l literal with
  | case1 =>
    have hstack := (Layout.put_stack_eq_nil l (addText literal [])).2 hl
    rw [template, tokens?, Option.bind_some, finish?, hl]
    exact congrArg (fun s : Scanner => some s.laid) (flush_mk l literal [])
  | case2 ts b hb hlength ih =>
    have hinput' : input = used ++ '(' :: ts.flatMap Token.raw := hinput
    have hnext : input = (used ++ '(' :: (b.used.flatMap Token.raw ++ [')'])) ++
        b.rest.flatMap Token.raw := by
      rw [hinput', congrArg (List.flatMap Token.raw) b.split]
      simp [Token.raw]
    have hread := ih hnext
      ((Layout.put_stack_eq_nil l (addText literal [] ++ [b.filter])).2 hl)
      (Layout.endsApart_put hl _ rfl) []
    rw [(readsBody hb).filter hb hinput', if_pos (by simpa using hl), hread, template, hb]
    dsimp only
    rw [addText_nil, Layout.put_put, List.append_assoc, addText_cons rfl literal (template b.rest)]
    rfl
  | case3 ts hnone =>
    have hput := (Layout.put_stack_eq_nil l (addText literal [])).2 hl
    have hnext : input = (used ++ ['(']) ++ ts.flatMap Token.raw := by simp [hinput, Token.raw]
    obtain ⟨l', literal', hread, hroot, ⟨more, hslots⟩, houter⟩ :=
      tokens?_of_inside_none hnone hnext
      (Layout.opened_stack_ne_nil (l.put (addText literal [])) (byteLength used)) [] ['(']
    -- the outermost open parenthesis is the one that was opened here
    obtain ⟨outer, hlast, hmark⟩ : ∃ outer, l'.stack.getLast? = some outer ∧
        outer.mark = (l.put (addText literal [])).slots.length := by
      simpa [Layout.opened, hput] using houter
    have hdropped : { l' with slots := l'.slots.take outer.mark, stack := [] } =
        l.put (addText literal []) := by
      rw [hmark, ← hslots, hroot]
      simp only [Layout.opened, List.take_left, ← hput]
    rw [template, hnone, tokens?, token?, openAt_mk, Option.bind_some, Token.raw,
      ← byteLength_append, List.nil_append, hread, Option.bind_some, finish?, hlast]
    dsimp only
    rw [hdropped]
    exact settle?_put hl hends literal (List.cons_ne_nil _ _)
  | case4 t ts hopening ih =>
    have plain (x : Char) (hplain : t.plain = [x])
        (htoken : token? input (byteLength used) ⟨l, literal, []⟩ t =
          some (addChar ⟨l, literal, []⟩ x)) :
        (tokens? input (byteLength used) (t :: ts) ⟨l, literal, []⟩).bind finish? =
          some (l.put (addText literal (addText t.plain (template ts)))) := by
      have hnext : input = (used ++ t.raw) ++ ts.flatMap Token.raw := by simp [hinput]
      have hread := ih hnext hl hends (literal ++ [x])
      have hadd : (⟨l, literal, []⟩ : Scanner).addChar x = ⟨l, literal ++ [x], []⟩ :=
        hold_root hl _ _ _
      rw [tokens?, htoken, Option.bind_some, hadd, ← byteLength_append, hread, hplain,
        addText_append]
    rw [show template (t :: ts) = addToken t (template ts) by rw [template]; exact hopening]
    cases t with
    | opening => exact absurd rfl hopening
    | closing => exact plain ')' rfl (if_pos hl)
    | bar => exact plain '|' rfl (if_pos hl)
    | char x escaped => exact plain x rfl rfl
    | reference silent persisted identifier =>
      have hadd := addReference_mk silent persisted identifier l literal []
      rw [hold_root hl] at hadd
      have hnext : input = (used ++ Token.referenceText silent persisted identifier) ++
          ts.flatMap Token.raw := by
        simp [hinput, Token.raw]
      have hread := ih hnext
        ((Layout.put_stack_eq_nil l (addText literal [] ++
          [referenceNode silent persisted identifier])).2 hl)
        (Layout.endsApart_put hl _ rfl) []
      rw [tokens?, token?, Option.bind_some, hadd, Token.raw, ← byteLength_append, hread,
        addText_nil, Layout.put_put, List.append_assoc, addToken, addText_cons rfl literal]
      rfl

end Scanner

/-- **A scan is never at fault**, and it lays out the nodes that the text is parsed to. -/
theorem scan?_eq (text : String) : scan? text = some (Arena.ofNodes (parse text)) := by
  have hread : Scanner.read? text.toList 0 0 text.toList {} =
      Scanner.tokens? text.toList 0 (tokens text.toList) {} :=
    have hinput : text.toList = [] ++ text.toList := rfl
    Scanner.read?_eq_tokens? (lexes_tokens text.toList) hinput {}
  have hfinish : (Scanner.tokens? text.toList 0 (tokens text.toList) {}).bind Scanner.finish? =
      some (Layout.put {} (template (tokens text.toList))) :=
    have hinput : text.toList = [] ++ (tokens text.toList).flatMap Token.raw :=
      (lexes_tokens text.toList).flatMap_raw.symm
    Scanner.finish?_tokens? (tokens text.toList) hinput rfl (by simp [Layout.EndsApart]) []
  rw [← ofTokens_eq_template, ← parse] at hfinish
  calc scan? text
      = ((Scanner.read? text.toList 0 0 text.toList {}).bind Scanner.finish?).bind fun laid =>
          some { slots := laid.slots, root := laid.root } := (Option.bind_assoc ..).symm
    _ = some (Arena.ofNodes (parse text)) := by
      rw [hread, hfinish, Layout.put_root rfl]
      simp [Arena.ofNodes]

end ChatBot.Template
