import ChatBot.Proofs.Template.Numbering
import ChatBot.Proofs.Template.Scanning
import Mathlib.Algebra.Order.BigOperators.Group.List
import Mathlib.Algebra.Order.Group.Nat
import Mathlib.Data.List.Chain
import Mathlib.Data.List.Forall2
import Mathlib.Data.List.Perm.Basic

/-!
# Numbered templates are well-formed

What is true of the numbered form of every template text: its numbers name every node once, parts
come before the filters that they are parts of, and plain text is neither empty nor in two pieces
(`Arena.WellFormed`). Whatever has this form can be walked through from its outermost nodes: the
walk comes across every node exactly once, it always finds a node, and it ends
(`Arena.WellFormed.exists_walk`).

That plain text is in one piece is a fact about parsing (`neatRow_template`); the rest holds of any
nodes that are laid out (`Laid`).
-/

set_option autoImplicit false

namespace ChatBot.Template

/-- The numbers of all parts of a slot. -/
def Slot.parts : Slot → List Nat
  | .filter segments _ => segments.flatten
  | _ => []

namespace Arena

/-- Whether a number is that of plain text. -/
def isLiteralAt (slots : List Slot) (i : Nat) : Bool :=
  slots[i]?.any Slot.isLiteral

/-- No two neighbours are both plain text. -/
def Apart (slots : List Slot) (ids : List Nat) : Prop :=
  ids.IsChain fun i j => ¬ (isLiteralAt slots i = true ∧ isLiteralAt slots j = true)

/-- A numbered template in good order. -/
structure WellFormed (a : Arena) : Prop where
  /-- Outside all filters and in all filters together, there is every number of a node once, and no
  other number. -/
  once : (a.root ++ a.slots.flatMap Slot.parts).Perm (List.range a.size)
  /-- The parts of a filter come before it. -/
  before : ∀ (i : Nat) (s : Slot), a.slots[i]? = some s → ∀ j ∈ s.parts, j < i
  root_increasing : a.root.Pairwise (· < ·)
  parts_increasing : ∀ s ∈ a.slots, s.parts.Pairwise (· < ·)
  /-- A filter has at least one segment. -/
  segments_ne_nil : ∀ (segments : List (List Nat)) (source : String),
    .filter segments source ∈ a.slots → segments ≠ []
  /-- Plain text is not empty. -/
  text_ne_empty : ∀ text : String, .literal text ∈ a.slots → text ≠ ""
  root_apart : Apart a.slots a.root
  segments_apart : ∀ (segments : List (List Nat)) (source : String),
    .filter segments source ∈ a.slots → ∀ ids ∈ segments, Apart a.slots ids

/-- The numbers that a walk from a node comes across, the node and then all its parts. There is no
walk where a number has no node, or where filters stand in one another more than `calls` times. -/
def visits (slots : List Slot) : (calls : Nat) → Nat → Option (List Nat)
  | 0, _ => none
  | calls + 1, i =>
    match slots[i]? with
    | none => none
    | some s => (s.parts.mapM (visits slots calls)).map fun below => i :: below.flatten

/-- The numbers that a walk from the outermost nodes comes across. -/
def walk? (a : Arena) (calls : Nat) : Option (List Nat) :=
  (a.root.mapM (visits a.slots calls)).map List.flatten

end Arena

open Arena

/-! ## Walks -/

/-- A list is mapped to another one if each entry is mapped to the one in its place. -/
theorem mapM_eq_some_iff {α β : Type} {f : α → Option β} {l : List α} {l' : List β} :
    l.mapM f = some l' ↔ List.Forall₂ (fun a b => f a = some b) l l' := by
  induction l generalizing l' with
  | nil => cases l' <;> simp
  | cons a l ih =>
    rw [List.mapM_cons]
    cases l' with
    | nil =>
      refine iff_of_false (fun h => ?_) (fun h => by cases h)
      cases hf : f a <;> cases hl : l.mapM f <;> simp [hf, hl] at h
    | cons b l' =>
      rw [List.forall₂_cons, ← ih]
      cases hf : f a <;> cases hl : l.mapM f <;> simp

/-- The parts of the node of a number. -/
def partsAt (slots : List Slot) (i : Nat) : List Nat :=
  (slots[i]?.map Slot.parts).getD []

/-- All parts of all numbers are all parts of all slots. -/
theorem flatMap_partsAt (slots : List Slot) :
    (List.range slots.length).flatMap (partsAt slots) = slots.flatMap Slot.parts := by
  have h : (List.range slots.length).map (partsAt slots) = slots.map Slot.parts := by
    refine List.ext_getElem (by simp) fun i hi hi' => ?_
    have hlt : i < slots.length := by simpa using hi
    simp [partsAt, hlt]
  rw [List.flatMap_def, h, ← List.flatMap_def]

/-- What a walk comes across are its start and the parts of what it comes across. -/
theorem perm_flatten {f : Nat → List Nat} {ids : List Nat} {orders : List (List Nat)}
    (h : List.Forall₂ (fun i order => order.Perm (i :: order.flatMap f)) ids orders) :
    orders.flatten.Perm (ids ++ orders.flatten.flatMap f) := by
  induction h with
  | nil => exact .nil
  | @cons i order ids orders here _ ih =>
    rw [List.flatten_cons, List.flatMap_append]
    calc order ++ orders.flatten
        |>.Perm ((i :: order.flatMap f) ++ (ids ++ orders.flatten.flatMap f)) := here.append ih
      _ |>.Perm (i :: ids ++ (order.flatMap f ++ orders.flatten.flatMap f)) := by
        simp only [List.cons_append]
        refine .cons i ?_
        rw [← List.append_assoc, ← List.append_assoc]
        exact List.perm_append_comm.append_right _

/-- A walk from a node whose parts all come before it. -/
theorem exists_visits {slots : List Slot}
    (before : ∀ (i : Nat) (s : Slot), slots[i]? = some s → ∀ j ∈ s.parts, j < i) {i : Nat}
    (hi : i < slots.length) :
    ∃ order : List Nat, (∀ calls, i < calls → visits slots calls i = some order) ∧
      order.Perm (i :: order.flatMap (partsAt slots)) := by
  induction i using Nat.strongRecOn with
  | ind i ih =>
    have hslot : slots[i]? = some slots[i] := List.getElem?_eq_getElem hi
    have hparts := before i _ hslot
    have hall : ∀ j ∈ slots[i].parts, ∃ order : List Nat,
        (∀ calls, j < calls → visits slots calls j = some order) ∧
          order.Perm (j :: order.flatMap (partsAt slots)) := fun j hj =>
      ih j (hparts j hj) (Nat.lt_trans (hparts j hj) hi)
    choose! walkFrom hwalk hperm using hall
    have hnext (calls : Nat) (hcalls : i ≤ calls) :
        List.Forall₂ (fun j order => visits slots calls j = some order) slots[i].parts
          (slots[i].parts.map walkFrom) := by
      rw [List.forall₂_map_right_iff, List.forall₂_same]
      exact fun j hj => hwalk j hj calls (Nat.lt_of_lt_of_le (hparts j hj) hcalls)
    refine ⟨i :: (slots[i].parts.map walkFrom).flatten, ?_, ?_⟩
    · intro calls hcalls
      obtain ⟨calls, rfl⟩ := Nat.exists_eq_succ_of_ne_zero (Nat.ne_of_gt (Nat.zero_lt_of_lt hcalls))
      rw [visits, hslot]
      dsimp only
      rw [mapM_eq_some_iff.2 (hnext calls (Nat.le_of_lt_succ hcalls))]
      rfl
    · have here : partsAt slots i = slots[i].parts := by rw [partsAt, hslot]; rfl
      rw [List.flatMap_cons, here]
      refine .cons i (perm_flatten ?_)
      rw [List.forall₂_map_right_iff, List.forall₂_same]
      exact hperm

/-- Where the parts of each number are smaller, what is made up of the same start and the parts of
itself is determined. -/
theorem perm_of_perm_parts {parts : Nat → List Nat} (before : ∀ i, ∀ j ∈ parts i, j < i)
    (start : List Nat) {ids ids' : List Nat} (h : ids.Perm (start ++ ids.flatMap parts))
    (h' : ids'.Perm (start ++ ids'.flatMap parts)) : ids.Perm ids' := by
  rw [List.perm_iff_count]
  -- a number is a part of greater ones only, so the induction goes down from above all of them
  have above (n : Nat) : ∀ j, (∀ i ∈ ids ++ ids', i < j + n) → ids.count j = ids'.count j := by
    induction n with
    | zero =>
      intro j hj
      have hnot : j ∉ ids ++ ids' := fun hmem => Nat.lt_irrefl j (hj j hmem)
      rw [List.mem_append, not_or] at hnot
      rw [List.count_eq_zero_of_not_mem hnot.1, List.count_eq_zero_of_not_mem hnot.2]
    | succ n ih =>
      intro j hj
      have hgreater : (ids.filter (j < ·)).Perm (ids'.filter (j < ·)) := by
        rw [List.perm_iff_count]
        intro i
        by_cases hi : j < i
        · rw [List.count_filter (by simpa using hi), List.count_filter (by simpa using hi)]
          exact ih i fun k hk => Nat.lt_of_lt_of_le (hj k hk) (by omega)
        · rw [List.count_eq_zero_of_not_mem (by simp [hi]),
            List.count_eq_zero_of_not_mem (by simp [hi])]
      have hcount (l : List Nat) :
          (l.flatMap parts).count j = ((l.filter (j < ·)).flatMap parts).count j := by
        induction l with
        | nil => rfl
        | cons i l ihl =>
          by_cases hi : j < i
          · rw [List.filter_cons_of_pos (by simpa using hi), List.flatMap_cons, List.flatMap_cons,
              List.count_append, List.count_append, ihl]
          · have hnone : j ∉ parts i := fun hmem => hi (before i j hmem)
            rw [List.filter_cons_of_neg (by simpa using hi), List.flatMap_cons, List.count_append,
              List.count_eq_zero_of_not_mem hnone, Nat.zero_add, ihl]
      rw [h.count_eq, h'.count_eq, List.count_append, List.count_append, hcount ids, hcount ids',
        (hgreater.flatMap_right parts).count_eq]
  intro j
  exact above ((ids ++ ids').sum + 1) j fun i hi =>
    Nat.lt_add_left j (Nat.lt_succ_of_le (List.le_sum_of_mem hi))

/-- **A well-formed template can be walked through**: the walk comes across every node once. -/
theorem Arena.WellFormed.exists_walk {a : Arena} (h : a.WellFormed) :
    ∃ order : List Nat, (∀ calls, a.size ≤ calls → a.walk? calls = some order) ∧
      order.Perm (List.range a.size) := by
  have hroot : ∀ i ∈ a.root, i < a.size := fun i hi =>
    List.mem_range.1 (h.once.subset (List.mem_append_left _ hi))
  have hall : ∀ i ∈ a.root, ∃ order : List Nat,
      (∀ calls, i < calls → visits a.slots calls i = some order) ∧
        order.Perm (i :: order.flatMap (partsAt a.slots)) := fun i hi =>
    exists_visits h.before (hroot i hi)
  choose! walkFrom hwalk hperm using hall
  refine ⟨(a.root.map walkFrom).flatten, ?_, ?_⟩
  · intro calls hcalls
    have hnext : List.Forall₂ (fun i order => visits a.slots calls i = some order) a.root
        (a.root.map walkFrom) := by
      rw [List.forall₂_map_right_iff, List.forall₂_same]
      exact fun i hi => hwalk i hi calls (Nat.lt_of_lt_of_le (hroot i hi) hcalls)
    rw [walk?, mapM_eq_some_iff.2 hnext]
    rfl
  · have hbefore : ∀ i, ∀ j ∈ partsAt a.slots i, j < i := by
      intro i j hj
      rw [partsAt] at hj
      cases hslot : a.slots[i]? with
      | none => simp [hslot] at hj
      | some s => exact h.before i s hslot j (by simpa [hslot] using hj)
    refine perm_of_perm_parts hbefore a.root (perm_flatten ?_) ?_
    · rw [List.forall₂_map_right_iff, List.forall₂_same]
      exact hperm
    · rw [Arena.size, flatMap_partsAt]
      exact h.once.symm

/-! ## Laying out -/

/-- Slots and the numbers that are left for others to name: with these, every number from `next` on
is named once, and whatever names numbers names them in order. -/
structure Laid (next : Nat) (slots : List Slot) (ids : List Nat) : Prop where
  once : (ids ++ slots.flatMap Slot.parts).Perm (List.range' next slots.length)
  increasing : ids.Pairwise (· < ·)
  parts_increasing : ∀ s ∈ slots, s.parts.Pairwise (· < ·)

namespace Laid

variable {next : Nat} {slots more : List Slot} {ids others : List Nat}

/-- The numbers that are left lie between the first one and the end of the slots. -/
theorem bounds (h : Laid next slots ids) : ∀ i ∈ ids, next ≤ i ∧ i < next + slots.length :=
  fun _ hi => List.mem_range'_1.1 (h.once.subset (List.mem_append_left _ hi))

/-- No slots leave no numbers. -/
theorem nil (next : Nat) : Laid next [] [] :=
  ⟨.nil, .nil, by simp⟩

/-- A slot without parts leaves its own number. -/
theorem leaf (next : Nat) {s : Slot} (h : s.parts = []) : Laid next [s] [next] :=
  ⟨by simp [h], by simp, by simp [h]⟩

/-- Slots behind others leave the numbers of both. -/
theorem append (h : Laid next slots ids) (h' : Laid (next + slots.length) more others) :
    Laid next (slots ++ more) (ids ++ others) := by
  refine ⟨?_, ?_, ?_⟩
  · rw [List.flatMap_append, List.length_append, ← List.range'_append_1]
    calc ids ++ others ++ (slots.flatMap Slot.parts ++ more.flatMap Slot.parts)
        |>.Perm (ids ++ slots.flatMap Slot.parts ++ (others ++ more.flatMap Slot.parts)) := by
          rw [List.append_assoc, List.append_assoc]
          refine .append_left ids ?_
          rw [← List.append_assoc, ← List.append_assoc]
          exact List.perm_append_comm.append_right _
      _ |>.Perm (List.range' next slots.length ++ List.range' (next + slots.length) more.length) :=
          h.once.append h'.once
  · refine List.pairwise_append.2 ⟨h.increasing, h'.increasing, fun i hi j hj => ?_⟩
    exact Nat.lt_of_lt_of_le (h.bounds i hi).2 (h'.bounds j hj).1
  · intro s hs
    exact (List.mem_append.1 hs).elim (h.parts_increasing s) (h'.parts_increasing s)

/-- A filter names all numbers that are left, and leaves its own. -/
theorem filter {segments : List (List Nat)} (h : Laid next slots segments.flatten)
    (source : String) :
    Laid next (slots ++ [.filter segments source]) [next + slots.length] := by
  refine ⟨?_, by simp, ?_⟩
  · rw [List.flatMap_append, List.length_append, List.length_singleton, List.range'_1_concat]
    calc [next + slots.length] ++ (slots.flatMap Slot.parts ++ [.filter segments source].flatMap
            Slot.parts)
        |>.Perm ((segments.flatten ++ slots.flatMap Slot.parts) ++ [next + slots.length]) := by
          rw [List.flatMap_singleton]
          exact List.perm_append_comm.trans (List.perm_append_comm.append_right _)
      _ |>.Perm (List.range' next slots.length ++ [next + slots.length]) := h.once.append_right _
  · intro s hs
    rcases List.mem_append.1 hs with hs | hs
    · exact h.parts_increasing s hs
    · obtain rfl := List.mem_singleton.1 hs
      exact h.increasing

end Laid

mutual

/-- The slots of a node leave its own number, the last one. -/
theorem laid_slotsOf (next : Nat) (n : Node) :
    Laid next (slotsOf next n) [next + (slotsOf next n).length - 1] := by
  match n with
  | .literal text => exact .leaf next rfl
  | .reference name silent persisted source => exact .leaf next rfl
  | .filter segments source =>
    have h := (laid_slotsOfSegments next segments).filter source
    rw [slotsOf]
    simpa using h

/-- The slots of nodes leave the numbers of these. -/
theorem laid_slotsOfNodes (next : Nat) (ns : List Node) :
    Laid next (slotsOfNodes next ns).1 (slotsOfNodes next ns).2 := by
  match ns with
  | [] => exact .nil next
  | n :: rest => exact (laid_slotsOf next n).append (laid_slotsOfNodes _ rest)

/-- The slots of segments leave the numbers of all their nodes. -/
theorem laid_slotsOfSegments (next : Nat) (segments : List (List Node)) :
    Laid next (slotsOfSegments next segments).1 (slotsOfSegments next segments).2.flatten := by
  match segments with
  | [] => exact .nil next
  | segment :: rest =>
    exact (laid_slotsOfNodes next segment).append (laid_slotsOfSegments _ rest)

end

/-! ## Plain text in one piece -/

mutual

/-- Plain text in a node is neither empty nor in two pieces, and filters have segments. -/
def Node.Neat : Node → Prop
  | .literal text => text ≠ ""
  | .reference _ _ _ _ => True
  | .filter segments _ => segments ≠ [] ∧ NeatSegments segments

/-- Plain text in nodes in a row is neither empty nor in two pieces. -/
def NeatRow : List Node → Prop
  | [] => True
  | n :: rest =>
    n.Neat ∧ (∀ m ∈ rest.head?, ¬ (n.isLiteral = true ∧ m.isLiteral = true)) ∧ NeatRow rest

/-- Plain text in segments is neither empty nor in two pieces. -/
def NeatSegments : List (List Node) → Prop
  | [] => True
  | segment :: rest => NeatRow segment ∧ NeatSegments rest

end

/-- A node that is no plain text goes in front of any others. -/
theorem NeatRow.cons {n : Node} {ns : List Node} (h : NeatRow ns) (hn : n.Neat)
    (hliteral : n.isLiteral = false) : NeatRow (n :: ns) :=
  ⟨hn, fun m _ hm => absurd hm.1 (by simp [hliteral]), h⟩

/-- Plain text joins with the plain text behind it. -/
theorem neatRow_addText (text : List Char) {ns : List Node} (h : NeatRow ns) :
    NeatRow (addText text ns) := by
  cases text with
  | nil => exact h
  | cons c cs =>
    have hne (more : String) : String.ofList (c :: cs) ++ more ≠ "" := by simp
    cases ns with
    | nil => exact ⟨by simp [Node.Neat], by simp, trivial⟩
    | cons n rest =>
      cases n with
      | literal more => exact ⟨hne more, h.2.1, h.2.2⟩
      | reference name silent persisted source =>
        exact ⟨by simp [Node.Neat], by simp [Node.isLiteral], h⟩
      | filter segments source =>
        exact ⟨by simp [Node.Neat], by simp [Node.isLiteral], h⟩

/-- A token in front of a neat row makes a neat row. -/
theorem neatRow_addToken (t : Token) {ns : List Node} (h : NeatRow ns) :
    NeatRow (addToken t ns) := by
  cases t with
  | reference silent persisted identifier => exact h.cons trivial rfl
  | _ => exact neatRow_addText _ h

/-- Segments stay neat when the first one changes and stays neat. -/
theorem neatSegments_onFirst {f : List Node → List Node} {segments : List (List Node)}
    (hf : ∀ ns, NeatRow ns → NeatRow (f ns)) (h : NeatSegments segments) :
    NeatSegments (onFirst f segments) := by
  cases segments with
  | nil => exact h
  | cons segment rest => exact ⟨hf _ h.1, h.2⟩

/-- The segments of every body are neat, by induction on the tokens. -/
theorem neatSegments_inside {ts : List Token} {b : Body ts} (h : inside ts = some b) :
    NeatSegments b.segments := by
  induction ts using inside.induct with
  | case1 => simp [inside] at h
  | case2 ts =>
    rw [inside] at h
    cases h
    exact ⟨trivial, trivial⟩
  | case3 ts ih =>
    rw [inside, Option.map_eq_some_iff] at h
    obtain ⟨c, hc, rfl⟩ := h
    exact ⟨trivial, ih hc⟩
  | case4 ts hnone ih =>
    rw [inside, hnone] at h
    cases h
  | case5 ts inner hinner hlength ih ih' =>
    rw [inside, hinner] at h
    obtain ⟨c, hc, rfl⟩ := Option.map_eq_some_iff.1 h
    obtain ⟨row, rest, hsegments⟩ := inside_segments hinner
    have hfilter : inner.filter.Neat := ⟨by simp [hsegments], ih hinner⟩
    exact neatSegments_onFirst (fun ns hns => hns.cons hfilter rfl) (ih' hc)
  | case6 t ts hclosing hbar hopening ih =>
    rw [inside_cons hopening hclosing hbar, Option.map_eq_some_iff] at h
    obtain ⟨c, hc, rfl⟩ := h
    exact neatSegments_onFirst (fun _ => neatRow_addToken t) (ih hc)

/-- What the recursive parser gives has its plain text in one piece. -/
theorem neatRow_template (ts : List Token) : NeatRow (template ts) := by
  induction ts using template.induct with
  | case1 =>
    rw [template]
    exact trivial
  | case2 ts b hb hlength ih =>
    obtain ⟨row, rest, hsegments⟩ := inside_segments hb
    rw [template, hb]
    exact ih.cons ⟨by simp [hsegments], neatSegments_inside hb⟩ rfl
  | case3 ts hnone =>
    rw [template, hnone]
    have hnil : NeatRow [] := trivial
    exact neatRow_addText ((Token.opening :: ts).flatMap Token.plain) hnil
  | case4 t ts hopening ih =>
    rw [show template (t :: ts) = addToken t (template ts) by rw [template]; exact hopening]
    exact neatRow_addToken t ih

/-! ## What the numbers stand for -/

mutual

/-- Each slot of a neat node stands for a neat node. -/
theorem exists_nodeAt_slotsOf {n : Node} (h : n.Neat) (front back : List Slot) {i : Nat}
    (hi : i < (slotsOf front.length n).length) :
    ∃ m : Node, m.Neat ∧
      nodeAt (front ++ slotsOf front.length n ++ back) (front.length + i) = some m := by
  by_cases hlast : i + 1 = (slotsOf front.length n).length
  · have hself := nodeAt_slotsOf n front back
    rw [← hlast] at hself
    exact ⟨n, h, hself⟩
  match n with
  | .literal text => exact absurd (Nat.lt_one_iff.1 hi) (fun h0 => hlast (h0 ▸ rfl))
  | .reference name silent persisted source =>
    exact absurd (Nat.lt_one_iff.1 hi) (fun h0 => hlast (h0 ▸ rfl))
  | .filter segments source =>
    have hinner : i < (slotsOfSegments front.length segments).1.length := by
      simp only [slotsOf, List.length_append, List.length_singleton] at hi hlast
      omega
    have h' := exists_nodeAt_slotsOfSegments h.2 front
      (.filter (slotsOfSegments front.length segments).2 source :: back) hinner
    simpa [slotsOf] using h'

/-- Every slot of neat nodes is that of a neat node, wherever they are laid out. -/
theorem exists_nodeAt_slotsOfNodes {ns : List Node} (h : NeatRow ns) (front back : List Slot)
    {i : Nat} (hi : i < (slotsOfNodes front.length ns).1.length) :
    ∃ m : Node, m.Neat ∧
      nodeAt (front ++ (slotsOfNodes front.length ns).1 ++ back) (front.length + i) = some m := by
  match ns with
  | [] => exact absurd hi (Nat.not_lt_zero i)
  | n :: rest =>
    by_cases hhere : i < (slotsOf front.length n).length
    · have h' := exists_nodeAt_slotsOf h.1 front ((slotsOfNodes
        (front.length + (slotsOf front.length n).length) rest).1 ++ back) hhere
      simpa [slotsOfNodes] using h'
    · have hrest : i - (slotsOf front.length n).length < (slotsOfNodes
          (front ++ slotsOf front.length n).length rest).1.length := by
        simp only [slotsOfNodes, List.length_append] at hi ⊢
        omega
      have h' := exists_nodeAt_slotsOfNodes h.2.2 (front ++ slotsOf front.length n) back hrest
      rw [List.length_append, Nat.add_assoc, Nat.add_sub_cancel' (Nat.le_of_not_lt hhere)] at h'
      simpa [slotsOfNodes] using h'

/-- Every slot of neat segments is that of a neat node, wherever they are laid out. -/
theorem exists_nodeAt_slotsOfSegments {segments : List (List Node)} (h : NeatSegments segments)
    (front back : List Slot) {i : Nat} (hi : i < (slotsOfSegments front.length segments).1.length) :
    ∃ m : Node, m.Neat ∧
      nodeAt (front ++ (slotsOfSegments front.length segments).1 ++ back) (front.length + i) =
        some m := by
  match segments with
  | [] => exact absurd hi (Nat.not_lt_zero i)
  | segment :: rest =>
    by_cases hhere : i < (slotsOfNodes front.length segment).1.length
    · have h' := exists_nodeAt_slotsOfNodes h.1 front ((slotsOfSegments
        (front.length + (slotsOfNodes front.length segment).1.length) rest).1 ++ back) hhere
      simpa [slotsOfSegments] using h'
    · have hrest : i - (slotsOfNodes front.length segment).1.length < (slotsOfSegments
          (front ++ (slotsOfNodes front.length segment).1).length rest).1.length := by
        simp only [slotsOfSegments, List.length_append] at hi ⊢
        omega
      have h' := exists_nodeAt_slotsOfSegments h.2
        (front ++ (slotsOfNodes front.length segment).1) back hrest
      rw [List.length_append, Nat.add_assoc, Nat.add_sub_cancel' (Nat.le_of_not_lt hhere)] at h'
      simpa [slotsOfSegments] using h'

end

/-- A filter stands for its parts, which all come before it. -/
theorem nodeAt_filter_eq_some {slots : List Slot} {i : Nat} {segments : List (List Nat)}
    {source : String} {m : Node} (hslot : slots[i]? = some (.filter segments source))
    (h : nodeAt slots i = some m) :
    ∃ rows, m = .filter rows source ∧ (∀ ids ∈ segments, ∀ j ∈ ids, j < i) ∧
      List.Forall₂ (List.Forall₂ fun j n => nodeAt slots j = some n) segments rows := by
  rw [nodeAt, hslot] at h
  obtain ⟨rows, hrows, rfl⟩ := Option.map_eq_some_iff.1 h
  have hparts : List.Forall₂ (fun ids ns => (∀ j ∈ ids, j < i) ∧
      List.Forall₂ (fun j n => nodeAt slots j = some n) ids ns) segments rows := by
    refine (mapM_eq_some_iff.1 hrows).imp fun ids ns hids => (List.forall₂_and_left _ _).1 ?_
    refine (mapM_eq_some_iff.1 hids).imp fun j n hj => ?_
    split at hj
    · rename_i hlt
      exact ⟨hlt, hj⟩
    · cases hj
  exact ⟨rows, rfl, (List.forall₂_and_left _ _).1 hparts⟩

/-- A number is that of plain text if its node is. -/
theorem isLiteralAt_eq {slots : List Slot} {i : Nat} {n : Node} (h : nodeAt slots i = some n) :
    isLiteralAt slots i = n.isLiteral := by
  rw [nodeAt] at h
  rw [isLiteralAt]
  split at h
  · cases h
  · rename_i heq
    cases h
    simp [heq, Slot.isLiteral, Node.isLiteral]
  · rename_i heq
    cases h
    simp [heq, Slot.isLiteral, Node.isLiteral]
  · rename_i heq
    obtain ⟨rows, -, rfl⟩ := Option.map_eq_some_iff.1 h
    simp [heq, Slot.isLiteral, Node.isLiteral]

/-- Numbers stand apart if their nodes do. -/
theorem apart_of_neatRow {slots : List Slot} {ids : List Nat} {ns : List Node}
    (h : List.Forall₂ (fun j n => nodeAt slots j = some n) ids ns) (hns : NeatRow ns) :
    Apart slots ids := by
  induction h with
  | nil => exact .nil
  | @cons j n ids ns hj hrest ih =>
    refine (ih hns.2.2).cons fun j' hj' => ?_
    cases hrest with
    | nil => simp at hj'
    | @cons j'' m ids ns hm _ =>
      obtain rfl : j'' = j' := by simpa using hj'
      rw [isLiteralAt_eq hj, isLiteralAt_eq hm]
      exact hns.2.1 m rfl

/-- In neat segments, no two neighbours are both plain text. -/
theorem apart_of_neatSegments {slots : List Slot} {segments : List (List Nat)}
    {rows : List (List Node)}
    (h : List.Forall₂ (List.Forall₂ fun j n => nodeAt slots j = some n) segments rows)
    (hrows : NeatSegments rows) : ∀ ids ∈ segments, Apart slots ids := by
  induction h with
  | nil => simp
  | cons hids _ ih =>
    exact List.forall_mem_cons.2 ⟨apart_of_neatRow hids hrows.1, ih hrows.2⟩

/-- **Neat nodes are laid out in good order.** -/
theorem wellFormed_ofNodes {nodes : List Node} (h : NeatRow nodes) :
    (Arena.ofNodes nodes).WellFormed := by
  have hlaid : Laid 0 (Arena.ofNodes nodes).slots (Arena.ofNodes nodes).root :=
    laid_slotsOfNodes 0 nodes
  -- each slot stands for a neat node
  have hall (i : Nat) (s : Slot) (hs : (Arena.ofNodes nodes).slots[i]? = some s) :
      ∃ m : Node, m.Neat ∧ nodeAt (Arena.ofNodes nodes).slots i = some m := by
    have hi : i < (slotsOfNodes 0 nodes).1.length := (List.getElem?_eq_some_iff.1 hs).1
    have := exists_nodeAt_slotsOfNodes h [] [] hi
    simpa [Arena.ofNodes] using this
  have hfilter (i : Nat) (segments : List (List Nat)) (source : String)
      (hs : (Arena.ofNodes nodes).slots[i]? = some (.filter segments source)) :
      ∃ rows, rows ≠ [] ∧ NeatSegments rows ∧ (∀ ids ∈ segments, ∀ j ∈ ids, j < i) ∧
        List.Forall₂ (List.Forall₂ fun j n => nodeAt (Arena.ofNodes nodes).slots j = some n)
          segments rows := by
    obtain ⟨m, hm, hnode⟩ := hall i _ hs
    obtain ⟨rows, rfl, hbefore, hrows⟩ := nodeAt_filter_eq_some hs hnode
    exact ⟨rows, hm.1, hm.2, hbefore, hrows⟩
  exact {
    once := List.range_eq_range' ▸ hlaid.once
    before := by
      intro i s hs j hj
      cases s with
      | literal text => cases hj
      | reference name silent persisted source => cases hj
      | filter segments source =>
        obtain ⟨ids, hids, hj⟩ := List.mem_flatten.1 hj
        obtain ⟨rows, -, -, hbefore, -⟩ := hfilter i segments source hs
        exact hbefore ids hids j hj
    root_increasing := hlaid.increasing
    parts_increasing := hlaid.parts_increasing
    segments_ne_nil := by
      intro segments source hmem
      obtain ⟨i, hs⟩ := List.mem_iff_getElem?.1 hmem
      obtain ⟨rows, hne, -, -, hrows⟩ := hfilter i segments source hs
      rintro rfl
      cases hrows
      exact hne rfl
    text_ne_empty := by
      intro text hmem
      obtain ⟨i, hs⟩ := List.mem_iff_getElem?.1 hmem
      obtain ⟨m, hm, hnode⟩ := hall i _ hs
      rw [nodeAt, hs] at hnode
      cases hnode
      exact hm
    root_apart := apart_of_neatRow (mapM_eq_some_iff.1 (Arena.nodes?_ofNodes nodes)) h
    segments_apart := by
      intro segments source hmem
      obtain ⟨i, hs⟩ := List.mem_iff_getElem?.1 hmem
      obtain ⟨rows, -, hneat, -, hrows⟩ := hfilter i segments source hs
      exact apart_of_neatSegments hrows hneat }

/-- **Every template is laid out in good order**: a scan over a text gives the numbered form of what
the text is parsed to, which is well-formed; and a walk through it comes across every node once. -/
theorem scan?_wellFormed (text : String) :
    ∃ a, scan? text = some a ∧ a = Arena.ofNodes (parse text) ∧ a.WellFormed ∧
      ∃ order : List Nat, (∀ calls, a.size ≤ calls → a.walk? calls = some order) ∧
        order.Perm (List.range a.size) := by
  have hneat : NeatRow (parse text) := by
    rw [parse, ofTokens_eq_template]
    exact neatRow_template _
  have hformed := wellFormed_ofNodes hneat
  exact ⟨_, scan?_eq text, rfl, hformed, hformed.exists_walk⟩

end ChatBot.Template
