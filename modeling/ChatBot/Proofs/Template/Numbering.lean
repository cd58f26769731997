import ChatBot.Proofs.Template.Grammar
import ChatBot.Proofs.Template.Lexing
import ChatBot.Template.Arena

/-!
# Reading a numbered template

A numbered template is read by following numbers, where a part counts only if its number is smaller
than that of the filter it is part of (`Arena.nodeAt`). Reading the numbered form of a template
gives the template back (`Arena.nodes?_ofNodes`); in particular no number points nowhere, or at a
filter around it.

With the cutting rules and the grammar this says what parsing a text gives, down to the numbered
form (`parse_reads_as_template`). Were all longest matches references, it would not be so
(`lone_underscore_is_plain`).
-/

set_option autoImplicit false

namespace ChatBot.Template

namespace Arena

/-- The node of a number, if it has one. -/
def nodeAt (slots : List Slot) (i : Nat) : Option Node :=
  match slots[i]? with
  | none => none
  | some (.literal text) => some (.literal text)
  | some (.reference name silent persisted source) => some (.reference name silent persisted source)
  | some (.filter segments source) =>
    (segments.mapM fun (ids : List Nat) =>
      ids.mapM fun j => if _h : j < i then nodeAt slots j else none).map (.filter · source)
termination_by i

/-- The outermost nodes of a numbered template, if all numbers have nodes. -/
def nodes? (a : Arena) : Option (List Node) :=
  a.root.mapM (nodeAt a.slots)

end Arena

open Arena

/-! ## Numbers -/

/-- Every node takes up a slot. -/
theorem slotsOf_length_pos (next : Nat) (n : Node) : 0 < (slotsOf next n).length := by
  cases n <;> simp [slotsOf]

/-- The numbers of nodes in a row are those of their slots. -/
theorem lt_of_mem_slotsOfNodes (ns : List Node) (next : Nat) :
    ∀ j ∈ (slotsOfNodes next ns).2, j < next + (slotsOfNodes next ns).1.length := by
  induction ns generalizing next with
  | nil => simp [slotsOfNodes]
  | cons n rest ih =>
    intro j hj
    have hpos := slotsOf_length_pos next n
    simp only [slotsOfNodes, List.mem_cons, List.length_append] at hj ⊢
    rcases hj with rfl | hj
    · omega
    · have := ih _ j hj
      omega

/-- The numbers of the nodes in segments lie below the first free one. -/
theorem lt_of_mem_slotsOfSegments (segments : List (List Node)) (next : Nat) :
    ∀ ids ∈ (slotsOfSegments next segments).2, ∀ j ∈ ids,
      j < next + (slotsOfSegments next segments).1.length := by
  induction segments generalizing next with
  | nil => simp [slotsOfSegments]
  | cons segment rest ih =>
    intro ids hids j hj
    simp only [slotsOfSegments, List.mem_cons, List.length_append] at hids ⊢
    rcases hids with rfl | hids
    · have := lt_of_mem_slotsOfNodes segment next j hj
      omega
    · have := ih _ ids hids j hj
      omega

/-- Functions that agree on a list map it alike. -/
theorem mapM_congr {α β : Type} {f g : α → Option β} {l : List α} (h : ∀ a ∈ l, f a = g a) :
    l.mapM f = l.mapM g := by
  induction l with
  | nil => rfl
  | cons a l ih =>
    rw [List.mapM_cons, List.mapM_cons, h a List.mem_cons_self,
      ih fun b hb => h b (List.mem_cons_of_mem _ hb)]

/-- A filter is read from its parts. -/
theorem nodeAt_filter (ids : List (List Nat)) (source : String) {slots : List Slot} {i : Nat}
    (h : slots[i]? = some (.filter ids source)) (hlt : ∀ part ∈ ids, ∀ j ∈ part, j < i) :
    nodeAt slots i =
      (ids.mapM fun (part : List Nat) => part.mapM (nodeAt slots)).map (.filter · source) := by
  rw [nodeAt, h]
  dsimp only
  refine congrArg (Option.map _) (mapM_congr fun part hpart => mapM_congr fun j hj => ?_)
  exact dif_pos (hlt part hpart j hj)

/-! ## Reading back -/

mutual

/-- A node is read back at the last of its slots, wherever these lie. -/
theorem nodeAt_slotsOf (n : Node) (front back : List Slot) :
    nodeAt (front ++ slotsOf front.length n ++ back)
      (front.length + (slotsOf front.length n).length - 1) = some n := by
  match n with
  | .literal text =>
    rw [nodeAt]
    simp [slotsOf]
  | .reference name silent persisted source =>
    rw [nodeAt]
    simp [slotsOf]
  | .filter segments source =>
    have ih := mapM_slotsOfSegments segments front
      (.filter (slotsOfSegments front.length segments).2 source :: back)
    have hlt := lt_of_mem_slotsOfSegments segments front.length
    rw [slotsOf]
    generalize slotsOfSegments front.length segments = laid at ih hlt ⊢
    obtain ⟨slots, ids⟩ := laid
    dsimp only at ih hlt ⊢
    have hall : front ++ (slots ++ [.filter ids source]) ++ back =
        front ++ slots ++ .filter ids source :: back := by simp
    have hnumber : front.length + (slots ++ [Slot.filter ids source]).length - 1 =
        (front ++ slots).length := by
      simp
    rw [hall, hnumber, nodeAt_filter ids source, ih]
    · rfl
    · simp
    · simpa using hlt

/-- Nodes in a row are read back at their numbers. -/
theorem mapM_slotsOfNodes (ns : List Node) (front back : List Slot) :
    (slotsOfNodes front.length ns).2.mapM
      (nodeAt (front ++ (slotsOfNodes front.length ns).1 ++ back)) = some ns := by
  match ns with
  | [] => rfl
  | n :: rest =>
    have here := nodeAt_slotsOf n front
    have ih := mapM_slotsOfNodes rest (front ++ slotsOf front.length n) back
    rw [slotsOfNodes]
    rw [List.length_append] at ih
    generalize slotsOf front.length n = slots at here ih ⊢
    generalize slotsOfNodes (front.length + slots.length) rest = laid at ih ⊢
    obtain ⟨more, ids⟩ := laid
    dsimp only at ih ⊢
    rw [← List.append_assoc, List.mapM_cons, List.append_assoc (front ++ slots), here,
      ← List.append_assoc, ih]
    rfl

/-- Segments are read back at the numbers of their nodes. -/
theorem mapM_slotsOfSegments (segments : List (List Node)) (front back : List Slot) :
    (slotsOfSegments front.length segments).2.mapM (fun (ids : List Nat) =>
      ids.mapM (nodeAt (front ++ (slotsOfSegments front.length segments).1 ++ back))) =
        some segments := by
  match segments with
  | [] => rfl
  | segment :: rest =>
    have here := mapM_slotsOfNodes segment front
    have ih := mapM_slotsOfSegments rest (front ++ (slotsOfNodes front.length segment).1) back
    rw [slotsOfSegments]
    rw [List.length_append] at ih
    generalize slotsOfNodes front.length segment = laid at here ih ⊢
    obtain ⟨slots, ids⟩ := laid
    dsimp only at here ih ⊢
    generalize slotsOfSegments (front.length + slots.length) rest = laid at ih ⊢
    obtain ⟨more, others⟩ := laid
    dsimp only at ih ⊢
    rw [← List.append_assoc, List.mapM_cons, List.append_assoc (front ++ slots), here,
      ← List.append_assoc, ih]
    rfl

end

/-- Reading the numbered form of nodes gives the nodes. -/
theorem Arena.nodes?_ofNodes (nodes : List Node) : (Arena.ofNodes nodes).nodes? = some nodes := by
  have h := mapM_slotsOfNodes nodes [] []
  rw [List.append_nil, List.nil_append] at h
  exact h

/-- **Parsing follows the grammar.** For every text there is exactly one list of tokens that the
cutting rules allow, which loses nothing of the text. The numbered form of what is parsed, read by
following its numbers, is what the recursive parser makes of these tokens. The rule for references
is that of the longest match, but an underscore with no identifier behind it is none. -/
theorem parse_reads_as_template :
    (∀ text : String, ∃ ts, (∀ us, Lexes Refers text.toList us ↔ us = ts) ∧
      ts.flatMap Token.raw = text.toList ∧
      (Arena.ofNodes (parse text)).nodes? = some (template ts)) ∧
    ∀ cs silent persisted identifier behind, Refers cs silent persisted identifier behind ↔
      LongestMatch cs silent persisted identifier behind ∧
        (persisted = false → identifier ≠ ['_']) := by
  refine ⟨fun text => ?_, fun _ _ _ _ _ => refers_iff_longestMatch⟩
  have cut := lexes_iff text.toList
  refine ⟨tokens text.toList, cut, ((cut _).2 rfl).flatMap_raw, ?_⟩
  rw [Arena.nodes?_ofNodes, parse, ofTokens_eq_template]

/-- In an underscore alone the longest match is the identifier. -/
theorem LongestMatch.of_underscore {identifier behind : List Char} {silent persisted : Bool}
    (h : LongestMatch ['_'] silent persisted identifier behind) :
    silent = false ∧ persisted = false ∧ identifier = ['_'] ∧ behind = [] := by
  obtain ⟨c, rest, rfl⟩ := List.exists_cons_of_ne_nil h.named
  have htext := h.text
  cases silent with
  | true => simp at htext
  | false =>
    cases persisted with
    | true => simp at htext
    | false =>
      simp only [Bool.false_eq_true, if_false, List.nil_append, List.cons_append, List.cons.injEq,
        List.nil_eq, List.append_eq_nil_iff] at htext
      obtain ⟨rfl, rfl, rfl⟩ := htext
      exact ⟨rfl, rfl, rfl, rfl⟩

/-- An underscore alone behind a dollar sign is the longest match of the marks and an identifier,
but no reference: with the longest matches as references the text could only be cut into one
reference, and it is parsed as plain text. -/
theorem lone_underscore_is_plain :
    (∀ ts, Lexes LongestMatch "$_".toList ts ↔ ts = [.reference false false ['_']]) ∧
    template [.reference false false ['_']] = [.reference "_" false false "$_"] ∧
    (Arena.ofNodes (parse "$_")).nodes? = some [.literal "$_"] := by
  have hspelled : ∀ c ∈ ['_'], isIdentifierChar c = true := fun c hc => by
    rw [List.mem_singleton.1 hc]
    rfl
  have hmatch : LongestMatch ['_'] false false ['_'] [] :=
    ⟨rfl, by simp, hspelled, by simp, fun _ _ => rfl⟩
  have htext : "$_".toList = ['$', '_'] := rfl
  refine ⟨fun ts => ⟨fun h => ?_, ?_⟩, ?_, ?_⟩
  · rw [htext] at h
    cases h with
    | dollar lone => exact absurd hmatch (lone _ _ _ _)
    | plain other => simp at other
    | reference refers rest =>
      obtain ⟨rfl, rfl, rfl, rfl⟩ := refers.of_underscore
      cases rest
      rfl
  · rintro rfl
    exact .reference hmatch .done
  · simp only [template, addToken]
    rfl
  · rw [Arena.nodes?_ofNodes]
    rfl

end ChatBot.Template
