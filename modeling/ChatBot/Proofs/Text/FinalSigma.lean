import ChatBot.Text.LowerCase
import ChatBot.Text.Search
import Mathlib.Data.List.TakeWhile

/-!
# Lower case within a text

Lower-casing goes from character to character, but a capital sigma looks at its neighbours: it takes
the form of the end of a word where a cased letter stands before it and none behind it. So a piece
of a text is lower-cased as it would be alone if its capital sigmas take the same form in both
places (`contains_lower`). A sigma does so whatever is around the piece, if the piece itself has on
either side of it a character that is not looked through (`keepsSigmas_of_enclosed`).
-/

set_option autoImplicit false

namespace ChatBot.Text

/-- Whether a capital sigma takes the form of the end of a word, with `before` in front of it,
nearest first, and `after` behind it. -/
def endsWord (before after : List Char) : Bool :=
  startsCased before && !startsCased after

/-- The lower case of a character between `before` and `after`. -/
def lowerAt (before : List Char) (c : Char) (after : List Char) : List Char :=
  if c == 'Σ' then
    if endsWord before after then ['ς'] else ['σ']
  else lowerChar c

/-- Only the lower case of a capital sigma depends on what is around it. -/
theorem lowerAt_eq_iff {before before' after after' : List Char} {c : Char} :
    lowerAt before c after = lowerAt before' c after' ↔
      (c = 'Σ' → endsWord before after = endsWord before' after') := by
  rw [lowerAt, lowerAt]
  by_cases hc : c = 'Σ'
  · rw [if_pos (beq_iff_eq.2 hc), if_pos (beq_iff_eq.2 hc)]
    cases endsWord before after <;> cases endsWord before' after' <;> simp [hc]
  · rw [if_neg (by simpa using hc), if_neg (by simpa using hc)]
    simp [hc]

/-- The lower case of a character has the same length wherever it stands. -/
theorem length_lowerAt (before before' : List Char) (c : Char) (after after' : List Char) :
    (lowerAt before c after).length = (lowerAt before' c after').length := by
  rw [lowerAt, lowerAt]
  split
  · split <;> split <;> rfl
  · rfl

/-- Lower-cases `cs` where it stands in a text, with `before` in front of it, nearest first, and
`after` behind it. -/
def lowerWithin (before cs after : List Char) : List Char :=
  match cs with
  | [] => []
  | c :: cs => lowerAt before c (cs ++ after) ++ lowerWithin (c :: before) cs after

/-- A text is lower-cased piece by piece, each piece within what is around it. -/
theorem lowerFrom_append (before cs after : List Char) :
    lowerFrom before (cs ++ after) =
      lowerWithin before cs after ++ lowerFrom (cs.reverse ++ before) after := by
  induction cs generalizing before with
  | nil => rfl
  | cons c cs ih =>
    rw [List.cons_append, lowerFrom, lowerWithin, ih (c :: before), List.reverse_cons,
      List.append_assoc, List.append_assoc]
    rfl

/-- At the end of a text, nothing follows. -/
theorem lowerWithin_nil (before cs : List Char) :
    lowerWithin before cs [] = lowerFrom before cs := by
  have happend := lowerFrom_append before cs []
  rwa [List.append_nil, lowerFrom, List.append_nil, eq_comm] at happend

/-- A piece is lower-cased alike in two places just if its capital sigmas take the same forms. -/
theorem lowerWithin_eq_iff {cs before before' after after' : List Char} :
    lowerWithin before cs after = lowerWithin before' cs after' ↔
      ∀ u v, cs = u ++ 'Σ' :: v →
        endsWord (u.reverse ++ before) (v ++ after) =
          endsWord (u.reverse ++ before') (v ++ after') := by
  induction cs generalizing before before' with
  | nil =>
    refine iff_of_true rfl fun u v hnil => ?_
    cases u <;> cases hnil
  | cons c cs ih =>
    have hhere : lowerWithin before (c :: cs) after = lowerWithin before' (c :: cs) after' ↔
        lowerAt before c (cs ++ after) = lowerAt before' c (cs ++ after') ∧
          lowerWithin (c :: before) cs after = lowerWithin (c :: before') cs after' := by
      rw [lowerWithin, lowerWithin]
      refine ⟨fun heq => List.append_inj heq (length_lowerAt ..), fun heq => ?_⟩
      rw [heq.1, heq.2]
    rw [hhere, lowerAt_eq_iff, ih]
    constructor
    · rintro ⟨hfirst, hrest⟩ u v hsplit
      cases u with
      | nil =>
        obtain ⟨hc, rfl⟩ := List.cons.inj hsplit
        exact hfirst hc
      | cons d u =>
        obtain ⟨rfl, hcs⟩ := List.cons.inj hsplit
        simpa using hrest u v hcs
    · intro hall
      refine ⟨fun hc => ?_, fun u v hcs => ?_⟩
      · simpa using hall [] cs (by rw [hc, List.nil_append])
      · simpa using hall (c :: u) v (by rw [hcs, List.cons_append])

/-- Every capital sigma of a piece takes the same form between `front` and `back` as in the piece
alone. -/
def KeepsSigmas (front piece back : String) : Prop :=
  ∀ u v, piece.toList = u ++ 'Σ' :: v →
    endsWord (u.reverse ++ front.toList.reverse) (v ++ back.toList) = endsWord u.reverse v

/-- A piece stands in a text's lower case as it does alone just if its capital sigmas keep their
forms. -/
theorem lowerWithin_eq_lower_iff {front piece back : String} :
    lowerWithin front.toList.reverse piece.toList back.toList = (lower piece).toList ↔
      KeepsSigmas front piece back := by
  rw [lower, String.toList_ofList, ← lowerWithin_nil, lowerWithin_eq_iff]
  simp only [List.append_nil]
  rfl

instance (front piece back : String) : Decidable (KeepsSigmas front piece back) :=
  decidable_of_iff _ lowerWithin_eq_lower_iff

/-- A text in three pieces is lower-cased piece by piece, each within what is around it. -/
theorem toList_lower_append (front piece back : String) :
    (lower (front ++ piece ++ back)).toList =
      lowerWithin [] front.toList (piece ++ back).toList ++
        lowerWithin front.toList.reverse piece.toList back.toList ++
        lowerFrom (front ++ piece).toList.reverse back.toList := by
  rw [lower, String.toList_ofList, String.append_assoc, String.toList_append, lowerFrom_append,
    List.append_nil, String.toList_append, lowerFrom_append, String.toList_append,
    List.reverse_append, List.append_assoc]

/-- A text in lower case contains the lower case of a piece whose capital sigmas keep
their forms. -/
theorem contains_lower {front piece back : String} (h : KeepsSigmas front piece back) :
    contains (lower (front ++ piece ++ back)) (lower piece) = true := by
  have htext := toList_lower_append front piece back
  rw [lowerWithin_eq_lower_iff.2 h] at htext
  exact occursIn_iff.2 ⟨_, _, htext⟩

/-- What comes behind a character that is not looked through does not matter. -/
theorem startsCased_append {cs : List Char} (h : ∃ c ∈ cs, isCaseIgnorable c = false)
    (more : List Char) : startsCased (cs ++ more) = startsCased cs := by
  obtain ⟨c, hc, hseen⟩ := h
  have hne : cs.dropWhile isCaseIgnorable ≠ [] := by
    intro hnil
    have hignored := List.dropWhile_eq_nil_iff.1 hnil c hc
    rw [hseen] at hignored
    cases hignored
  have hdrop : (cs ++ more).dropWhile isCaseIgnorable = cs.dropWhile isCaseIgnorable ++ more := by
    rw [List.dropWhile_append, if_neg (by simpa using hne)]
  obtain ⟨d, rest, hrest⟩ := List.exists_cons_of_ne_nil hne
  rw [startsCased, startsCased, hdrop, hrest]
  rfl

/-- A capital sigma keeps its form everywhere if the piece has on either side of it a character that
is not looked through. -/
theorem keepsSigmas_of_enclosed {piece : String}
    (h : ∀ u v, piece.toList = u ++ 'Σ' :: v →
      (∃ c ∈ u, isCaseIgnorable c = false) ∧ ∃ c ∈ v, isCaseIgnorable c = false)
    (front back : String) : KeepsSigmas front piece back := by
  intro u v hsplit
  obtain ⟨⟨c, hc, hseen⟩, hafter⟩ := h u v hsplit
  have hbefore : ∃ c ∈ u.reverse, isCaseIgnorable c = false :=
    ⟨c, List.mem_reverse.2 hc, hseen⟩
  rw [endsWord, endsWord, startsCased_append hbefore, startsCased_append hafter]

end ChatBot.Text
