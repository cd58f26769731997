import ChatBot.Text.Blank
import Mathlib.Data.List.DropRight

/-!
# Trimmed texts

What trimming does can be said without saying how: it takes blanks off at both ends, and neither
ends what is left with a blank nor starts it with one. Trimming leaves such a text
(`trimmed_trimChars`), and no other one is such a text (`Trimmed.eq`).
-/

set_option autoImplicit false

namespace ChatBot.Text

/-- Dropping characters at the end is the library's. -/
theorem dropEndWhile_eq_rdropWhile (p : Char → Bool) (cs : List Char) :
    dropEndWhile p cs = cs.rdropWhile p := by
  induction cs with
  | nil => rfl
  | cons c cs ih =>
    rw [dropEndWhile, ih, List.rdropWhile, List.rdropWhile, List.reverse_cons,
      List.dropWhile_append]
    cases h : cs.reverse.dropWhile p with
    | nil =>
      cases hc : p c <;> simp [hc]
    | cons d ds =>
      have hne : ds.reverse ++ [d] ≠ [] := by simp
      obtain ⟨e, es, hes⟩ := List.exists_cons_of_ne_nil hne
      simp [hes]

/-- The text `t` is what is left of the text `cs` without the blanks at its ends. -/
structure Trimmed (cs t : List Char) : Prop where
  margins : ∃ front back, cs = front ++ t ++ back ∧
    (∀ c ∈ front, isBlank c = true) ∧ ∀ c ∈ back, isBlank c = true
  head : ∀ c ∈ t.head?, isBlank c = false
  last : ∀ c ∈ t.getLast?, isBlank c = false

/-- Trimming takes off the blanks at the ends, and no more. -/
theorem trimmed_trimChars (cs : List Char) : Trimmed cs (trimChars cs) := by
  rw [trimChars, dropEndWhile_eq_rdropWhile]
  refine ⟨⟨cs.takeWhile isBlank, (cs.dropWhile isBlank).rtakeWhile isBlank, ?_, ?_, ?_⟩, ?_, ?_⟩
  · rw [List.append_assoc, List.rdropWhile_append_rtakeWhile, List.takeWhile_append_dropWhile]
  · exact fun c hc => List.mem_takeWhile_imp hc
  · exact fun c hc => List.mem_rtakeWhile_imp hc
  · -- the first character that is left is the first one behind the leading blanks
    intro c hc
    obtain ⟨back, hback⟩ := List.rdropWhile_prefix isBlank (l := cs.dropWhile isBlank)
    have hhead : c ∈ (cs.dropWhile isBlank).head? := by
      rw [← hback, List.head?_append, hc]
      rfl
    have hnot := List.head?_dropWhile_not isBlank cs
    rw [hhead] at hnot
    exact hnot
  · intro c hc
    have hne : (cs.dropWhile isBlank).rdropWhile isBlank ≠ [] := by
      intro hnil
      rw [hnil] at hc
      cases hc
    have hlast := List.rdropWhile_last_not isBlank _ hne
    rw [List.getLast?_eq_some_getLast hne] at hc
    cases hc
    exact (Bool.not_eq_true _).mp hlast

/-- What is left without the blanks at the ends is what trimming leaves. -/
theorem Trimmed.eq {cs t : List Char} (h : Trimmed cs t) : trimChars cs = t := by
  obtain ⟨⟨front, back, rfl, hfront, hback⟩, hhead, hlast⟩ := h
  have hself : t.rdropWhile isBlank = t := by
    refine List.rdropWhile_eq_self_iff.2 fun hne => ?_
    exact (Bool.not_eq_true _).mpr (hlast _ (List.getLast?_eq_some_getLast hne))
  rw [trimChars, List.append_assoc, List.dropWhile_append_of_pos hfront, dropEndWhile_eq_rdropWhile]
  cases t with
  | nil =>
    have hdrop : back.dropWhile isBlank = [] := List.dropWhile_eq_nil_iff.2 hback
    rw [List.nil_append, hdrop, List.rdropWhile_nil]
  | cons c t =>
    have hc : ¬ isBlank c = true := by simp [hhead c rfl]
    rw [List.cons_append, List.dropWhile_cons_of_neg hc, ← List.cons_append, List.rdropWhile,
      List.reverse_append, List.dropWhile_append_of_pos (by simpa using hback)]
    exact hself

end ChatBot.Text
