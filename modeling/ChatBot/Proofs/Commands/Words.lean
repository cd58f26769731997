import ChatBot.Commands.Words

/-!
# Words and their spacing

A handler is given a line as words with single spaces between them, and may split it again. That
loses nothing: words put together with spaces fall into the same words (`words_spaced_words`).

`longestBeginning` tries beginnings from the longest one down. It finds the last of the results
that the beginnings have in the order of their length (`longestBeginning_eq_getLast?`).
-/

set_option autoImplicit false

namespace ChatBot

open Text

/-! ## Splitting what was put together -/

/-- A blank in front makes no difference to the words. -/
theorem wordsOf_blank {b : Char} (hb : isBlank b = true) (cs : List Char) :
    wordsOf (b :: cs) = wordsOf cs := by
  rw [wordsOf.eq_def]
  exact if_pos hb

/-- A character in front of another one that is no blank joins its word. -/
theorem wordsOf_joined {c d : Char} (hc : isBlank c = false) (hd : isBlank d = false)
    {cs w : List Char} {ws : List (List Char)} (h : wordsOf (d :: cs) = w :: ws) :
    wordsOf (c :: d :: cs) = (c :: w) :: ws := by
  rw [wordsOf.eq_def]
  simp only [hc, Bool.false_eq_true, if_false]
  rw [h]
  simp only [hd, Bool.false_eq_true, if_false]

/-- A character with no other one of its word behind it is a word of its own. -/
theorem wordsOf_ended {c : Char} (hc : isBlank c = false) {rest : List Char}
    (hrest : ∀ b ∈ rest.head?, isBlank b = true) : wordsOf (c :: rest) = [c] :: wordsOf rest := by
  rw [wordsOf.eq_def]
  simp only [hc, Bool.false_eq_true, if_false]
  cases rest with
  | nil => rfl
  | cons b cs =>
    have hb : isBlank b = true := hrest b rfl
    rw [wordsOf_blank hb]
    cases wordsOf cs with
    | nil => rfl
    | cons w ws => simp only [hb, if_true]

/-- The words of characters are what lies between the blanks, as far as that is not empty. -/
theorem wordsOf_eq_splitOnP (cs : List Char) :
    wordsOf cs = (cs.splitOnP isBlank).filter fun w => !w.isEmpty := by
  induction cs with
  | nil => rfl
  | cons c cs ih =>
    rw [List.splitOnP_cons_eq_if_modifyHead]
    cases hc : isBlank c with
    | true => rw [wordsOf_blank hc, ih, if_pos rfl]; rfl
    | false =>
      rw [if_neg Bool.false_ne_true]
      cases cs with
      | nil =>
        rw [wordsOf_ended hc (by simp)]
        rfl
      | cons d ds =>
        rw [List.splitOnP_cons_eq_if_modifyHead] at ih ⊢
        cases hd : isBlank d with
        | true =>
          rw [hd, if_pos rfl] at ih
          rw [wordsOf_ended hc (by simpa using hd), ih, if_pos rfl]
          rfl
        | false =>
          obtain ⟨first, rest, hsplit⟩ :=
            List.exists_cons_of_ne_nil (List.splitOnP_ne_nil isBlank ds)
          rw [hd, if_neg Bool.false_ne_true, hsplit] at ih
          rw [if_neg Bool.false_ne_true, hsplit]
          exact wordsOf_joined hc hd ih

/-- The words of a line in lower case are what lies between its blanks, each in lower case. -/
theorem lowerWords_eq (line : String) :
    lowerWords line = ((line.toList.splitOnP isBlank).filter fun w => !w.isEmpty).map
      fun w => lower (String.ofList w) := by
  rw [lowerWords, words, wordsOf_eq_splitOnP, List.map_map]
  rfl

/-- A run without blanks is a word of its own, up to its end or a blank that follows. -/
theorem wordsOf_append {w rest : List Char} (hne : w ≠ [])
    (hw : ∀ c ∈ w, isBlank c = false) (hrest : ∀ b ∈ rest.head?, isBlank b = true) :
    wordsOf (w ++ rest) = w :: wordsOf rest := by
  induction w with
  | nil => exact absurd rfl hne
  | cons c w ih =>
    have hc : isBlank c = false := hw c List.mem_cons_self
    cases w with
    | nil => exact wordsOf_ended hc hrest
    | cons d w =>
      have hd : isBlank d = false := hw d (by simp)
      have hsub : ∀ x ∈ d :: w, isBlank x = false := by
        intro x hx
        exact hw x (List.mem_cons_of_mem c hx)
      exact wordsOf_joined hc hd (ih (List.cons_ne_nil d w) hsub)

/-- Words that are put together with single spaces fall apart into the same words. -/
theorem words_spaced {ws : List String}
    (h : ∀ w ∈ ws, w.toList ≠ [] ∧ ∀ c ∈ w.toList, isBlank c = false) :
    words (spaced ws) = ws := by
  induction ws with
  | nil => rfl
  | cons w ws ih =>
    obtain ⟨hne, hw⟩ := h w List.mem_cons_self
    have hws : ∀ v ∈ ws, v.toList ≠ [] ∧ ∀ c ∈ v.toList, isBlank c = false := by
      intro v hv
      exact h v (List.mem_cons_of_mem w hv)
    have ih := ih hws
    cases ws with
    | nil =>
      have hend : ∀ b ∈ ([] : List Char).head?, isBlank b = true := by simp
      have happend := wordsOf_append hne hw hend
      rw [List.append_nil] at happend
      unfold words spaced joinWith
      rw [happend, List.map_cons, String.ofList_toList]
      rfl
    | cons v vs =>
      have hchars : (spaced (w :: v :: vs)).toList =
          w.toList ++ ' ' :: (spaced (v :: vs)).toList := by
        simp [spaced, joinWith]
      have hblank : ∀ b ∈ (' ' :: (spaced (v :: vs)).toList).head?, isBlank b = true := by
        intro b hb
        obtain rfl : ' ' = b := by simpa using hb
        rfl
      unfold words at ih ⊢
      rw [hchars, wordsOf_append hne hw hblank, wordsOf_blank rfl, List.map_cons, ih,
        String.ofList_toList]

/-- A line that is written with single spaces has the same words. -/
theorem words_spaced_words (line : String) : words (spaced (words line)) = words line :=
  words_spaced fun _ h => isBlank_of_mem_words h

/-- Spacing the words of a line out makes no difference to its words in lower case. -/
theorem lowerWords_spaced_words (line : String) :
    lowerWords (spaced (words line)) = lowerWords line := by
  unfold lowerWords
  rw [words_spaced_words]

/-! ## Blanks around a text -/

/-- The words of a text that begins with a character depend on the words behind it, and on what
comes right after it. -/
theorem wordsOf_cons_congr (c : Char) {cs ds : List Char} (hwords : wordsOf cs = wordsOf ds)
    (hhead : cs.head? = ds.head? ∨ wordsOf ds = []) : wordsOf (c :: cs) = wordsOf (c :: ds) := by
  rw [wordsOf.eq_def, wordsOf.eq_def (c :: ds)]
  dsimp only
  rw [hwords]
  rcases hhead with hhead | hnil
  · generalize wordsOf ds = ws
    cases cs with
    | nil =>
      cases ds with
      | nil => rfl
      | cons d ds => cases hhead
    | cons b bs =>
      cases ds with
      | nil => cases hhead
      | cons d ds =>
        obtain rfl : b = d := Option.some_inj.1 hhead
        cases ws <;> rfl
  · rw [hnil]
    cases cs <;> cases ds <;> rfl

/-- Blanks taken off in front make no difference to the words. -/
theorem wordsOf_dropWhile (cs : List Char) : wordsOf (cs.dropWhile isBlank) = wordsOf cs := by
  induction cs with
  | nil => rfl
  | cons c cs ih =>
    cases hc : isBlank c with
    | true => rw [List.dropWhile_cons_of_pos hc, ih, wordsOf_blank hc]
    | false => rw [List.dropWhile_cons_of_neg (by simp [hc])]

/-- Taking characters off the end leaves the first one, as long as one is left. -/
theorem head?_dropEndWhile {p : Char → Bool} {cs : List Char} (h : dropEndWhile p cs ≠ []) :
    (dropEndWhile p cs).head? = cs.head? := by
  cases cs with
  | nil => rfl
  | cons c cs =>
    unfold dropEndWhile at h ⊢
    cases hrest : dropEndWhile p cs with
    | nil =>
      rw [hrest] at h
      by_cases hc : p c = true
      · exact absurd (if_pos hc) h
      · dsimp only
        rw [if_neg hc]
        rfl
    | cons d ds => rfl

/-- Blanks taken off the end make no difference to the words. -/
theorem wordsOf_dropEndWhile (cs : List Char) : wordsOf (dropEndWhile isBlank cs) = wordsOf cs := by
  induction cs with
  | nil => rfl
  | cons c cs ih =>
    cases hrest : dropEndWhile isBlank cs with
    | nil =>
      rw [hrest] at ih
      have hcons : wordsOf [c] = wordsOf (c :: cs) := wordsOf_cons_congr c ih (.inr ih.symm)
      rw [dropEndWhile, hrest, ← hcons]
      cases hc : isBlank c with
      | true => exact (wordsOf_blank hc []).symm
      | false => rfl
    | cons d ds =>
      have hne : dropEndWhile isBlank cs ≠ [] := by simp [hrest]
      have hhead := head?_dropEndWhile hne
      rw [hrest] at ih hhead
      rw [dropEndWhile, hrest]
      exact wordsOf_cons_congr c ih (.inl hhead)

/-- Blanks around a text do not change its words. -/
theorem words_trim (s : String) : words (trim s) = words s := by
  unfold words trim trimChars
  rw [String.toList_ofList, wordsOf_dropEndWhile, wordsOf_dropWhile]

/-! ## The longest beginning -/

/-- The longest beginning with a result is the last one with a result. -/
theorem longestBeginning_eq_getLast? {α : Type} (f : Nat → Option α) (n : Nat) :
    longestBeginning f n = ((List.range n).filterMap fun k => f (k + 1)).getLast? := by
  induction n with
  | zero => rfl
  | succ n ih =>
    rw [longestBeginning, List.range_succ, List.filterMap_append]
    cases h : f (n + 1) with
    | some a => simp [h]
    | none => simp [h, ih]

/-- The search from the longest beginning down, told by what it finds. -/
theorem longestBeginning_cases {α : Type} (f : Nat → Option α) (n : Nat) :
    (longestBeginning f n = none ∧ ∀ k, k ≠ 0 → k ≤ n → f k = none) ∨
      ∃ k a, k ≠ 0 ∧ k ≤ n ∧ f k = some a ∧ (∀ j, k < j → j ≤ n → f j = none) ∧
        longestBeginning f n = some a := by
  induction n with
  | zero => exact .inl ⟨rfl, fun k hk hle => absurd (Nat.le_zero.1 hle) hk⟩
  | succ n ih =>
    cases htop : f (n + 1) with
    | some a =>
      refine .inr ⟨n + 1, a, Nat.succ_ne_zero n, Nat.le_refl _, htop, fun j hlt hle => ?_, ?_⟩
      · exact absurd hle (Nat.not_le.2 hlt)
      · rw [longestBeginning, htop]
    | none =>
      have hdown : longestBeginning f (n + 1) = longestBeginning f n := by
        rw [longestBeginning, htop]
      have habove {j : Nat} (hj : j ≤ n + 1) (hrest : j ≤ n → f j = none) : f j = none := by
        rcases Nat.le_succ_iff.1 hj with hle | rfl
        · exact hrest hle
        · exact htop
      rcases ih with ⟨hnone, hall⟩ | ⟨k, a, hk, hkn, hf, hmore, hsome⟩
      · exact .inl ⟨hdown.trans hnone, fun k hk hle => habove hle (hall k hk)⟩
      · exact .inr ⟨k, a, hk, Nat.le_succ_of_le hkn, hf,
          fun j hlt hle => habove hle (hmore j hlt), hdown.trans hsome⟩

end ChatBot
