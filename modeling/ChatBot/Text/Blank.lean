/-!
# Blanks and words

A blank is a character of the Unicode property White_Space. Texts are trimmed of blanks at both
ends, and a line falls into words at its blanks. `isBlank_of_mem_words` is the law of the word
split: no word holds a blank, and none is empty.
-/

set_option autoImplicit false

namespace ChatBot.Text

/-- The twenty-five characters of the Unicode property White_Space. -/
def isBlank (c : Char) : Bool :=
  let n := c.toNat
  if n < 0x80 then n == 0x20 || (0x09 ≤ n && n ≤ 0x0d)
  else n == 0x85 || n == 0xa0 || n == 0x1680 || (0x2000 ≤ n && n ≤ 0x200a) || n == 0x2028 ||
    n == 0x2029 || n == 0x202f || n == 0x205f || n == 0x3000

/-- The characters without the ones at the end that satisfy a test. -/
def dropEndWhile (p : Char → Bool) : List Char → List Char
  | [] => []
  | c :: cs =>
    match dropEndWhile p cs with
    | [] => if p c then [] else [c]
    | rest => c :: rest

/-- Characters without leading and trailing blanks. -/
def trimChars (cs : List Char) : List Char :=
  dropEndWhile isBlank (cs.dropWhile isBlank)

/-- A text without leading and trailing blanks. -/
def trim (s : String) : String :=
  String.ofList (trimChars s.toList)

/-- Whether a text holds nothing but blanks. -/
def isBlankText (s : String) : Bool :=
  s.toList.all isBlank

/-- The longest runs of characters without a blank, in order. -/
def wordsOf : List Char → List (List Char)
  | [] => []
  | c :: cs =>
    if isBlank c then wordsOf cs
    else
      match cs, wordsOf cs with
      | d :: _, w :: ws => if isBlank d then [c] :: w :: ws else (c :: w) :: ws
      | _, ws => [c] :: ws

/-- The words of a text: its longest runs without a blank, in order. -/
def words (s : String) : List String :=
  (wordsOf s.toList).map String.ofList

/-- Words are not empty, and there are no blanks in them. -/
theorem mem_wordsOf {cs : List Char} :
    ∀ w ∈ wordsOf cs, w ≠ [] ∧ ∀ c ∈ w, isBlank c = false := by
  induction cs with
  | nil => simp [wordsOf]
  | cons c cs ih =>
    intro w h
    unfold wordsOf at h
    split at h
    · exact ih w h
    · rename_i hc
      have hc : isBlank c = false := by simpa using hc
      split at h
      · rename_i d ds v vs hv
        rw [hv] at ih
        split at h
        · rcases List.mem_cons.1 h with rfl | h
          · simpa using hc
          · exact ih w h
        · rcases List.mem_cons.1 h with rfl | h
          · refine ⟨by simp, fun x hx => ?_⟩
            rcases List.mem_cons.1 hx with rfl | hx
            · exact hc
            · exact (ih v (by simp)).2 x hx
          · exact ih w (by simp [h])
      · rcases List.mem_cons.1 h with rfl | h
        · simpa using hc
        · exact ih w h

/-- No word of a text is empty or holds a blank. -/
theorem isBlank_of_mem_words {s w : String} (h : w ∈ words s) :
    w.toList ≠ [] ∧ ∀ c ∈ w.toList, isBlank c = false := by
  obtain ⟨cs, hcs, rfl⟩ := List.mem_map.1 h
  simpa using mem_wordsOf cs hcs

end ChatBot.Text
