import Mathlib.Data.List.Basic

/-!
# Cutting texts at byte offsets

A text takes one to four bytes for each character. An offset into the bytes is good for cutting the
text if it lies between two characters, or at one of the ends (`cutAt?_eq_some_iff`); a piece can be
taken out of a text between two such offsets if they are in order (`slice?_append`).
-/

set_option autoImplicit false

namespace ChatBot.Text

/-- The bytes of a text. -/
def bytes (cs : List Char) : List UInt8 :=
  cs.flatMap String.utf8EncodeChar

/-- How many bytes a text has. -/
def byteLength (cs : List Char) : Nat :=
  (bytes cs).length

/-- An empty text has no bytes. -/
@[simp] theorem byteLength_nil : byteLength [] = 0 := rfl

/-- The bytes of a text, one character at a time. -/
@[simp] theorem byteLength_cons (c : Char) (cs : List Char) :
    byteLength (c :: cs) = c.utf8Size + byteLength cs := by
  simp [byteLength, bytes]

/-- The bytes of two texts in a row add up. -/
@[simp] theorem byteLength_append (front back : List Char) :
    byteLength (front ++ back) = byteLength front + byteLength back := by
  simp [byteLength, bytes]

/-- Cuts a text at an offset, unless that lies behind the end or within a character. -/
def cutAt? : List Char → Nat → Option (List Char × List Char)
  | cs, 0 => some ([], cs)
  | [], _ + 1 => none
  | c :: cs, n + 1 =>
    if c.utf8Size ≤ n + 1 then
      (cutAt? cs (n + 1 - c.utf8Size)).map fun (front, back) => (c :: front, back)
    else none

/-- The text from an offset on. -/
def sliceFrom? (cs : List Char) (start : Nat) : Option (List Char) :=
  (cutAt? cs start).map Prod.snd

/-- The text from an offset up to another. -/
def slice? (cs : List Char) (start stop : Nat) : Option (List Char) :=
  if start ≤ stop then (cutAt? cs stop).bind fun (front, _) => sliceFrom? front start else none

/-- The good offsets are those between two parts of a text. -/
theorem cutAt?_eq_some_iff {cs front back : List Char} {n : Nat} :
    cutAt? cs n = some (front, back) ↔ cs = front ++ back ∧ n = byteLength front := by
  induction cs generalizing n front with
  | nil =>
    cases n with
    | zero => cases front <;> simp [cutAt?, eq_comm]
    | succ n => cases front <;> simp [cutAt?]
  | cons c cs ih =>
    have hsize := c.utf8Size_pos
    cases n with
    | zero =>
      cases front with
      | nil => simp [cutAt?, eq_comm]
      | cons d front =>
        have := d.utf8Size_pos
        simp only [cutAt?, byteLength_cons]
        refine iff_of_false (by simp) fun h => ?_
        omega
    | succ n =>
      cases front with
      | nil =>
        simp only [cutAt?]
        refine iff_of_false ?_ (by simp)
        split <;> simp
      | cons d front =>
        simp only [cutAt?, List.cons_append, List.cons.injEq, byteLength_cons]
        constructor
        · intro h
          split at h
          · obtain ⟨⟨front', back'⟩, hcut, heq⟩ := Option.map_eq_some_iff.1 h
            obtain ⟨⟨rfl, rfl⟩, rfl⟩ : (c = d ∧ front' = front) ∧ back' = back := by
              simpa using heq
            obtain ⟨hcs, hn⟩ := ih.1 hcut
            exact ⟨⟨rfl, hcs⟩, by omega⟩
          · cases h
        · rintro ⟨⟨rfl, hcs⟩, hn⟩
          rw [if_pos (by omega), ih.2 ⟨hcs, by omega⟩]
          rfl

/-- A text is cut where its first part ends. -/
theorem cutAt?_append (front back : List Char) :
    cutAt? (front ++ back) (byteLength front) = some (front, back) :=
  cutAt?_eq_some_iff.2 ⟨rfl, rfl⟩

/-- From where the first part of a text ends, it is the second one. -/
theorem sliceFrom?_append (front back : List Char) :
    sliceFrom? (front ++ back) (byteLength front) = some back := by
  rw [sliceFrom?, cutAt?_append]
  rfl

/-- Within a character no text can be cut. -/
example : sliceFrom? ['é', '!'] 1 = none ∧ sliceFrom? ['é', '!'] 2 = some ['!'] := by decide

/-- A piece of a text can be taken out of it. -/
theorem slice?_append (before piece after : List Char) :
    slice? (before ++ piece ++ after) (byteLength before) (byteLength (before ++ piece)) =
      some piece := by
  rw [slice?, if_pos (by simp), cutAt?_append]
  exact sliceFrom?_append before piece

/-- An ASCII character is one byte. -/
theorem utf8EncodeChar_of_ascii {c : Char} (h : c.toNat < 128) :
    String.utf8EncodeChar c = [UInt8.ofNat c.toNat] :=
  if_pos (Nat.le_of_lt_succ h)

/-- An ASCII character has one byte. -/
theorem utf8Size_of_ascii {c : Char} (h : c.toNat < 128) : c.utf8Size = 1 := by
  rw [← String.length_utf8EncodeChar, utf8EncodeChar_of_ascii h]
  rfl

/-- Every other character starts with a byte that no ASCII character has. -/
theorem utf8EncodeChar_of_not_ascii {c : Char} (h : 128 ≤ c.toNat) :
    ∃ b tail, String.utf8EncodeChar c = b :: tail ∧ 128 ≤ b.toNat := by
  have hval : ¬ c.val.toNat ≤ 127 := Nat.not_le_of_lt h
  unfold String.utf8EncodeChar
  dsimp only
  rw [if_neg hval]
  split
  · exact ⟨_, _, rfl, by simp; omega⟩
  split
  · exact ⟨_, _, rfl, by simp; omega⟩
  · exact ⟨_, _, rfl, by simp; omega⟩

end ChatBot.Text
