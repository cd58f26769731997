import ChatBot.Proofs.Json.Reading

/-!
# Strings are shorter than their texts

A text that is read as a string is longer than the string by two characters at least, its quotes
(`length_of_parse?_str`), so no string is its own text. Only a text that starts with a quote is read
as a string (`readValue_eq_str`); what is read as a number is none, however it is written.
-/

set_option autoImplicit false

namespace ChatBot.Json

open ChatBot.Text

/-! ## Up to the closing quote -/

/-- What stands in a string is shorter than its text, which has the closing quote as well. -/
theorem length_of_readString? {cs s rest : List Char} (h : readString? cs = some (s, rest)) :
    s.length + rest.length + 1 ≤ cs.length := by
  fun_induction readString? cs generalizing s rest
  case case1 | case3 | case4 | case6 | case7 | case8 | case11 | case12 => cases h
  case case2 =>
    cases h
    simp
  -- a character of the string, for which one of the text stands or an escape of several
  case case5 ih | case9 ih | case10 ih | case13 ih =>
    obtain ⟨⟨tail, left⟩, htail, ⟨⟩⟩ := Option.map_eq_some_iff.1 h
    have hle := ih htail
    simp only [List.length_cons]
    omega

/-! ## Numbers are no strings -/

/-- A whole number is no string. -/
theorem asString?_wholeNumber (negative : Bool) (n : Nat) :
    (wholeNumber negative n).asString? = none := by
  unfold wholeNumber
  split
  · rfl
  · split <;> rfl

/-- A reader that reads no strings. -/
def ReadsNoString (read : List Char → Option (Json × List Char)) : Prop :=
  ∀ {cs rest : List Char} {v : Json}, read cs = some (v, rest) → v.asString? = none

/-- A number that could be made is no string. -/
theorem asString?_of_map {x : Option Float} {negative : Bool} {cs rest : List Char} {v : Json}
    (h : x.map (fun x => (withSign negative x, cs)) = some (v, rest)) : v.asString? = none := by
  obtain ⟨x, -, ⟨⟩⟩ := Option.map_eq_some_iff.1 h
  rfl

/-- What is read as an exponent is no string. -/
theorem readsNoString_readExponent (negative : Bool) (significand : Nat) (start : Int) :
    ReadsNoString (readExponent negative significand start) := by
  intro cs rest v h
  simp only [readExponent] at h
  split at h
  · cases h
  · split at h
    · split at h <;> cases h
      rfl
    · exact asString?_of_map h

/-- What is read behind the digits of a number is no string. -/
theorem readsNoString_finishNumber (negative : Bool) (significand : Nat) (exponent : Int) :
    ReadsNoString (finishNumber negative significand exponent) := by
  intro cs rest v h
  unfold finishNumber at h
  split at h
  · split at h
    · exact readsNoString_readExponent _ _ _ h
    · exact asString?_of_map h
  · exact asString?_of_map h

/-- What is read as a fraction is no string. -/
theorem readsNoString_readFraction (negative : Bool) (significand : Nat) (start : Int) :
    ReadsNoString (readFraction negative significand start) := by
  intro cs rest v h
  unfold readFraction at h
  split at h
  · split at h
    · exact readsNoString_finishNumber _ _ _ h
    · cases h
  · cases h

/-- What is read behind digits that are passed over is no string. -/
theorem readsNoString_readTail (negative : Bool) (significand : Nat) (extra : Int) :
    ReadsNoString (readTail negative significand extra) := by
  intro cs rest v h
  unfold readTail at h
  split at h
  · exact readsNoString_readFraction _ _ _ h
  · exact readsNoString_finishNumber _ _ _ h

/-- What is read behind the first digits of a number is no string. -/
theorem readsNoString_readRest (negative : Bool) (c : Char) (significand : Nat) :
    ReadsNoString (readRest negative c significand) := by
  intro cs rest v h
  unfold readRest at h
  split at h
  · exact readsNoString_readFraction _ _ _ h
  · split at h
    · exact readsNoString_readExponent _ _ _ h
    · split at h
      · split at h
        · cases h
        · exact readsNoString_readTail _ _ _ h
      · cases h
        exact asString?_wholeNumber _ _
  · cases h
    exact asString?_wholeNumber _ _

/-- What is read as a number is no string. -/
theorem readsNoString_readNumber (negative : Bool) : ReadsNoString (readNumber negative) := by
  intro cs rest v h
  cases cs with
  | nil => cases h
  | cons c tail =>
    rw [readNumber_cons] at h
    split at h
    · cases h
    · exact readsNoString_readRest _ _ _ h

/-! ## Texts of strings -/

/-- A string is read where a quote opens, from there on. -/
theorem readValue_eq_str {depth fuel : Nat} {cs rest : List Char} {s : String}
    (h : readValue depth fuel cs = some (str s, rest)) :
    ∃ inner, cs.dropWhile isSpace = '"' :: inner ∧
      readString? inner = some (s.toList, rest) := by
  cases fuel with
  | zero => cases h
  | succ fuel =>
    rw [readValue] at h
    split at h
    · next inner hfront =>
      obtain ⟨⟨t, after⟩, hread, heq⟩ := Option.map_eq_some_iff.1 h
      obtain ⟨hs, rfl⟩ := Prod.mk.inj heq
      rw [← Json.str.inj hs, String.toList_ofList]
      exact ⟨inner, hfront, hread⟩
    · split at h
      · cases h
      · split at h
        · cases h
        · obtain ⟨_, -, ⟨⟩⟩ := Option.map_eq_some_iff.1 h
    · split at h
      · cases h
      · split at h
        · cases h
        · obtain ⟨_, -, ⟨⟩⟩ := Option.map_eq_some_iff.1 h
    · obtain ⟨_, -, ⟨⟩⟩ := Option.map_eq_some_iff.1 h
    · obtain ⟨_, -, ⟨⟩⟩ := Option.map_eq_some_iff.1 h
    · obtain ⟨_, -, ⟨⟩⟩ := Option.map_eq_some_iff.1 h
    · cases readsNoString_readNumber _ h
    · cases readsNoString_readNumber _ h

/-- The text of a string is longer than the string, by two quotes at least. -/
theorem length_of_parse?_str {text s : String} (h : parse? text = some (str s)) :
    s.length + 2 ≤ text.length := by
  unfold parse? at h
  dsimp only at h
  split at h
  · next v rest hread =>
    split at h
    · cases h
      obtain ⟨inner, hfront, hinner⟩ := readValue_eq_str hread
      have hstring := length_of_readString? hinner
      have hblanks := (List.dropWhile_suffix (p := isSpace) (l := text.toList)).length_le
      rw [hfront, List.length_cons] at hblanks
      rw [← String.length_toList, ← String.length_toList]
      omega
    · cases h
  · cases h

end ChatBot.Json
