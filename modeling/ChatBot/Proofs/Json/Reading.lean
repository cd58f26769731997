import ChatBot.Json.Parser
import ChatBot.Json.Printer
import ChatBot.Proofs.Number.Writing

/-!
# Reading beyond the end of a number or a string

A number ends where a character follows that stands in no number. What is read of it then does not
depend on what follows (`endsSafely_readNumber`), so that a number that reads back alone reads back
inside a list or an object. A string ends at its closing quote, and its escaped characters read back
one by one (`readString?_stringChars`).
-/

set_option autoImplicit false

namespace ChatBot.Json

open ChatBot.Text

/-! ## Numbers -/

/-- Whether a character may stand in a number. -/
def inNumber (c : Char) : Bool :=
  isAsciiDigit c || c == '.' || c == 'e' || c == 'E' || c == '+' || c == '-'

/-- What follows does not go on with a number. -/
def Ends (t : List Char) : Prop :=
  ∀ c ∈ t.head?, inNumber c = false

/-- A number may end where the text does. -/
theorem ends_nil : Ends [] := by
  simp [Ends]

/-- A number may end in front of a character that is in no number. -/
theorem ends_cons {c : Char} (h : inNumber c = false) (t : List Char) : Ends (c :: t) := by
  simpa [Ends] using h

/-- A reader that leaves an end of the text, and does the same when more follows that does not go
on with a number. -/
def EndsSafely (read : List Char → Option (Json × List Char)) : Prop :=
  ∀ {cs rest : List Char} {v : Json}, read cs = some (v, rest) →
    rest <:+ cs ∧ ∀ t, Ends t → read (cs ++ t) = some (v, rest ++ t)

section Number

variable {t : List Char}

/-- What follows a number does not start with a digit, a point or the mark of an exponent. -/
theorem Ends.not_digit (ht : Ends t) {c : Char} {cs : List Char} (h : t = c :: cs) :
    isAsciiDigit c = false ∧ c ≠ '.' ∧ (c == 'e' || c == 'E') = false := by
  subst h
  have hc : inNumber c = false := ht c rfl
  simp only [inNumber, Bool.or_eq_false_iff, beq_eq_false_iff_ne] at hc ⊢
  exact ⟨hc.1.1.1.1.1, hc.1.1.1.1.2, hc.1.1.1.2, hc.1.1.2⟩

/-- The digits at the front of a text stay the same when something follows that does not go on with
a number. -/
theorem takeWhile_append (ht : Ends t) (cs : List Char) :
    (cs ++ t).takeWhile isAsciiDigit = cs.takeWhile isAsciiDigit := by
  induction cs with
  | nil =>
    cases t with
    | nil => rfl
    | cons c t => simp [(ht.not_digit rfl).1]
  | cons c cs ih =>
    simp only [List.cons_append, List.takeWhile_cons, ih]

/-- What is behind the digits of a text comes in front of what follows. -/
theorem dropWhile_append (ht : Ends t) (cs : List Char) :
    (cs ++ t).dropWhile isAsciiDigit = cs.dropWhile isAsciiDigit ++ t := by
  induction cs with
  | nil =>
    cases t with
    | nil => rfl
    | cons c t => simp [(ht.not_digit rfl).1]
  | cons c cs ih =>
    simp only [List.cons_append, List.dropWhile_cons, ih]
    split <;> rfl

/-- Digits are gathered alike when something follows that does not go on with a number. -/
theorem gather_append (ht : Ends t) (significand taken : Nat) (cs : List Char) :
    gather significand taken (cs ++ t) =
      ((gather significand taken cs).1, (gather significand taken cs).2.1,
        (gather significand taken cs).2.2 ++ t) := by
  induction cs generalizing significand taken with
  | nil =>
    cases t with
    | nil => rfl
    | cons c t => simp [gather, (ht.not_digit rfl).1]
  | cons c cs ih =>
    simp only [List.cons_append, gather]
    split
    · exact ih _ _
    · rfl

/-- Gathering digits leaves an end of the text. -/
theorem gather_suffix (significand taken : Nat) (cs : List Char) :
    (gather significand taken cs).2.2 <:+ cs := by
  induction cs generalizing significand taken with
  | nil => exact List.suffix_rfl
  | cons c cs ih =>
    simp only [gather]
    split
    · exact (ih _ _).trans (List.suffix_cons c cs)
    · exact List.suffix_rfl

/-- A sign is read alike when something follows. -/
theorem takeSign_append {cs : List Char} (hne : (Number.takeSign cs).2 ≠ []) (t : List Char) :
    Number.takeSign (cs ++ t) = ((Number.takeSign cs).1, (Number.takeSign cs).2 ++ t) := by
  cases cs with
  | nil => exact absurd rfl hne
  | cons c cs =>
    by_cases hminus : c = '-'
    · subst hminus
      rfl
    · by_cases hplus : c = '+'
      · subst hplus
        rfl
      · simp [Number.takeSign, hminus, hplus]

/-- Reading a sign leaves an end of the text. -/
theorem takeSign_suffix (cs : List Char) : (Number.takeSign cs).2 <:+ cs := by
  unfold Number.takeSign
  split
  · exact List.suffix_cons _ _
  · exact List.suffix_cons _ _
  · exact List.suffix_rfl

/-- An exponent is read up to its end, whatever follows that. -/
theorem endsSafely_readExponent (negative : Bool) (significand : Nat) (start : Int) :
    EndsSafely (readExponent negative significand start) := by
  intro cs rest v h
  simp only [readExponent] at h
  split at h
  · cases h
  · next hdigits =>
    have hne : (Number.takeSign cs).2 ≠ [] := by
      intro hnil
      simp [hnil] at hdigits
    have hsuffix : (Number.takeSign cs).2.dropWhile isAsciiDigit <:+ cs :=
      (List.dropWhile_suffix _).trans (takeSign_suffix cs)
    split at h
    · next hlimit =>
      split at h
      · cases h
      · next hzero =>
        cases h
        refine ⟨hsuffix, fun t ht => ?_⟩
        simp only [readExponent, takeSign_append hne, takeWhile_append ht, dropWhile_append ht]
        rw [if_neg hdigits, if_pos hlimit, if_neg hzero]
    · next hlimit =>
      obtain ⟨x, hx, heq⟩ := Option.map_eq_some_iff.1 h
      cases heq
      refine ⟨hsuffix, fun t ht => ?_⟩
      simp only [readExponent, takeSign_append hne, takeWhile_append ht, dropWhile_append ht]
      rw [if_neg hdigits, if_neg hlimit]
      exact Option.map_eq_some_iff.2 ⟨x, hx, rfl⟩

/-- The end of a number is read up to its end, whatever follows that. -/
theorem endsSafely_finishNumber (negative : Bool) (significand : Nat) (exponent : Int) :
    EndsSafely (finishNumber negative significand exponent) := by
  intro cs rest v h
  cases cs with
  | nil =>
    obtain ⟨x, hx, heq⟩ := Option.map_eq_some_iff.1 h
    cases heq
    refine ⟨List.suffix_rfl, fun t ht => ?_⟩
    cases t with
    | nil => exact h
    | cons c t =>
      have hmark := (ht.not_digit rfl).2.2
      simp [finishNumber, hmark, hx]
  | cons c cs =>
    simp only [finishNumber] at h
    split at h
    · next hmark =>
      obtain ⟨hsuffix, hread⟩ := endsSafely_readExponent negative significand exponent h
      refine ⟨hsuffix.trans (List.suffix_cons c cs), fun t ht => ?_⟩
      simp only [List.cons_append, finishNumber]
      rw [if_pos hmark]
      exact hread t ht
    · next hmark =>
      obtain ⟨x, hx, heq⟩ := Option.map_eq_some_iff.1 h
      cases heq
      refine ⟨List.suffix_rfl, fun t ht => ?_⟩
      simp only [List.cons_append, finishNumber]
      rw [if_neg hmark, hx, Option.map_some]

/-- A fraction is read up to its end, whatever follows that. -/
theorem endsSafely_readFraction (negative : Bool) (significand : Nat) (start : Int) :
    EndsSafely (readFraction negative significand start) := by
  intro cs rest v h
  cases cs with
  | nil => cases h
  | cons c cs =>
    simp only [readFraction] at h
    split at h
    · next hdigit =>
      obtain ⟨hsuffix, hread⟩ := endsSafely_finishNumber _ _ _ h
      refine ⟨?_, fun t ht => ?_⟩
      · exact hsuffix.trans ((List.dropWhile_suffix _).trans (gather_suffix _ _ _))
      · simp only [List.cons_append, readFraction]
        rw [if_pos hdigit, ← List.cons_append, gather_append ht]
        simp only [dropWhile_append ht]
        exact hread t ht
    · cases h

/-- The digits at the front of a number: what they come to, and the rest. -/
def leading (c : Char) (tail : List Char) : Nat × Nat × List Char :=
  if c == '0' then (0, 1, tail) else gather 0 0 (c :: tail)

/-- The first digits of a number are read alike when something follows that does not go
on with it. -/
theorem leading_append (ht : Ends t) (c : Char) (tail : List Char) :
    leading c (tail ++ t) =
      ((leading c tail).1, (leading c tail).2.1, (leading c tail).2.2 ++ t) := by
  unfold leading
  split
  · rfl
  · rw [← List.cons_append]
    exact gather_append ht 0 0 (c :: tail)

/-- Reading the first digits of a number leaves an end of the text. -/
theorem leading_suffix (c : Char) (tail : List Char) : (leading c tail).2.2 <:+ c :: tail := by
  unfold leading
  split
  · exact List.suffix_cons c tail
  · exact gather_suffix 0 0 (c :: tail)

/-- What follows the digits of a number once all of them have been passed over. -/
def readTail (negative : Bool) (significand : Nat) (extra : Int) (rest : List Char) :
    Option (Json × List Char) :=
  match rest with
  | '.' :: after => readFraction negative significand extra after
  | after => finishNumber negative significand extra after

/-- What is behind the digits that are passed over is read up to its end, whatever follows that. -/
theorem endsSafely_readTail (negative : Bool) (significand : Nat) (extra : Int) :
    EndsSafely (readTail negative significand extra) := by
  intro cs rest v h
  cases cs with
  | nil =>
    have h : finishNumber negative significand extra [] = some (v, rest) := h
    obtain ⟨hsuffix, hread⟩ := endsSafely_finishNumber negative significand extra h
    refine ⟨hsuffix, fun t ht => ?_⟩
    rw [← hread t ht, List.nil_append]
    cases t with
    | nil => rfl
    | cons d t => simp [readTail, (ht.not_digit rfl).2.1]
  | cons d cs =>
    by_cases hpoint : d = '.'
    · subst hpoint
      obtain ⟨hsuffix, hread⟩ := endsSafely_readFraction negative significand extra h
      exact ⟨hsuffix.trans (List.suffix_cons _ _), hread⟩
    · have htail (more : List Char) : readTail negative significand extra (d :: more) =
          finishNumber negative significand extra (d :: more) := by
        simp [readTail, hpoint]
      rw [htail] at h
      obtain ⟨hsuffix, hread⟩ := endsSafely_finishNumber negative significand extra h
      refine ⟨hsuffix, fun t ht => ?_⟩
      rw [List.cons_append, htail]
      exact hread t ht

/-- What follows the first digits of a number. -/
def readRest (negative : Bool) (c : Char) (significand : Nat) (rest : List Char) :
    Option (Json × List Char) :=
  match rest with
  | '.' :: after => readFraction negative significand 0 after
  | d :: after =>
    if d == 'e' || d == 'E' then readExponent negative significand 0 after
    else if isAsciiDigit d then
      if c == '0' then none
      else
        let extra := Int.ofNat (rest.takeWhile isAsciiDigit).length
        readTail negative significand extra (rest.dropWhile isAsciiDigit)
    else some (wholeNumber negative significand, rest)
  | [] => some (wholeNumber negative significand, rest)

/-- A number starts with a digit, and the rest is read behind its first digits. -/
theorem readNumber_cons (negative : Bool) (c : Char) (tail : List Char) :
    readNumber negative (c :: tail) =
      if !isAsciiDigit c then none
      else readRest negative c (leading c tail).1 (leading c tail).2.2 := by
  rfl

/-- What is behind the first digits is read up to its end, whatever follows that. -/
theorem endsSafely_readRest (negative : Bool) (c : Char) (significand : Nat) :
    EndsSafely (readRest negative c significand) := by
  intro cs rest v h
  cases cs with
  | nil =>
    cases h
    refine ⟨List.suffix_rfl, fun t ht => ?_⟩
    cases t with
    | nil => rfl
    | cons d t =>
      obtain ⟨hdigit, hpoint, hmark⟩ := ht.not_digit rfl
      simp [readRest, hdigit, hmark]
  | cons d cs =>
    by_cases hpoint : d = '.'
    · subst hpoint
      obtain ⟨hsuffix, hread⟩ := endsSafely_readFraction negative significand 0 h
      exact ⟨hsuffix.trans (List.suffix_cons _ _), hread⟩
    · simp only [readRest, List.cons_append] at h ⊢
      split at h
      · next hmark =>
        obtain ⟨hsuffix, hread⟩ := endsSafely_readExponent negative significand 0 h
        refine ⟨hsuffix.trans (List.suffix_cons d cs), fun t ht => ?_⟩
        rw [if_pos hmark]
        exact hread t ht
      · next hmark =>
        split at h
        · next hdigit =>
          split at h
          · cases h
          · next hzero =>
            obtain ⟨hsuffix, hread⟩ := endsSafely_readTail negative significand _ h
            refine ⟨hsuffix.trans (List.dropWhile_suffix _), fun t ht => ?_⟩
            rw [if_neg hmark, if_pos hdigit, if_neg hzero, ← List.cons_append,
              takeWhile_append ht, dropWhile_append ht]
            exact hread t ht
        · next hdigit =>
          cases h
          refine ⟨List.suffix_rfl, fun t _ => ?_⟩
          rw [if_neg hmark, if_neg hdigit, List.cons_append]

/-- A number is read up to its end, whatever follows that. -/
theorem endsSafely_readNumber (negative : Bool) : EndsSafely (readNumber negative) := by
  intro cs rest v h
  cases cs with
  | nil => cases h
  | cons c tail =>
    rw [readNumber_cons] at h
    split at h
    · cases h
    · next hdigit =>
      obtain ⟨hsuffix, hread⟩ := endsSafely_readRest _ _ _ h
      refine ⟨hsuffix.trans (leading_suffix c tail), fun t ht => ?_⟩
      rw [List.cons_append, readNumber_cons, if_neg hdigit, leading_append ht]
      exact hread t ht

end Number

/-! ## Whole numbers -/

/-- More digits make a number no smaller. -/
theorem le_digitsValue (start : Nat) (digits : List Char) :
    start ≤ Number.digitsValue start digits := by
  unfold Number.digitsValue
  induction digits generalizing start with
  | nil => exact Nat.le_refl start
  | cons c digits ih =>
    have hrest := ih (10 * start + (c.toNat - 0x30))
    rw [List.foldl_cons]
    omega

/-- Digits whose value stays within the limit are all gathered. -/
theorem gather_digits {digits : List Char} (h : ∀ c ∈ digits, isAsciiDigit c)
    {significand : Nat} (taken : Nat)
    (hlimit : Number.digitsValue significand digits ≤ significandLimit) :
    gather significand taken digits =
      (Number.digitsValue significand digits, taken + digits.length, []) := by
  induction digits generalizing significand taken with
  | nil => rfl
  | cons c digits ih =>
    have hcons : Number.digitsValue significand (c :: digits) =
        Number.digitsValue (significand * 10 + (c.toNat - 0x30)) digits := by
      rw [Nat.mul_comm]
      rfl
    rw [hcons] at hlimit ⊢
    have hle := Nat.le_trans (le_digitsValue _ digits) hlimit
    simp only [gather, h c List.mem_cons_self, hle, decide_true, Bool.and_self, if_true]
    rw [ih (fun d hd => h d (List.mem_cons_of_mem c hd)) _ hlimit, List.length_cons,
      Nat.add_right_comm, Nat.add_assoc]

/-- No zero stands in front of the digits of a number but of zero itself. -/
theorem decimalDigits_ne_zero {n : Nat} {tail : List Char}
    (h : Number.decimalDigits n = '0' :: tail) : n = 0 ∧ tail = [] := by
  induction n using Nat.strongRecOn generalizing tail with
  | ind n ih =>
    unfold Number.decimalDigits at h ih
    rw [Nat.toDigits_eq_if (by omega)] at h
    split at h
    · obtain ⟨hzero, rfl⟩ := List.cons.inj h
      exact ⟨Nat.digitChar_eq_zero.1 hzero, rfl⟩
    · next hten =>
      cases hfront : Nat.toDigits 10 (n / 10) with
      | nil => exact absurd hfront Nat.toDigits_ne_nil
      | cons c cs =>
        rw [hfront] at h
        obtain ⟨rfl, -⟩ := List.cons.inj h
        have hzero := (ih (n / 10) (by omega) hfront).1
        omega

/-- The digits of a number that fits into a word are read as the number. -/
theorem readNumber_decimalDigits (negative : Bool) {n : Nat} (hn : n < Number.wordLimit) :
    readNumber negative (Number.decimalDigits n) = some (wholeNumber negative n, []) := by
  have hdigits := Number.isAsciiDigit_of_mem_decimalDigits (n := n)
  have hvalue := Number.digitsValue_decimalDigits n
  cases hcs : Number.decimalDigits n with
  | nil => exact absurd hcs Nat.toDigits_ne_nil
  | cons c tail =>
    rw [hcs] at hdigits hvalue
    rw [readNumber_cons, if_neg (by simp [hdigits c List.mem_cons_self])]
    unfold leading
    split
    · next hzero =>
      rw [beq_iff_eq] at hzero
      subst hzero
      obtain ⟨rfl, rfl⟩ := decimalDigits_ne_zero hcs
      rfl
    · rw [gather_digits hdigits 0 (by rw [hvalue]; unfold significandLimit; omega), hvalue]
      rfl

/-! ## Strings -/

/-- A hexadecimal digit is read as what it stands for. -/
theorem hexValue?_hexDigit : ∀ n < 16, hexValue? (hexDigit n) = some n := by
  decide

/-- A character that is written in a string is read back from it. -/
theorem readString?_escapedChar (c : Char) (rest : List Char) :
    readString? (escapedChar c ++ rest) =
      (readString? rest).map fun p => (c :: p.1, p.2) := by
  unfold escapedChar
  -- the seven characters that have an escape of one letter
  iterate 7
    split
    · next h =>
      obtain rfl := beq_iff_eq.1 h
      rfl
  split
  · next hcontrol =>
    have hhigh := hexValue?_hexDigit (c.toNat / 16) (by omega)
    have hlow := hexValue?_hexDigit (c.toNat % 16) (by omega)
    have hvalue : ((0 * 16 + 0) * 16 + c.toNat / 16) * 16 + c.toNat % 16 = c.toNat := by omega
    have hzero : hexValue? '0' = some 0 := rfl
    have hfour : hexValue4? '0' '0' (hexDigit (c.toNat / 16)) (hexDigit (c.toNat % 16)) =
        some c.toNat := by
      simp only [hexValue4?, hhigh, hlow, hzero, hvalue]
    simp only [List.cons_append, List.nil_append]
    rw [readString?, hfour]
    dsimp only
    rw [if_neg (by simp; omega), if_neg (by simp; omega), Char.ofNat_toNat]
  · next hquote hslash _ _ _ _ _ hcontrol =>
    simp only [beq_iff_eq] at hquote hslash
    simp only [List.cons_append, List.nil_append]
    rw [readString?]
    · rw [if_neg hcontrol]
    · exact hquote
    · exact fun _ _ _ _ _ heq => absurd heq hslash
    · exact fun _ _ heq => absurd heq hslash

/-- A string that is written reads back, whatever follows its closing quote. -/
theorem readString?_stringChars (s : String) (t : List Char) :
    readString? (s.toList.flatMap escapedChar ++ '"' :: t) = some (s.toList, t) := by
  induction s.toList with
  | nil => rfl
  | cons c cs ih => rw [List.flatMap_cons, List.append_assoc, readString?_escapedChar, ih]; rfl

end ChatBot.Json
