import ChatBot.Proofs.Number.Packing
import ChatBot.Proofs.Text.Trimming

/-!
# Which texts read as finite numbers

A decimal in plain notation, digits with or without a point among them, reads as a finite number
unless it is too large, and so does the same text with a minus in front (`parse?_of_plain`). What
is too large is known exactly, so that the bound also covers the longest texts that numbers are
written as.
-/

set_option autoImplicit false

namespace ChatBot.Number

open Float.Model Float.Model.UnpackedFloat

/-! ## Decimals as numbers -/

/-- The powers of ten that are held ready are at least one and not large. -/
theorem powersOfTen_size (e : Fin 23) :
    AtLeastOne (Float.exactlyRepresentablePowersOfTen[e]).toModel.unpack ∧
      Fits 21 Float.exactlyRepresentablePowersOfTen[e] := by
  revert e
  unfold Fits
  decide +kernel

/-- A decimal that is not too large is a finite number. -/
theorem isFinite_ofScientific {m e : Nat} {down : Bool} (he : down = false → e ≤ 2048)
    (h : if down then m < overflowFrom 970 * 10 ^ e else m * 10 ^ e < overflowFrom 970) :
    isFinite (Float.ofScientific m down e) := by
  unfold Float.ofScientific
  split
  -- few digits and a small exponent: one product or quotient of two exact numbers
  · rename_i hsmall
    obtain ⟨hone, hsize⟩ := powersOfTen_size ⟨e, by omega⟩
    have hm : Fits 0 m.toUInt64.toFloat := by
      have htoNat : m.toUInt64.toNat = m := Nat.mod_eq_of_lt (by omega)
      refine fits_pack (u := UnpackedFloat.ofUInt64 .binary64 m.toUInt64) ?_ (by omega) (by omega)
      rw [UnpackedFloat.ofUInt64, htoNat]
      exact within_ofNat hsmall.1
    dsimp only
    split
    · exact (hm.div hone (by omega) (by omega)).isFinite (by omega)
    · exact (hm.mul hsize (by omega) (by omega)).isFinite (by omega)
  -- otherwise the decimal is rounded once
  · refine (fits_pack (l := 970 + 1) (within_ofScientific (l := 970) ?_ ?_) (by omega)
      (by omega)).isFinite (by omega)
    · cases down with
      | true => simp [Int.negOfNat_eq]
      | false => have := he rfl; simp; omega
    · cases down with
      | true => simpa [Int.negOfNat_eq] using h
      | false => simpa using h

/-- The bound for finite numbers has at most four hundred digits. -/
theorem overflowFrom_lt : overflowFrom 970 < 10 ^ 400 := by
  decide +kernel

/-- A number that is not zero is at least the power of ten with as many digits. -/
theorem pow_length_toDigits_le {n : Nat} (hn : n ≠ 0) :
    10 ^ ((Nat.toDigits 10 n).length - 1) ≤ n := by
  by_cases hone : (Nat.toDigits 10 n).length - 1 = 0
  · rw [hone]
    omega
  · have hlength := Nat.length_toDigits_le_iff (n := n) (b := 10) (by omega)
      (Nat.pos_of_ne_zero hone)
    omega

/-- A decimal that is not too large has no more than four hundred digits in front of the point. -/
theorem length_toDigits_le {digits : Nat} {e : Int} (hdigits : digits ≠ 0)
    (h : digits * 10 ^ e.toNat < overflowFrom 970 * 10 ^ (-e).toNat) :
    ((Nat.toDigits 10 digits).length : Int) + e ≤ 400 := by
  have hpos : 0 < (Nat.toDigits 10 digits).length := Nat.length_toDigits_pos
  have hpow := pow_length_toDigits_le hdigits
  generalize (Nat.toDigits 10 digits).length = n at hpos hpow ⊢
  refine Int.not_lt.1 fun hlong => Nat.lt_irrefl (digits * 10 ^ e.toNat) ?_
  calc digits * 10 ^ e.toNat
      < overflowFrom 970 * 10 ^ (-e).toNat := h
    _ ≤ 10 ^ 400 * 10 ^ (-e).toNat := Nat.mul_le_mul_right _ (Nat.le_of_lt overflowFrom_lt)
    _ = 10 ^ (400 + (-e).toNat) := by rw [Nat.pow_add]
    _ ≤ 10 ^ (n - 1 + e.toNat) := Nat.pow_le_pow_right (by omega) (by omega)
    _ = 10 ^ (n - 1) * 10 ^ e.toNat := Nat.pow_add 10 _ _
    _ ≤ digits * 10 ^ e.toNat := Nat.mul_le_mul_right _ hpow

/-- A decimal that is not too large is read as a finite number. -/
theorem isFinite_ofDecimal {digits : Nat} {e : Int}
    (h : digits * 10 ^ e.toNat < overflowFrom 970 * 10 ^ (-e).toNat) :
    isFinite (ofDecimal digits e) := by
  unfold ofDecimal
  split
  · decide
  · have hlength := length_toDigits_le (by simpa using ‹¬(digits == 0) = true›) h
    dsimp only [Int.ofNat_eq_natCast]
    -- it has too few digits to be taken for infinite without being read
    rw [if_neg (by omega)]
    split
    · decide
    split
    · refine isFinite_ofScientific (by simp) ?_
      have hzero : e.toNat = 0 := by omega
      simpa [hzero] using h
    · refine isFinite_ofScientific (fun _ => ?_) ?_
      · omega
      · have hzero : (-e).toNat = 0 := by omega
        simpa [hzero] using h

/-! ## Texts -/

/-- A decimal in plain notation: its digits, with a point among them or not, the number that the
digits alone stand for, and how many of them stand behind the point. -/
inductive Plain : List Char → Nat → Nat → Prop where
  | whole {front : List Char} (hne : front ≠ []) (hfront : ∀ c ∈ front, Text.isAsciiDigit c) :
      Plain front (digitsValue 0 front) 0
  | fraction {front back : List Char} (hne : front ≠ []) (hne' : back ≠ [])
      (hfront : ∀ c ∈ front, Text.isAsciiDigit c) (hback : ∀ c ∈ back, Text.isAsciiDigit c) :
      Plain (front ++ '.' :: back) (digitsValue 0 (front ++ back)) back.length

/-- A decimal in plain notation is read by its digits and places. -/
theorem readDecimal?_of_plain {cs : List Char} {v places : Nat} (h : Plain cs v places) :
    readDecimal? cs = some (ofDecimal v (-places)) := by
  unfold readDecimal?
  cases h with
  | whole hne hfront =>
    simp [List.takeWhile_eq_self_iff.2 hfront, List.dropWhile_eq_nil_iff.2 hfront, readExponent?,
      hne]
  | @fraction front back hne hne' hfront hback =>
    have htake : (front ++ '.' :: back).takeWhile Text.isAsciiDigit = front := by
      rw [List.takeWhile_append_of_pos hfront]
      simp [Text.isAsciiDigit]
    have hdrop : (front ++ '.' :: back).dropWhile Text.isAsciiDigit = '.' :: back := by
      rw [List.dropWhile_append_of_pos hfront]
      rfl
    simp [htake, hdrop, List.takeWhile_eq_self_iff.2 hback, List.dropWhile_eq_nil_iff.2 hback,
      readExponent?, hne]

/-- A text without blanks is trimmed already. -/
theorem trim_of_no_blank {cs : List Char} (h : ∀ c ∈ cs, Text.isBlank c = false) :
    Text.trim (String.ofList cs) = String.ofList cs := by
  have htrimmed : Text.Trimmed cs cs :=
    ⟨⟨[], [], by simp, nofun, nofun⟩, fun c hc => h c (List.mem_of_mem_head? hc),
      fun c hc => h c (List.mem_of_mem_getLast? hc)⟩
  rw [Text.trim, String.toList_ofList, htrimmed.eq]

/-- A digit is no blank. -/
theorem isBlank_of_isAsciiDigit {c : Char} (h : Text.isAsciiDigit c) : Text.isBlank c = false := by
  have hrange : 0x30 ≤ c.toNat ∧ c.toNat ≤ 0x39 := by simpa [Text.isAsciiDigit] using h
  have hascii : c.toNat < 0x80 := by omega
  simp only [Text.isBlank, if_pos hascii, Bool.or_eq_false_iff, Bool.and_eq_false_iff,
    decide_eq_false_iff_not, beq_eq_false_iff_ne]
  omega

/-- There are no blanks in plain notation. -/
theorem Plain.not_blank {cs : List Char} {v places : Nat} (h : Plain cs v places) :
    ∀ c ∈ cs, Text.isBlank c = false := by
  intro c hc
  cases h with
  | whole _ hfront => exact isBlank_of_isAsciiDigit (hfront c hc)
  | fraction _ _ hfront hback =>
    rcases List.mem_append.1 hc with hc | hc
    · exact isBlank_of_isAsciiDigit (hfront c hc)
    · rcases List.mem_cons.1 hc with rfl | hc
      · rfl
      · exact isBlank_of_isAsciiDigit (hback c hc)

/-- Plain notation starts with a digit. -/
theorem Plain.head_digit {cs : List Char} {v places : Nat} (h : Plain cs v places) :
    ∃ c rest, cs = c :: rest ∧ Text.isAsciiDigit c := by
  cases h with
  | whole hne hfront =>
    obtain ⟨c, rest, rfl⟩ := List.exists_cons_of_ne_nil hne
    exact ⟨c, rest, rfl, hfront c List.mem_cons_self⟩
  | @fraction front back hne _ hfront _ =>
    obtain ⟨c, rest, rfl⟩ := List.exists_cons_of_ne_nil hne
    exact ⟨c, rest ++ '.' :: back, rfl, hfront c List.mem_cons_self⟩

/-- A digit is its own lower case. -/
theorem toLower_of_isAsciiDigit {c : Char} (h : Text.isAsciiDigit c) : c.toLower = c := by
  have hrange : 0x30 ≤ c.toNat ∧ c.toNat ≤ 0x39 := by simpa [Text.isAsciiDigit] using h
  refine dif_neg fun hupper => ?_
  have hupper' : 0x41 ≤ c.toNat := hupper.1
  omega

/-- A word that does not start with a digit is no text that does. -/
theorem isWordIn_cons_of_isAsciiDigit {c d : Char} (hc : Text.isAsciiDigit c) {word : String}
    {letters rest : List Char} (hword : word.toList = d :: letters)
    (hd : Text.isAsciiDigit d = false) : isWordIn word (c :: rest) = false := by
  have hne : (c == d) = false := by
    refine beq_eq_false_iff_ne.2 ?_
    rintro rfl
    simp [hc] at hd
  rw [isWordIn, hword, List.map_cons, toLower_of_isAsciiDigit hc]
  simp [hne]

/-- A text that starts with a digit has no sign. -/
theorem takeSign_cons_of_isAsciiDigit {c : Char} (hc : Text.isAsciiDigit c) (rest : List Char) :
    takeSign (c :: rest) = (false, c :: rest) := by
  unfold takeSign
  split
  · rename_i heq
    obtain ⟨rfl, -⟩ := List.cons.inj heq
    simp [Text.isAsciiDigit] at hc
  · rename_i heq
    obtain ⟨rfl, -⟩ := List.cons.inj heq
    simp [Text.isAsciiDigit] at hc
  · rfl

/-- A decimal in plain notation is read as the number that it stands for, and with a minus in front
as that number's negative. -/
theorem readFloat?_of_plain {cs : List Char} {v places : Nat} (h : Plain cs v places) :
    readFloat? (String.ofList cs) = some (ofDecimal v (-places)) ∧
      readFloat? (String.ofList ('-' :: cs)) = some (-ofDecimal v (-places)) := by
  obtain ⟨c, rest, rfl, hc⟩ := h.head_digit
  have hinf : isWordIn "inf" (c :: rest) = false :=
    isWordIn_cons_of_isAsciiDigit hc (d := 'i') rfl rfl
  have hinfinity : isWordIn "infinity" (c :: rest) = false :=
    isWordIn_cons_of_isAsciiDigit hc (d := 'i') rfl rfl
  have hnan : isWordIn "nan" (c :: rest) = false :=
    isWordIn_cons_of_isAsciiDigit hc (d := 'n') rfl rfl
  constructor
  · simp [readFloat?, takeSign_cons_of_isAsciiDigit hc, hinf, hinfinity, hnan,
      readDecimal?_of_plain h]
  · simp [readFloat?, takeSign, hinf, hinfinity, hnan, readDecimal?_of_plain h]

/-- A text made of a decimal in plain notation, with a minus in front or not, reads as a finite
number unless it is too large. -/
theorem parse?_of_plain {cs : List Char} {v places : Nat} (h : Plain cs v places)
    (hv : v < overflowFrom 970 * 10 ^ places) :
    parse? (String.ofList cs) = some (ofDecimal v (-places)) ∧
      parse? (String.ofList ('-' :: cs)) = some (-ofDecimal v (-places)) := by
  obtain ⟨hread, hread'⟩ := readFloat?_of_plain h
  have hfinite : isFinite (ofDecimal v (-places)) := isFinite_ofDecimal (by simpa using hv)
  have hfinite' : isFinite (-ofDecimal v (-places)) :=
    (((isFinite_iff _).1 hfinite).neg (by omega) (by omega)).isFinite (by omega)
  have hblank : ∀ c ∈ '-' :: cs, Text.isBlank c = false :=
    List.forall_mem_cons.2 ⟨rfl, h.not_blank⟩
  constructor
  · rw [parse?, trim_of_no_blank h.not_blank, hread]
    exact Option.filter_some_pos hfinite
  · rw [parse?, trim_of_no_blank hblank, hread']
    exact Option.filter_some_pos hfinite'

end ChatBot.Number
