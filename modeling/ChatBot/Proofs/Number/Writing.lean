import ChatBot.Proofs.Number.Reading

/-!
# What numbers are written as

A finite number is stored as a text that reads as a finite number again. Two things could go wrong
near the limits of double precision: the digits that are written could stand for a number too large
to be read, and the scaling by which numbers are rounded to ten places could overflow. Neither
happens. Main statement: the text of a finite number reads as a finite number (`parse?_format`).
-/

set_option autoImplicit false

namespace ChatBot.Number

open Float.Model Float.Model.UnpackedFloat

/-! ## Decimals in plain notation -/

/-- The value of digits is the library's. -/
theorem digitsValue_eq (start : Nat) (cs : List Char) :
    digitsValue start cs = Nat.ofDigitChars 10 cs start := by
  rw [Nat.ofDigitChars_eq_foldl]
  rfl

/-- The digits of a number have its value. -/
theorem digitsValue_decimalDigits (n : Nat) : digitsValue 0 (decimalDigits n) = n := by
  rw [digitsValue_eq]
  exact Nat.ofDigitChars_toDigits (by omega) (by omega)

/-- The digits of a number are digits. -/
theorem isAsciiDigit_of_mem_decimalDigits {n : Nat} :
    ∀ c ∈ decimalDigits n, Text.isAsciiDigit c := by
  intro c hc
  have hdigit := Nat.isDigit_of_mem_toDigits (by omega) (by omega) hc
  rw [Char.isDigit_iff_toNat] at hdigit
  simpa [Text.isAsciiDigit] using hdigit

/-- Zeros are digits. -/
theorem isAsciiDigit_of_mem_replicate {k : Nat} :
    ∀ c ∈ List.replicate k '0', Text.isAsciiDigit c := by
  intro c hc
  rw [List.eq_of_mem_replicate hc]
  rfl

/-- Digits with a point put among them are a decimal in plain notation. -/
theorem plain_of_point {cs : List Char} (h : ∀ c ∈ cs, Text.isAsciiDigit c) {places : Nat}
    (hplaces : places < cs.length) :
    let front := cs.take (cs.length - places)
    let back := cs.drop (cs.length - places)
    Plain (if back.isEmpty then front else front ++ '.' :: back) (digitsValue 0 cs) places := by
  intro front back
  have hsplit : front ++ back = cs := List.take_append_drop _ cs
  have hfront : ∀ c ∈ front, Text.isAsciiDigit c := fun c hc => h c (List.mem_of_mem_take hc)
  have hback : ∀ c ∈ back, Text.isAsciiDigit c := fun c hc => h c (List.mem_of_mem_drop hc)
  have hlength : back.length = places := by
    simp only [back, List.length_drop]
    omega
  have hne : front ≠ [] := by
    have hpos : 0 < front.length := by
      simp only [front, List.length_take]
      omega
    exact List.length_pos_iff.1 hpos
  cases hempty : back.isEmpty with
  | true =>
    have hnil : back = [] := List.isEmpty_iff.1 hempty
    rw [hnil, List.append_nil] at hsplit
    rw [← hlength, hnil, ← hsplit]
    exact .whole hne hfront
  | false =>
    rw [← hlength, ← hsplit]
    exact .fraction hne (by simpa using hempty) hfront hback

/-- A decimal is written in plain notation. -/
theorem plain_positional (d : Decimal) :
    Plain (d.positional 0) (d.digits * 10 ^ d.exponent.toNat) (-d.exponent).toNat := by
  unfold Decimal.positional
  dsimp only
  generalize hwhole : (if 0 ≤ d.exponent then
    decimalDigits d.digits ++ List.replicate d.exponent.toNat '0'
    else decimalDigits d.digits) = whole
  have hdigits : ∀ c ∈ whole, Text.isAsciiDigit c := by
    subst hwhole
    split
    · exact List.forall_mem_append.2
        ⟨isAsciiDigit_of_mem_decimalDigits, isAsciiDigit_of_mem_replicate⟩
    · exact isAsciiDigit_of_mem_decimalDigits
  have hvalue : digitsValue 0 whole = d.digits * 10 ^ d.exponent.toNat := by
    subst hwhole
    split
    · rw [digitsValue_eq, Nat.ofDigitChars_append, Nat.ofDigitChars_replicate_zero,
        ← digitsValue_eq, digitsValue_decimalDigits, Nat.mul_comm]
    · have hzero : d.exponent.toNat = 0 := by omega
      rw [digitsValue_decimalDigits, hzero, Nat.pow_zero, Nat.mul_one]
  generalize (-d.exponent).toNat = places
  -- zeros in front make room for the point and do not count
  generalize hpadded : List.replicate (places + 1 - whole.length) '0' ++ whole = padded
  have hdigits' : ∀ c ∈ padded, Text.isAsciiDigit c := by
    subst hpadded
    exact List.forall_mem_append.2 ⟨isAsciiDigit_of_mem_replicate, hdigits⟩
  have hlength : places < padded.length := by
    rw [← hpadded, List.length_append, List.length_replicate]
    omega
  have hvalue' : digitsValue 0 padded = digitsValue 0 whole := by
    rw [← hpadded, digitsValue_eq, Nat.ofDigitChars_append, Nat.ofDigitChars_replicate_zero,
      Nat.mul_zero, ← digitsValue_eq]
  rw [← hvalue, ← hvalue', Nat.zero_sub, List.replicate_zero, List.append_nil]
  exact plain_of_point hdigits' hlength

/-! ## How large the shortest decimal is -/

/-- The decimal is not too large to be read as a finite number. -/
def Decimal.Readable (d : Decimal) : Prop :=
  d.digits * 10 ^ d.exponent.toNat < overflowFrom 970 * 10 ^ (-d.exponent).toNat

/-- Dropping zeros at the end does not change what a decimal stands for. -/
theorem Decimal.Readable.stripZeros {d : Decimal} (h : d.Readable) (fuel : Nat) :
    (Decimal.stripZeros fuel d).Readable := by
  induction fuel generalizing d with
  | zero => exact h
  | succ fuel ih =>
    unfold Decimal.stripZeros
    split
    · rename_i hzeros
      refine ih ?_
      have hten : 10 * (d.digits / 10) = d.digits := by
        simp at hzeros
        omega
      simp only [Decimal.Readable] at h ⊢
      -- a factor of ten comes in on the left, or goes out on the right
      by_cases hexponent : 0 ≤ d.exponent
      · have hup : (d.exponent + 1).toNat = d.exponent.toNat + 1 := by omega
        have hdown : (-(d.exponent + 1)).toNat = (-d.exponent).toNat := by omega
        rw [hup, hdown, Nat.pow_succ', ← Nat.mul_assoc, Nat.mul_comm _ 10, hten]
        exact h
      · have hup : (d.exponent + 1).toNat = d.exponent.toNat := by omega
        have hdown : (-d.exponent).toNat = (-(d.exponent + 1)).toNat + 1 := by omega
        rw [hdown, Nat.pow_succ', Nat.mul_left_comm, ← hten, Nat.mul_assoc] at h
        rw [hup]
        exact Nat.lt_of_mul_lt_mul_left h
    · exact h

/-- A zero is not too large to be read, whatever its exponent. -/
theorem Decimal.Readable.zero (e : Int) : (Decimal.mk 0 e).Readable := by
  have hpos : 0 < overflowFrom 970 * 10 ^ (-e).toNat :=
    Nat.mul_pos (overflowFrom_pos 970) (Nat.pow_pos (by decide))
  simpa [Decimal.Readable] using hpos

/-- A neighbour on a grid lies at most half a place above the number, and less than that if the
mantissa is odd. -/
theorem onGrid?_le {tie : Tie} {m : Nat} {q ten : Int} {d : Nat}
    (h : onGrid? tie m q ten = some d) :
    let s := Scale.between (q - 2) ten
    d * s.q ≤ (4 * m + 2) * s.p ∧ (m % 2 ≠ 0 → d * s.q < (4 * m + 2) * s.p) := by
  intro s
  -- ties go to even mantissas, so that their intervals include the ends
  have hread : ∀ (low k : Nat), (if m % 2 == 0 then
      low ≤ k * s.q && k * s.q ≤ (4 * m + 2) * s.p
      else low < k * s.q && k * s.q < (4 * m + 2) * s.p) = true →
      k * s.q ≤ (4 * m + 2) * s.p ∧ (m % 2 ≠ 0 → k * s.q < (4 * m + 2) * s.p) := by
    intro low k hk
    split at hk
    · have heven : m % 2 = 0 := by simpa using ‹(m % 2 == 0) = true›
      have hends : low ≤ k * s.q ∧ k * s.q ≤ (4 * m + 2) * s.p := by simpa using hk
      exact ⟨hends.2, fun hodd => absurd heven hodd⟩
    · have hends : low < k * s.q ∧ k * s.q < (4 * m + 2) * s.p := by simpa using hk
      exact ⟨Nat.le_of_lt hends.2, fun _ => hends.2⟩
  unfold onGrid? at h
  dsimp only at h
  split at h
  · rename_i hbelow habove
    split at h
    · cases h
      exact hread _ _ hbelow
    · cases h
      exact hread _ _ habove
    split at h
    · cases h
      exact hread _ _ habove
    split at h
    · cases h
      exact hread _ _ hbelow
    · cases h
      exact hread _ _ habove
  · cases h
    exact hread _ _ ‹_›
  · cases h
    exact hread _ _ ‹_›
  · cases h

/-- Half a place above a number of double precision is as far as numbers can be read. -/
theorem half_above_le {l m : Nat} {q : Int} (hm : m < 2 ^ 53) (hq : q ≤ l + 1) :
    (4 * m + 2) * 2 ^ (q - 2).toNat ≤ overflowFrom l * 2 ^ (2 - q).toNat ∧
      (m % 2 = 0 → (4 * m + 2) * 2 ^ (q - 2).toNat < overflowFrom l * 2 ^ (2 - q).toNat) := by
  have hpow : 2 * 2 ^ (q - 2).toNat ≤ 2 ^ l * 2 ^ (2 - q).toNat := by
    rw [← Nat.pow_add, ← Nat.pow_succ']
    exact Nat.pow_le_pow_right (by omega) (by omega)
  have hpos : 0 < 2 ^ (q - 2).toNat := Nat.two_pow_pos _
  have hbound : (2 ^ 54 - 1) * (2 * 2 ^ (q - 2).toNat) ≤ overflowFrom l * 2 ^ (2 - q).toNat := by
    rw [overflowFrom, Nat.mul_assoc]
    exact Nat.mul_le_mul_left _ hpow
  have htwo : 4 * m + 2 = (2 * m + 1) * 2 := by omega
  rw [htwo, Nat.mul_assoc]
  constructor
  · exact Nat.le_trans (Nat.mul_le_mul_right _ (by omega)) hbound
  · intro heven
    exact Nat.lt_of_lt_of_le (Nat.mul_lt_mul_of_pos_right (by omega) (by omega)) hbound

/-- A decimal that the search finds on the grid is not too large to be read. -/
theorem readable_of_onGrid? {tie : Tie} {m : Nat} {q ten : Int} {d : Nat} (hm : m < 2 ^ 53)
    (hq : q ≤ 971) (h : onGrid? tie m q ten = some d) : (Decimal.mk d ten).Readable := by
  obtain ⟨hle, hlt⟩ := onGrid?_le h
  obtain ⟨hhalf, hhalf'⟩ := half_above_le (l := 970) hm hq
  have hneg : -(q - 2) = 2 - q := by omega
  simp only [Scale.between, hneg, Nat.pow_eq] at hle hlt
  have hpos : 0 < 10 ^ (-ten).toNat := Nat.pow_pos (by decide)
  have hcancel : d * 10 ^ ten.toNat * 2 ^ (2 - q).toNat <
      overflowFrom 970 * 10 ^ (-ten).toNat * 2 ^ (2 - q).toNat := by
    rw [Nat.mul_assoc, Nat.mul_comm (10 ^ ten.toNat), Nat.mul_right_comm (overflowFrom 970)]
    rw [← Nat.mul_assoc (4 * m + 2)] at hle hlt
    -- the largest mantissa is odd: there the limit may be met, but its interval leaves it out
    by_cases heven : m % 2 = 0
    · exact Nat.lt_of_le_of_lt hle (Nat.mul_lt_mul_of_pos_right (hhalf' heven) hpos)
    · exact Nat.lt_of_lt_of_le (hlt heven) (Nat.mul_le_mul_right _ hhalf)
  exact Nat.lt_of_mul_lt_mul_right hcancel

/-- The shortest decimal of a number of double precision can be read as a finite number. -/
theorem readable_shortest (tie : Tie) {m : Nat} {q : Int} (hm : m < 2 ^ 53) (hq : q ≤ 971) :
    (shortest tie m q).Readable := by
  have hfrom (length : Int) (fuel count : Nat) :
      (shortestFrom tie m q length fuel count).Readable := by
    induction fuel generalizing count with
    | zero => exact .zero _
    | succ fuel ih =>
      unfold shortestFrom
      dsimp only
      split
      · exact (readable_of_onGrid? hm hq ‹_›).stripZeros 20
      · exact ih (count + 1)
  unfold shortest
  split
  · exact .zero 0
  · exact hfrom _ _ _

/-! ## Texts of numbers -/

/-- The shortest digits of a finite number can be read. -/
theorem parse?_plain {x : Float} (h : isFinite x) : (parse? (plain x)).isSome := by
  obtain ⟨negative, m, q, hparts, hm, -, hq⟩ := ofFloat_of_isFinite h
  obtain ⟨hpositive, hnegative⟩ :=
    parse?_of_plain (plain_positional (shortest .up m q)) (readable_shortest .up hm hq)
  rw [plain, hparts]
  cases negative with
  | true => exact Option.isSome_of_eq_some hnegative
  | false => exact Option.isSome_of_eq_some hpositive

/-- The digits of a natural number are plain notation. -/
theorem plain_decimalDigits (n : Nat) : Plain (decimalDigits n) n 0 := by
  have hwhole : Plain (decimalDigits n) (digitsValue 0 (decimalDigits n)) 0 :=
    .whole Nat.toDigits_ne_nil isAsciiDigit_of_mem_decimalDigits
  rwa [digitsValue_decimalDigits] at hwhole

/-- The text of a whole number that is not too large can be read. -/
theorem parse?_wholeText {n : Int} (h : n.natAbs < overflowFrom 970) :
    (parse? (wholeText n)).isSome := by
  cases n with
  | ofNat k =>
    exact Option.isSome_of_eq_some (parse?_of_plain (plain_decimalDigits k) (by simpa using h)).1
  | negSucc k =>
    exact Option.isSome_of_eq_some
      (parse?_of_plain (plain_decimalDigits (k + 1)) (by simpa using h)).2

/-- A number with so many bits is small enough for its place. -/
theorem mul_pow_lt_overflowFrom {l m : Nat} {e : Int} (hm : m < 2 ^ 53) (he : e ≤ l + 1) :
    m * 2 ^ e.toNat < overflowFrom l := by
  have hpow : 2 ^ e.toNat ≤ 2 * 2 ^ l := by
    rw [← Nat.pow_succ']
    exact Nat.pow_le_pow_right (by omega) (by omega)
  calc m * 2 ^ e.toNat
      ≤ m * (2 * 2 ^ l) := Nat.mul_le_mul_left _ hpow
    _ = (m * 2) * 2 ^ l := (Nat.mul_assoc _ _ _).symm
    _ < overflowFrom l := Nat.mul_lt_mul_of_pos_right (by omega) (Nat.two_pow_pos l)

/-- The whole part of a number is not too large to be read. -/
theorem natAbs_of_wholePart? {x : Float} {n : Int} (h : wholePart? x = some n) :
    n.natAbs < overflowFrom 970 := by
  unfold wholePart? at h
  split at h
  · rename_i negative m e hparts
    obtain ⟨_, _, _, hparts', hm, -, he⟩ :=
      ofFloat_of_isFinite (x := x) (by simp [isFinite, hparts])
    cases hparts.symm.trans hparts'
    have hsize : m * Nat.pow 2 e.toNat / Nat.pow 2 (-e).toNat < overflowFrom 970 :=
      Nat.lt_of_le_of_lt (Nat.div_le_self _ _) (mul_pow_lt_overflowFrom hm he)
    cases h
    cases negative with
    | true =>
      rw [if_pos rfl, Int.natAbs_neg]
      exact hsize
    | false => exact hsize
  · cases h

/-! ## Rounding to ten places -/

/-- Shifted up, a mantissa has its leading bit in place 52. -/
theorem significand_bounds {m : Nat} (hm : m ≠ 0) (hm' : m < 2 ^ 53) :
    2 ^ 52 ≤ m * 2 ^ (52 - m.log2) ∧ m * 2 ^ (52 - m.log2) < 2 ^ 53 := by
  have hlog : m.log2 ≤ 52 := by
    have := (Nat.log2_lt hm).2 hm'
    omega
  have hpow : 2 ^ m.log2 * 2 ^ (52 - m.log2) = 2 ^ 52 := by
    rw [← Nat.pow_add, Nat.add_sub_cancel' hlog]
  have hpow' : 2 ^ (m.log2 + 1) * 2 ^ (52 - m.log2) = 2 ^ 53 := by
    rw [Nat.pow_succ, Nat.mul_right_comm, hpow, ← Nat.pow_succ]
  rw [← hpow, ← hpow']
  exact ⟨Nat.mul_le_mul_right _ (Nat.log2_self_le hm),
    Nat.mul_lt_mul_of_pos_right Nat.lt_log2_self (Nat.two_pow_pos _)⟩

/-- The fields of a whole number that is put together from its parts. -/
theorem exists_bits_ofParts (negative : Bool) {m : Nat} (hm : m ≠ 0) (hm' : m < 2 ^ 53) :
    ∃ b : UInt64, ofParts negative m 0 = Float.ofBits b ∧
      b.toNat / 2 ^ 63 = negative.toNat ∧ b.toNat / 2 ^ 52 % 2048 = m.log2 + 1023 ∧
      b.toNat % 2 ^ 52 = m * 2 ^ (52 - m.log2) - 2 ^ 52 := by
  have hlog : m.log2 ≤ 52 := by
    have := (Nat.log2_lt hm).2 hm'
    omega
  have hsignificand := significand_bounds hm hm'
  have htop : ¬ Int.ofNat m.log2 + 0 < -1022 := by
    rw [Int.ofNat_eq_natCast]
    omega
  have hscale : (Int.ofNat m.log2 + 0 + 1023).toNat = m.log2 + 1023 := by
    rw [Int.ofNat_eq_natCast]
    omega
  have hshift : m.log2 - 52 = 0 := by omega
  unfold ofParts
  rw [if_neg (by simpa using hm)]
  dsimp only
  rw [if_neg htop, hscale, hshift]
  refine ⟨_, rfl, ?_⟩
  simp only [leastMantissa, signedLimit, Nat.pow_eq, Nat.pow_zero, Nat.div_one]
  generalize m * 2 ^ (52 - m.log2) = significand at hsignificand ⊢
  rw [UInt64.toNat_ofNat']
  cases negative <;>
    simp only [if_true, if_false, Bool.false_eq_true, Bool.toNat_true, Bool.toNat_false] <;> omega

/-- A mantissa that fits is put together to a finite number. -/
theorem isFinite_ofParts {negative : Bool} {m : Nat} (hm : m < 2 ^ 53) :
    isFinite (ofParts negative m 0) := by
  by_cases hzero : m = 0
  · subst hzero
    cases negative <;> decide
  · have hlog : m.log2 ≤ 52 := by
      have := (Nat.log2_lt hzero).2 hm
      omega
    obtain ⟨b, hb, -, hscale, -⟩ := exists_bits_ofParts negative hzero hm
    rw [hb]
    exact isFinite_ofBits (by omega)

/-- A finite number is rounded to a finite number. -/
theorem isFinite_round {x : Float} (h : isFinite x) : isFinite (round x) := by
  obtain ⟨negative, m, e, hparts, hm, -, -⟩ := ofFloat_of_isFinite h
  rw [round, hparts]
  dsimp only
  split
  · exact h
  · refine isFinite_ofParts ?_
    have hunit : 2 ^ 1 ≤ 2 ^ (-e).toNat := Nat.pow_le_pow_right (by omega) (by omega)
    rw [Nat.pow_eq]
    refine Nat.div_lt_of_lt_mul ?_
    generalize 2 ^ (-e).toNat = unit at hunit
    omega

/-! ## Large numbers -/

/-- Positive numbers are compared as the real numbers that they are. -/
theorem le_iff_of_canonical {m m' : Nat} {e e' : Int} (h : Canonical m e) (h' : Canonical m' e') :
    UnpackedFloat.le (.finite .positive m e h.pos) (.finite .positive m' e' h'.pos) ↔
      (m * 2 ^ e : ℚ) ≤ m' * 2 ^ e' := by
  obtain he | rfl | he := lt_trichotomy e e'
  · have hcompare : compare e e' = .lt := Int.compare_eq_lt.2 he
    simp [UnpackedFloat.le, UnpackedFloat.compare, hcompare, (h.lt_of_place_lt h' he).le]
  · rw [mul_le_mul_iff_left₀ (two_zpow_pos e), Nat.cast_le, ← Nat.isLE_compare]
    simp [UnpackedFloat.le, UnpackedFloat.compare]
  · have hcompare : compare e e' = .gt := Int.compare_eq_gt.2 he
    simp [UnpackedFloat.le, UnpackedFloat.compare, hcompare, (h'.lt_of_place_lt h he)]

section FullSize

variable {x : Float} {s : Sign} {m : Nat} {e : Int} {hm : 0 < m}

/-- The bound for large numbers has all bits of its mantissa. -/
theorem canonical_fullSize : Canonical 8000000000000000 (-3) :=
  ⟨by norm_num, by norm_num, by norm_num, .inl (by norm_num)⟩

/-- Comparing with the bound for large numbers is comparing what is unpacked. -/
theorem abs_ge_fullSize_iff (x : Float) : x.abs ≥ fullSize ↔
    UnpackedFloat.le (.finite .positive 8000000000000000 (-3) canonical_fullSize.pos)
      (unpack .binary64 (UnpackedFloat.pack .binary64 x.toModel.unpack.abs)) := by
  have hfull : fullSize.toModel.unpack =
      .finite .positive 8000000000000000 (-3) canonical_fullSize.pos := by
    with_unfolding_all rfl
  rw [← hfull]
  exact ⟨fun hx => of_decide_eq_true hx, fun hx => decide_eq_true hx⟩

/-- Numbers from `10 ^ 15` up are the ones that are written in full. -/
theorem fullSize_le_iff (h : x.toModel.unpack = .finite s m e hm) :
    x.abs ≥ fullSize ↔ (10 ^ 15 : ℚ) ≤ m * 2 ^ e := by
  have hvalue : ((8000000000000000 : Nat) * 2 ^ (-3 : Int) : ℚ) = 10 ^ 15 := by norm_num
  rw [abs_ge_fullSize_iff, h, UnpackedFloat.abs, unpack_pack_of_unpack x.toModel.valid h,
    le_iff_of_canonical canonical_fullSize (canonical_unpack h), hvalue]

/-- A zero is not large. -/
theorem lt_fullSize_of_zero (h : x.toModel.unpack = .zero s) : ¬ x.abs ≥ fullSize := by
  rw [abs_ge_fullSize_iff, h]
  change ¬ UnpackedFloat.le _ (unpack .binary64 (packedZero .binary64 .positive))
  rw [unpack_packedZero]
  exact Bool.false_ne_true

/-- The last place of a number below `10 ^ 15` is worth at most `2 ^ -3`. -/
theorem fits_of_lt_fullSize (h : isFinite x) (hx : ¬ x.abs ≥ fullSize) : Fits (-3) x := by
  unfold Fits
  obtain ⟨s, hparts⟩ | ⟨s, m, e, hm, hparts, -⟩ := Within.zero_or_finite ((isFinite_iff x).1 h)
  · rw [hparts]
    trivial
  · rw [hparts]
    refine Int.not_lt.1 fun he => hx ((fullSize_le_iff hparts).2 ?_)
    have hplace : (2 : ℚ) ^ (-2 : Int) ≤ 2 ^ e := two_zpow_le (by omega)
    obtain hfull | he := (canonical_unpack hparts).full
    · have hfull' : (2 ^ 52 : ℚ) ≤ m := by exact_mod_cast hfull
      calc (10 ^ 15 : ℚ) ≤ 2 ^ 52 * 2 ^ (-2 : Int) := by norm_num
        _ ≤ m * 2 ^ e := mul_le_mul hfull' hplace (by positivity) (by positivity)
    · omega

end FullSize

/-! ## The text of a finite number -/

/-- The scale of the tenth place is at least one, and its last place is low. -/
theorem placeScale_size : AtLeastOne placeScale.toModel.unpack ∧ Fits (-19) placeScale := by
  unfold Fits
  decide +kernel

/-- The text of a finite number reads as a finite number. -/
theorem parse?_format {x : Float} (h : isFinite x) : (parse? (format x)).isSome := by
  unfold format
  split
  · exact parse?_plain h
  · rename_i hsmall
    split
    · cases hwhole : wholePart? x with
      | some n => exact parse?_wholeText (natAbs_of_wholePart? hwhole)
      | none => exact parse?_plain h
    · obtain ⟨hone, hsize⟩ := placeScale_size
      have hscaled : isFinite (x * placeScale) :=
        ((fits_of_lt_fullSize h hsmall).mul hsize (by omega) (by omega)).isFinite (by omega)
      have hrounded := (isFinite_iff _).1 (isFinite_round hscaled)
      exact parse?_plain ((hrounded.div hone (by omega) (by omega)).isFinite (by omega))

end ChatBot.Number
