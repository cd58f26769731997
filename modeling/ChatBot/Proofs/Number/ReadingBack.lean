import ChatBot.Proofs.Number.Decimals

/-!
# Numbers in plain notation are read back

Seventeen digits are enough to tell a number of double precision from its neighbours. So the search
for the shortest decimal that does has an end, the decimal that is found lies in the interval of the
number (`near_shortest`), and what it is written as reads as the number again. Main statement:
`parse?_plain_eq`.
-/

set_option autoImplicit false

namespace ChatBot.Number

open Float.Model Float.Model.UnpackedFloat

/-- What a decimal stands for. -/
def Decimal.value (d : Decimal) : ℚ :=
  d.digits * 10 ^ d.exponent

/-! ## Grids of decimals -/

section Grid

variable {m d : Nat} {q ten : Int}

/-- A power with a whole exponent, as a quotient of powers with natural ones. -/
theorem pow_toNat_eq {b : ℚ} (hb : b ≠ 0) (e : Int) : b ^ e.toNat = b ^ e * b ^ (-e).toNat := by
  obtain ⟨k, rfl | rfl⟩ := Int.eq_nat_or_neg e
  · simp
  · simp [hb]

/-- The scale between two powers has a positive denominator. -/
theorem Scale.q_pos (two ten : Int) : 0 < (Scale.between two ten).q :=
  Nat.mul_pos (Nat.pow_pos (by decide)) (Nat.pow_pos (by decide))

/-- A scale turns multiples of a power of two into multiples of a power of ten. -/
theorem Scale.between_eq (two ten : Int) :
    ((Scale.between two ten).p : ℚ) * 10 ^ ten = (Scale.between two ten).q * 2 ^ two := by
  simp only [Scale.between, Nat.pow_eq]
  push_cast
  rw [pow_toNat_eq two_ne_zero two, pow_toNat_eq (by norm_num : (10 : ℚ) ≠ 0) ten]
  ring

/-- Comparing by a scale compares real numbers. -/
theorem Scale.le_iff (a b : Nat) (two ten : Int) :
    let s := Scale.between two ten
    (a * s.p ≤ b * s.q ↔ (a * 2 ^ two : ℚ) ≤ b * 10 ^ ten) ∧
      (b * s.q ≤ a * s.p ↔ (b * 10 ^ ten : ℚ) ≤ a * 2 ^ two) := by
  intro s
  have hq : (0 : ℚ) < s.q := by exact_mod_cast Scale.q_pos two ten
  have hten : (0 : ℚ) < 10 ^ ten := by positivity
  have hscale : (s.p * 10 ^ ten : ℚ) = s.q * 2 ^ two := Scale.between_eq two ten
  have ha : (a * s.p * 10 ^ ten : ℚ) = a * 2 ^ two * s.q := by
    rw [mul_assoc, hscale]
    ring
  have hb : (b * s.q * 10 ^ ten : ℚ) = b * 10 ^ ten * s.q := by ring
  constructor <;>
    rw [← Nat.cast_le (α := ℚ), Nat.cast_mul, Nat.cast_mul, ← mul_le_mul_iff_left₀ hten, ha, hb,
      mul_le_mul_iff_left₀ hq]

/-- The test by which a decimal is found to read as a number says that it lies in the interval. -/
theorem reads_iff (hm : 0 < m) :
    let s := Scale.between (q - 2) ten
    let low := (4 * m - (if m == leastMantissa && q != leastExponent then 1 else 2)) * s.p
    let high := (4 * m + 2) * s.p
    (if m % 2 == 0 then low ≤ d * s.q && d * s.q ≤ high
      else low < d * s.q && d * s.q < high) = true ↔ Near (d * 10 ^ ten) m q := by
  intro s low high
  have hplace : (2 : ℚ) ^ (q - 2) = 2 ^ q / 4 := by
    rw [zpow_sub₀ two_ne_zero]
    norm_num
  have hends := Scale.le_iff
    (4 * m - (if m == leastMantissa && q != leastExponent then 1 else 2)) d (q - 2) ten
  have hends' := Scale.le_iff (4 * m + 2) d (q - 2) ten
  have hlow : (((4 * m - (if m == leastMantissa && q != leastExponent then 1 else 2) : Nat) *
      2 ^ (q - 2)) : ℚ) = (m - halfBelow m q) * 2 ^ q := by
    rw [hplace, halfBelow, Nat.cast_sub (by split <;> omega)]
    by_cases hpower : m = 2 ^ 52 ∧ q ≠ -1074
    · rw [if_pos hpower, if_pos (by simp [hpower, leastMantissa, leastExponent])]
      push_cast
      ring
    · rw [if_neg hpower, if_neg (by simpa [leastMantissa, leastExponent] using hpower)]
      push_cast
      ring
  have hhigh : ((4 * m + 2 : Nat) * 2 ^ (q - 2) : ℚ) = (m + 1 / 2) * 2 ^ q := by
    rw [hplace]
    push_cast
    ring
  rw [hlow] at hends
  rw [hhigh] at hends'
  change (low ≤ d * s.q ↔ _) ∧ (d * s.q ≤ low ↔ _) at hends
  change (high ≤ d * s.q ↔ _) ∧ (d * s.q ≤ high ↔ _) at hends'
  clear_value low high
  -- the ends of the interval read as the number just if its mantissa is even
  split
  · have heven : m % 2 = 0 := by simpa using ‹(m % 2 == 0) = true›
    rw [Bool.and_eq_true, decide_eq_true_eq, decide_eq_true_eq, hends.1, hends'.2]
    constructor
    · rintro ⟨hbelow, habove⟩
      exact ⟨hbelow, habove, fun hodd => by omega⟩
    · intro h
      exact ⟨h.low, h.high⟩
  · have hodd : m % 2 = 1 := by simpa using ‹¬ (m % 2 == 0) = true›
    rw [Bool.and_eq_true, decide_eq_true_eq, decide_eq_true_eq, ← not_le, ← not_le, hends.2,
      hends'.1, not_le, not_le]
    constructor
    · rintro ⟨hbelow, habove⟩
      exact ⟨hbelow.le, habove.le, fun _ => ⟨hbelow.ne', habove.ne⟩⟩
    · intro h
      obtain ⟨hne, hne'⟩ := h.odd hodd
      exact ⟨lt_of_le_of_ne h.low hne.symm, lt_of_le_of_ne h.high hne'⟩

/-- A decimal that the search finds on the grid is near the number. -/
theorem near_of_onGrid? {tie : Tie} (hm : 0 < m) (h : onGrid? tie m q ten = some d) :
    Near (d * 10 ^ ten) m q := by
  refine (reads_iff hm).1 ?_
  unfold onGrid? at h
  dsimp only at h
  split at h
  · rename_i hbelow habove
    split at h
    · cases h
      exact hbelow
    · cases h
      exact habove
    split at h
    · cases h
      exact habove
    split at h
    · cases h
      exact hbelow
    · cases h
      exact habove
  · cases h
    assumption
  · cases h
    assumption
  · cases h

/-- Half a step of a grid of seventeen digits is less than half of the way to the next number. -/
theorem half_step_lt (hm : m < 2 ^ 53) (hstep : (10 : ℚ) ^ ten ≤ m * 2 ^ q / 10 ^ 16) :
    (10 : ℚ) ^ ten / 2 < halfBelow m q * 2 ^ q := by
  have hpos := two_zpow_pos q
  have hhalf : (m : ℚ) / 10 ^ 16 / 2 < halfBelow m q := by
    unfold halfBelow
    split
    · rename_i hpower
      rw [hpower.1]
      norm_num
    · have hm' : (m : ℚ) < 2 ^ 53 := by exact_mod_cast hm
      linarith
  calc (10 : ℚ) ^ ten / 2 ≤ m / 10 ^ 16 / 2 * 2 ^ q := by linarith
    _ < halfBelow m q * 2 ^ q := mul_lt_mul_of_pos_right hhalf hpos

/-- The neighbours on a grid lie on both sides of the number. -/
theorem neighbours_onGrid (m : Nat) (q ten : Int) :
    let s := Scale.between (q - 2) ten
    let d := 4 * m * s.p / s.q
    (d * 10 ^ ten : ℚ) ≤ m * 2 ^ q ∧ (m * 2 ^ q : ℚ) < (d + 1 : Nat) * 10 ^ ten := by
  intro s d
  have hvalue : ((4 * m : Nat) * 2 ^ (q - 2) : ℚ) = m * 2 ^ q := by
    rw [zpow_sub₀ two_ne_zero]
    push_cast
    ring
  have hbelow := (Scale.le_iff (4 * m) d (q - 2) ten).2.1 (Nat.div_mul_le_self _ _)
  have habove := mt (Scale.le_iff (4 * m) (d + 1) (q - 2) ten).2.2
    (Nat.not_le.2 (Nat.lt_mul_of_div_lt (Nat.lt_succ_self d) (Scale.q_pos _ _)))
  rw [hvalue] at hbelow habove
  exact ⟨hbelow, not_le.1 habove⟩

/-- A grid has a point in the interval if one of the neighbours on it does. -/
theorem isSome_onGrid? (tie : Tie) (hm : 0 < m)
    (h : ∀ d : Nat, (d * 10 ^ ten : ℚ) ≤ m * 2 ^ q → (m * 2 ^ q : ℚ) < (d + 1 : Nat) * 10 ^ ten →
      Near (d * 10 ^ ten) m q ∨ Near ((d + 1 : Nat) * 10 ^ ten) m q) :
    (onGrid? tie m q ten).isSome := by
  obtain ⟨hbelow, habove⟩ := neighbours_onGrid m q ten
  have hreads := (h _ hbelow habove).imp (reads_iff hm).2 (reads_iff hm).2
  unfold onGrid?
  dsimp only
  generalize 4 * m * (Scale.between (q - 2) ten).p / (Scale.between (q - 2) ten).q = d at hreads ⊢
  split
  · split <;> try split
    all_goals rfl
  · rfl
  · rfl
  · rename_i hfalse hfalse'
    rw [hfalse, hfalse'] at hreads
    simp at hreads

/-- A grid of seventeen digits has a point in the interval. -/
theorem isSome_onGrid?_of_step_le (tie : Tie) (hm : 0 < m) (hm' : m < 2 ^ 53)
    (hstep : (10 : ℚ) ^ ten ≤ m * 2 ^ q / 10 ^ 16) : (onGrid? tie m q ten).isSome := by
  have hhalf := half_step_lt hm' hstep
  refine isSome_onGrid? tie hm fun d hbelow habove => ?_
  push_cast at habove ⊢
  obtain hle | hlt := le_total ((m : ℚ) * 2 ^ q - d * 10 ^ ten) (10 ^ ten / 2)
  · refine .inl (near_of_dist_lt ?_)
    rw [abs_lt]
    constructor <;> linarith
  · refine .inr (near_of_dist_lt ?_)
    rw [abs_lt]
    constructor <;> linarith

end Grid

/-! ## The shortest decimal -/

/-- Stripping zeros leaves what a decimal stands for. -/
theorem Decimal.value_stripZeros (fuel : Nat) (d : Decimal) :
    (Decimal.stripZeros fuel d).value = d.value := by
  induction fuel generalizing d with
  | zero => rfl
  | succ fuel ih =>
    unfold Decimal.stripZeros
    split
    · rename_i hzeros
      have hten : d.digits = d.digits / 10 * 10 := by
        simp at hzeros
        omega
      rw [ih, Decimal.value, Decimal.value, hten, Nat.cast_mul, zpow_add_one₀ (by norm_num)]
      simp only [Nat.mul_div_cancel _ (by omega : 0 < 10)]
      push_cast
      ring
    · rfl

/-- The length that is estimated from the bits of a number is too small by one digit at most. -/
theorem length_estimate_scale : ∀ i ∈ List.range 2098,
    let k : Int := i - 1074
    let guess := k * 30103 / 100000
    (Scale.between k (guess - 1)).q ≤ (Scale.between k (guess - 1)).p ∧
      (Scale.between (k + 1) (guess + 2)).p ≤ (Scale.between (k + 1) (guess + 2)).q := by
  decide +kernel

/-- The estimate of the digits of a power of two is right, up to one. -/
theorem length_estimate {k : Int} (hk : -1074 ≤ k) (hk' : k ≤ 1023) :
    (10 : ℚ) ^ (k * 30103 / 100000 - 1) ≤ 2 ^ k ∧
      (2 : ℚ) ^ (k + 1) ≤ 10 ^ (k * 30103 / 100000 + 2) := by
  obtain ⟨hlow, hhigh⟩ :=
    length_estimate_scale (k + 1074).toNat (List.mem_range.2 (by omega))
  have hcast : (((k + 1074).toNat : Nat) : Int) - 1074 = k := by omega
  simp only [hcast] at hlow hhigh
  have hlow' := (Scale.le_iff 1 1 k (k * 30103 / 100000 - 1)).2.1 (by simpa using hlow)
  have hhigh' := (Scale.le_iff 1 1 (k + 1) (k * 30103 / 100000 + 2)).1.1 (by simpa using hhigh)
  exact ⟨by simpa using hlow', by simpa using hhigh'⟩

/-- The length of a number counts its digits in front of the point. -/
theorem decimalLength_bounds {m : Nat} {q : Int} (hm : Canonical m q) (hq : q ≤ 971) :
    (10 : ℚ) ^ (decimalLength m q - 1) ≤ m * 2 ^ q ∧ (m * 2 ^ q : ℚ) < 10 ^ decimalLength m q := by
  have hlog := log2_lt_of_lt (by omega) hm.lt
  have hlowest := hm.lowest
  have hpos := two_zpow_pos q
  obtain ⟨hlow, hhigh⟩ := length_estimate (k := m.log2 + q) (by omega) (by omega)
  have hbits : (2 : ℚ) ^ ((m.log2 : Int) + q) ≤ m * 2 ^ q := by
    rw [zpow_add₀ two_ne_zero, zpow_natCast]
    exact mul_le_mul_of_nonneg_right (by exact_mod_cast Nat.log2_self_le hm.pos.ne') hpos.le
  have hbits' : (m * 2 ^ q : ℚ) < 2 ^ ((m.log2 : Int) + q + 1) := by
    rw [Int.add_right_comm, zpow_add₀ two_ne_zero, ← Int.natCast_succ, zpow_natCast]
    exact mul_lt_mul_of_pos_right (by exact_mod_cast Nat.lt_log2_self) hpos
  have hbelow (e : Int) : m * (Scale.between q e).p < (Scale.between q e).q ↔
      (m * 2 ^ q : ℚ) < 10 ^ e := by
    have := (Scale.le_iff m 1 q e).2
    rw [Nat.one_mul, Nat.cast_one, one_mul] at this
    rw [← not_le, this, not_le]
  unfold decimalLength
  simp only [Int.ofNat_eq_natCast, hbelow, decide_eq_true_eq]
  generalize ((m.log2 : Int) + q) * 30103 / 100000 = guess at hlow hhigh ⊢
  split
  · exact ⟨hlow.trans hbits, by assumption⟩
  split
  · refine ⟨?_, by assumption⟩
    rw [Int.add_sub_cancel]
    exact not_lt.1 ‹_›
  · refine ⟨?_, hbits'.trans_le hhigh⟩
    have hsucc : guess + 2 - 1 = guess + 1 := by omega
    rw [hsucc]
    exact not_lt.1 ‹_›

/-- A grid has a point in the interval of the number by the time that it has seventeen digits. -/
theorem near_shortestFrom {tie : Tie} {m : Nat} {q length : Int} (hm : 0 < m) (hm' : m < 2 ^ 53)
    (hstep : (10 : ℚ) ^ (length - 17) ≤ m * 2 ^ q / 10 ^ 16) {fuel count : Nat}
    (hfuel : 0 < fuel) (hcount : fuel + count = 18) :
    Near (shortestFrom tie m q length fuel count).value m q := by
  induction fuel generalizing count with
  | zero => omega
  | succ fuel ih =>
    unfold shortestFrom
    dsimp only
    split
    · rename_i hsome
      rw [Decimal.value_stripZeros]
      exact near_of_onGrid? hm hsome
    · rename_i hnone
      refine ih (Nat.pos_of_ne_zero ?_) (by omega)
      rintro rfl
      obtain rfl : count = 17 := by omega
      have hsome := isSome_onGrid?_of_step_le tie hm hm' hstep
      change onGrid? tie m q (length - 17) = none at hnone
      rw [hnone] at hsome
      cases hsome

/-- **The shortest decimal lies in the interval of the number** that it is written for. -/
theorem near_shortest (tie : Tie) {m : Nat} {q : Int} (hm : Canonical m q) (hq : q ≤ 971) :
    Near (shortest tie m q).value m q := by
  have hstep : (10 : ℚ) ^ (decimalLength m q - 17) ≤ m * 2 ^ q / 10 ^ 16 := by
    have hsplit : decimalLength m q - 17 = decimalLength m q - 1 - 16 := by omega
    rw [hsplit, zpow_sub₀ (by norm_num), zpow_ofNat _ 16]
    exact div_le_div_of_nonneg_right (decimalLength_bounds hm hq).1 (by positivity)
  rw [shortest, if_neg (by simpa using hm.pos.ne')]
  exact near_shortestFrom hm.pos hm.lt hstep (by omega) rfl

/-! ## Texts -/

/-- A text of a decimal reads as the number that is nearest to the decimal. -/
theorem isNearest_of_readable {d : Decimal} (h : d.Readable) :
    IsNearest (ofDecimal (d.digits * 10 ^ d.exponent.toNat) (-((-d.exponent).toNat : Nat)))
      .positive d.value := by
  have hsmall : d.digits * 10 ^ d.exponent.toNat * 10 ^ (-((-d.exponent).toNat : Int)).toNat <
      overflowFrom 970 * 10 ^ (-(-((-d.exponent).toNat : Int))).toNat := by
    rw [Int.neg_neg, Int.toNat_neg_natCast, Int.toNat_natCast, pow_zero, mul_one]
    exact h
  have hread := isNearest_ofDecimal hsmall
  have hvalue : ((d.digits * 10 ^ d.exponent.toNat : Nat) * 10 ^ (-((-d.exponent).toNat : Int)) : ℚ)
      = d.value := by
    push_cast
    rw [pow_toNat_eq (by norm_num) d.exponent, zpow_neg, zpow_natCast, Decimal.value, mul_assoc,
      mul_inv_cancel_right₀ (by positivity)]
  rwa [hvalue] at hread

/-- Of its shortest decimal a number is the nearest. -/
theorem isNearest_shortest {x : Float} (h : isFinite x) :
    ∃ s m q, Binary.ofFloat x = .finite (s == .negative) m q ∧ (shortest .up m q).Readable ∧
      IsNearest x s (shortest .up m q).value := by
  obtain ⟨s, hparts⟩ | ⟨s, m, q, hm, hparts, hq⟩ := Within.zero_or_finite ((isFinite_iff x).1 h)
  · obtain ⟨k, hk⟩ := ofFloat_of_zero hparts
    refine ⟨s, 0, -k, hk, .zero 0, isNearest_of_zero hparts ?_⟩
    simp [shortest, Decimal.value]
  · have hcanonical := canonical_unpack hparts
    exact ⟨s, m, q, ofFloat_of_finite hparts, readable_shortest .up hcanonical.lt hq,
      isNearest_of_finite hparts (near_shortest .up hcanonical hq)⟩

/-- **A number in plain notation is read back**, a zero with its sign. -/
theorem parse?_plain_eq {x : Float} (h : isFinite x) : parse? (plain x) = some x := by
  obtain ⟨s, m, q, hparts, hreadable, hnearest⟩ := isNearest_shortest h
  have hread := isNearest_of_readable hreadable
  obtain ⟨hpositive, hnegative⟩ :=
    parse?_of_plain (plain_positional (shortest .up m q)) hreadable
  rw [plain, hparts]
  cases s with
  | positive => exact hpositive.trans (congrArg some (hread.eq hnearest))
  | negative => exact hnegative.trans (congrArg some (hread.neg.eq hnearest))

/-! ## Whole numbers -/

/-- A power of ten puts its zeros behind the digits of a number. -/
theorem decimalDigits_mul_pow {n : Nat} (hn : 0 < n) (k : Nat) :
    decimalDigits (n * 10 ^ k) = decimalDigits n ++ List.replicate k '0' := by
  induction k with
  | zero => simp
  | succ k ih =>
    have hpos : 0 < n * 10 ^ k := by positivity
    have hshift : n * 10 ^ (k + 1) = 10 * (n * 10 ^ k) + 0 := by
      rw [pow_succ]
      ring
    have happend := Nat.toDigits_append_toDigits (b := 10) (d := 0) (by omega) hpos (by omega)
    rw [Nat.toDigits_zero] at happend
    rw [hshift, decimalDigits, ← happend, ← decimalDigits, ih, List.append_assoc,
      List.replicate_succ']

/-- A decimal without digits behind the point is written as the natural number that it is. -/
theorem positional_whole {d : Decimal} (hd : 0 < d.digits) (he : 0 ≤ d.exponent) :
    d.positional 0 = decimalDigits (d.digits * 10 ^ d.exponent.toNat) := by
  have hfraction : (-d.exponent).toNat = 0 := by omega
  have hlength : 0 < (decimalDigits (d.digits * 10 ^ d.exponent.toNat)).length :=
    Nat.length_toDigits_pos
  unfold Decimal.positional
  dsimp only
  rw [if_pos he, ← decimalDigits_mul_pow hd, hfraction]
  generalize decimalDigits (d.digits * 10 ^ d.exponent.toNat) = cs at hlength ⊢
  have hpad : 0 + 1 - cs.length = 0 := by omega
  simp [hpad]

/-- The decimal is the natural number `a`, and has no digits behind the point. -/
structure Decimal.IsWhole (d : Decimal) (a : Nat) : Prop where
  exponent : 0 ≤ d.exponent
  value : d.value = a

/-- A decimal that is a natural number is this one when its zeros are stripped. -/
theorem Decimal.IsWhole.stripZeros {d : Decimal} {a : Nat} (h : d.IsWhole a) (fuel : Nat) :
    (Decimal.stripZeros fuel d).IsWhole a := by
  refine ⟨?_, (Decimal.value_stripZeros fuel d).trans h.value⟩
  have hexponent := h.exponent
  clear h
  induction fuel generalizing d with
  | zero => exact hexponent
  | succ fuel ih =>
    unfold Decimal.stripZeros
    split
    · refine ih ?_
      change 0 ≤ d.exponent + 1
      omega
    · exact hexponent

/-- A decimal that is a natural number is written with the digits of this one. -/
theorem Decimal.IsWhole.positional {d : Decimal} {a : Nat} (h : d.IsWhole a) (ha : 0 < a) :
    d.positional 0 = decimalDigits a := by
  obtain ⟨k, hk⟩ : ∃ k : Nat, d.exponent = k := ⟨d.exponent.toNat, by have := h.exponent; omega⟩
  have hvalue : d.digits * 10 ^ k = a := by
    have := h.value
    rw [Decimal.value, hk, zpow_natCast] at this
    exact_mod_cast this
  have hpos : 0 < d.digits := Nat.pos_of_mul_pos_right (hvalue ▸ ha)
  rw [positional_whole hpos h.exponent, hk, Int.toNat_natCast, hvalue]

/-- On a grid of whole numbers only the number itself lies in the interval of a whole number, and
on the grid of all whole numbers it does. -/
theorem isWhole_shortestFrom {tie : Tie} {a k : Nat} {length : Int} (ha : 0 < a)
    {fuel count : Nat} (hcount : count ≤ length) (hfuel : length < count + fuel) :
    (shortestFrom tie (a * 2 ^ k) (-k) length fuel count).IsWhole a := by
  have hvalue := shifted_value a k
  have hm : 0 < a * 2 ^ k := by positivity
  -- the grids get finer one after the other, and that of the units is the last: the number itself
  -- stands on it
  induction fuel generalizing count with
  | zero => omega
  | succ fuel ih =>
    obtain ⟨t, ht⟩ : ∃ t : Nat, length - count = t := ⟨(length - count).toNat, by omega⟩
    unfold shortestFrom
    dsimp only
    rw [Int.ofNat_eq_natCast, ht]
    split
    · rename_i d hsome
      refine .stripZeros ⟨Int.natCast_nonneg t, ?_⟩ 20
      have hdist := (near_of_onGrid? hm hsome).dist_le
      have hplace : (2 : ℚ) ^ (-(k : Int)) ≤ 1 := zpow_le_one_of_nonpos₀ (by norm_num) (by omega)
      rw [hvalue, zpow_natCast] at hdist
      have hclose : |((d * 10 ^ t : Nat) : Int) - (a : Int)| < 1 := by
        have : |((d * 10 ^ t : Nat) : ℚ) - a| < 1 := by
          push_cast
          linarith
        exact_mod_cast this
      have heq : d * 10 ^ t = a := by
        have := Int.abs_lt_one_iff.1 hclose
        omega
      rw [Decimal.value, zpow_natCast, ← heq]
      push_cast
      rfl
    · rename_i hnone
      refine ih ?_ (by omega)
      refine Int.lt_iff_add_one_le.1 (lt_of_le_of_ne hcount fun hlast => ?_)
      obtain rfl : t = 0 := by omega
      have hsome : (onGrid? tie (a * 2 ^ k) (-k) ((0 : Nat) : Int)).isSome := by
        refine isSome_onGrid? tie hm fun d hbelow habove => .inl ?_
        rw [hvalue, Int.natCast_zero, zpow_zero, mul_one, Nat.cast_le] at hbelow
        rw [hvalue, Int.natCast_zero, zpow_zero, mul_one, Nat.cast_lt] at habove
        obtain rfl : d = a := by omega
        have hself := near_self (d * 2 ^ k) (-(k : Int))
        rwa [hvalue, ← mul_one (d : ℚ), ← zpow_zero (10 : ℚ)] at hself
      rw [hnone] at hsome
      cases hsome

/-- A whole number is no longer than its digits are. -/
theorem decimalLength_whole {a k : Nat} (h : Canonical (a * 2 ^ k) (-k)) (ha : 0 < a)
    (ha' : a < 10 ^ 15) :
    1 ≤ decimalLength (a * 2 ^ k) (-k) ∧ decimalLength (a * 2 ^ k) (-k) ≤ 15 := by
  obtain ⟨hlow, hhigh⟩ := decimalLength_bounds h (by omega)
  rw [shifted_value] at hlow hhigh
  generalize decimalLength (a * 2 ^ k) (-k) = length at hlow hhigh ⊢
  constructor
  · have hone : (10 : ℚ) ^ (0 : Int) < 10 ^ length := by
      rw [zpow_zero]
      exact lt_of_le_of_lt (by exact_mod_cast ha) hhigh
    have := (zpow_lt_zpow_iff_right₀ (by norm_num)).1 hone
    omega
  · have hlimit : (10 : ℚ) ^ (length - 1) < 10 ^ (15 : Int) :=
      lt_of_le_of_lt hlow (by exact_mod_cast ha')
    have := (zpow_lt_zpow_iff_right₀ (by norm_num)).1 hlimit
    omega

/-- In plain notation a whole number of up to fifteen digits is its digits. -/
theorem plain_of_whole {x : Float} {n : Int} (h : Denotes x n) (hn : n ≠ 0)
    (hn' : n.natAbs < 10 ^ 15) : plain x = wholeText n := by
  obtain ⟨s, hparts, rfl⟩ | ⟨s, a, k, hm, hparts, rfl, -⟩ := h.zero_or_finite
  · exact absurd rfl hn
  have ha : 0 < a := Nat.pos_of_mul_pos_right hm
  have ha' : a < 10 ^ 15 := by cases s <;> simpa [Sign.apply] using hn'
  obtain ⟨hlength, hlength'⟩ := decimalLength_whole (canonical_unpack hparts) ha ha'
  have hwhole : (shortest .up (a * 2 ^ k) (-k)).IsWhole a := by
    rw [shortest, if_neg (by simpa using hm.ne')]
    exact isWhole_shortestFrom ha (by omega) (by omega)
  rw [plain, ofFloat_of_finite hparts]
  dsimp only
  rw [hwhole.positional ha]
  cases s with
  | positive => rfl
  | negative =>
    obtain ⟨b, rfl⟩ : ∃ b, a = b + 1 := ⟨a - 1, by omega⟩
    rfl

end ChatBot.Number
