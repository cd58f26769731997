import ChatBot.Proofs.Number.Nearest
import ChatBot.Proofs.Number.Whole

/-!
# Decimals are read as the nearest numbers

A decimal with few digits and a small exponent is read by one product or quotient of two numbers
that are exact, any other is rounded from its digits, and one that is far too small is zero without
being looked at. All three ways give the number of double precision that is nearest to the decimal.
Main statement: `isNearest_ofDecimal`.
-/

set_option autoImplicit false

namespace ChatBot.Number

open Float.Model Float.Model.UnpackedFloat

/-! ## Rounding from the digits -/

/-- A decimal within the limits is rounded to the nearest number. -/
theorem rounds_ofScientific {m : Nat} {e : Int} (he : e ≤ 2048) (he' : -(2048 + m.log2) ≤ e) :
    Rounds (m * 10 ^ e) .positive (UnpackedFloat.ofScientific .binary64 m e) := by
  unfold UnpackedFloat.ofScientific
  split
  · rename_i hzero
    rw [hzero, Nat.cast_zero, zero_mul]
    exact ⟨rfl, by positivity⟩
  rename_i hpos
  rw [if_neg (by change ¬ 2 ^ 11 < e; omega), if_neg (by change ¬ e < -(2 ^ 11 + _); omega)]
  split
  · obtain ⟨k, rfl⟩ : ∃ k : Nat, e = k := ⟨e.toNat, by omega⟩
    have hshift : m <<< Format.binary64.mantissaBits = m * 2 ^ 53 := Nat.shiftLeft_eq m 53
    have hvalue : (m * 10 ^ (k : Int) : ℚ) =
        (m <<< Format.binary64.mantissaBits : Nat) *
            2 ^ (-((Format.binary64.mantissaBits : Nat) : Int)) *
          ((10 ^ k : Nat) * 2 ^ (0 : Int)) := by
      rw [hshift]
      change _ = (_ * 2 ^ (-53 : Int) * _ : ℚ)
      rw [zpow_natCast]
      push_cast
      ring
    rw [hvalue]
    refine rounds_mul _ _ ?_
    rw [hshift, Int.toNat_natCast]
    calc 2 ^ 52 ≤ 1 * 2 ^ 53 * 1 := by norm_num
      _ ≤ m * 2 ^ 53 * 10 ^ k :=
        Nat.mul_le_mul (Nat.mul_le_mul_right _ (by omega)) (Nat.pow_pos (by omega))
  · obtain ⟨k, rfl⟩ : ∃ k : Nat, e = -k := ⟨(-e).toNat, by omega⟩
    have hvalue : (m * 10 ^ (-(k : Int)) : ℚ) =
        m * 2 ^ (0 : Int) / ((10 ^ k : Nat) * 2 ^ (0 : Int)) := by
      rw [zpow_neg, zpow_natCast]
      push_cast
      ring
    rw [hvalue]
    simp only [Int.neg_neg, Int.toNat_natCast]
    change Rounds _ (.positive / .positive) _
    exact rounds_div _ _

/-! ## One product or quotient -/

/-- The number is the natural number `n`, in full precision. -/
def FullNat (n : Nat) : UnpackedFloat → Prop
  | .finite s m e _ => (s == .positive) = true ∧ 2 ^ 52 ≤ m ∧ m * 2 ^ e.toNat = n * 2 ^ (-e).toNat
  | _ => False

instance (n : Nat) (u : UnpackedFloat) : Decidable (FullNat n u) :=
  match u with
  | .finite s m e _ => inferInstanceAs (Decidable ((s == .positive) = true ∧ 2 ^ 52 ≤ m ∧
      m * 2 ^ e.toNat = n * 2 ^ (-e).toNat))
  | .zero _ => inferInstanceAs (Decidable False)
  | .infinity _ => inferInstanceAs (Decidable False)
  | .notANumber => inferInstanceAs (Decidable False)

section FullNat

variable {n : Nat} {u : UnpackedFloat}

/-- A number in full precision has all bits of its mantissa. -/
theorem FullNat.full (h : FullNat n u) : 2 ^ 52 ≤ mantissa u := by
  match u, h with
  | .finite _ _ _ _, ⟨_, hfull, _⟩ => exact hfull

/-- A natural number in full precision is this number. -/
theorem FullNat.exactly (h : FullNat n u) : Exactly n .positive u := by
  match u, h with
  | .finite .positive m e hm, ⟨_, _, hvalue⟩ =>
    have hvalue' : (m * 2 ^ e.toNat : ℚ) = n * 2 ^ (-e).toNat := by exact_mod_cast hvalue
    refine ⟨rfl, ?_⟩
    obtain ⟨k, rfl | rfl⟩ := Int.eq_nat_or_neg e
    · rw [Int.toNat_natCast, Int.toNat_neg_natCast, pow_zero, mul_one] at hvalue'
      rw [zpow_natCast, hvalue']
    · rw [Int.neg_neg, Int.toNat_natCast, Int.toNat_neg_natCast, pow_zero, mul_one] at hvalue'
      rw [hvalue', zpow_neg, zpow_natCast, mul_assoc, mul_inv_cancel₀ (by positivity), mul_one]

/-- The powers of ten in the table are in full precision. -/
theorem powersOfTen_fullNat (e : Fin 23) :
    FullNat (10 ^ e.val) (Float.exactlyRepresentablePowersOfTen[e]).toModel.unpack := by
  revert e
  decide +kernel

end FullNat

/-- Numbers of few digits are exact. -/
theorem toFloat_exact {m : Nat} (hm : 0 < m) (hm' : m < 2 ^ 53) :
    IsExactly m.toUInt64.toFloat .positive m ∧ Fits 0 m.toUInt64.toFloat := by
  obtain ⟨s, -, hzero⟩ | ⟨s, a, k, _, hparts, hvalue, -⟩ := (denotes_toFloat hm').zero_or_finite
  · omega
  cases s with
  | negative =>
    have hneg : (m : Int) = -a := hvalue
    omega
  | positive =>
    have hpos : (m : Int) = a := hvalue
    obtain rfl : m = a := by omega
    refine ⟨shifted_value m k ▸ isExactly_of_finite hparts, ?_⟩
    unfold Fits
    rw [hparts]
    change -(k : Int) ≤ 0
    omega

/-- A decimal that is not too large and not far too small is read as the nearest number. -/
theorem isNearest_ofScientific {m e : Nat} (down : Bool) (hm : 0 < m)
    (he : e ≤ if down then 2048 + m.log2 else 2048)
    (h : if down then m < overflowFrom 970 * 10 ^ e else m * 10 ^ e < overflowFrom 970) :
    IsNearest (Float.ofScientific m down e) .positive
      (m * 10 ^ (if down then -e else e : Int)) := by
  unfold Float.ofScientific
  split
  -- few digits and a small exponent: one product or quotient of two exact numbers
  · rename_i hsmall
    obtain ⟨hone, hsize⟩ := powersOfTen_size ⟨e, by omega⟩
    obtain ⟨hdigits, hsize'⟩ := toFloat_exact hm hsmall.1
    have hten := powersOfTen_fullNat ⟨e, by omega⟩
    dsimp only
    cases down with
    | true =>
      have hdiv := hdigits.div hten.exactly hone
      rw [Nat.cast_pow, Nat.cast_ofNat, div_eq_mul_inv, ← zpow_natCast, ← zpow_neg] at hdiv
      exact hdiv
    | false =>
      have hmul := hdigits.mul hten.exactly hten.full hsize' hsize (by omega) (by omega)
      rw [Nat.cast_pow, Nat.cast_ofNat, ← zpow_natCast] at hmul
      exact hmul
  -- otherwise the decimal is rounded once
  · cases down with
    | true =>
      rw [if_pos rfl] at he h
      simp only [if_true, Int.negOfNat_eq, Int.ofNat_eq_natCast]
      exact isNearest_pack (rounds_ofScientific (by omega) (by omega))
        (within_ofScientific (l := 970) (by omega) (by simpa using h))
    | false =>
      rw [if_neg Bool.false_ne_true] at he h
      simp only [Bool.false_eq_true, if_false, Int.ofNat_eq_natCast]
      exact isNearest_pack (rounds_ofScientific (by omega) (by omega))
        (within_ofScientific (l := 970) (by omega) (by simpa using h))

/-! ## Decimals of any length -/

/-- The number zero has the positive sign. -/
theorem unpack_zero : (0.0 : Float).toModel.unpack = .zero .positive := by
  with_unfolding_all rfl

/-- Zero is the nearest number to whatever is at most half of the lowest place. -/
theorem isNearest_zero {v : ℚ} (hv : v ≤ 1 / 2 * 2 ^ (-1074 : Int)) :
    IsNearest 0.0 .positive v :=
  isNearest_of_zero unpack_zero hv

/-- A number with so many digits is less than the power of ten of so many. -/
theorem lt_pow_length_toDigits (n : Nat) : n < 10 ^ (Nat.toDigits 10 n).length :=
  (Nat.length_toDigits_le_iff (by omega) Nat.length_toDigits_pos).1 le_rfl

/-- A number has at least as many digits in base two as in base ten. -/
theorem length_toDigits_le_log2 (n : Nat) :
    (Nat.toDigits 10 n).length ≤ n.log2 + 1 := by
  refine (Nat.length_toDigits_le_iff (by omega) (by omega)).2 ?_
  calc n < 2 ^ (n.log2 + 1) := Nat.lt_log2_self
    _ ≤ 10 ^ (n.log2 + 1) := Nat.pow_le_pow_left (by omega) _

/-- A decimal below `10 ^ -400` is less than half of the smallest number. -/
theorem isNearest_zero_of_short {v : ℚ} {e : Int} (hv : v < 10 ^ e) (he : e < -400) :
    IsNearest 0.0 .positive v := by
  have hpow : (2 : ℚ) ^ (1074 + 1) ≤ 10 ^ 400 := by
    calc (2 : ℚ) ^ (1074 + 1) ≤ 2 ^ (3 * 400) := pow_le_pow_right₀ (by norm_num) (by norm_num)
      _ = (2 ^ 3) ^ 400 := pow_mul 2 3 400
      _ ≤ 10 ^ 400 := pow_le_pow_left₀ (by norm_num) (by norm_num) 400
  refine isNearest_zero (hv.le.trans ?_)
  calc (10 : ℚ) ^ e ≤ 10 ^ (-400 : Int) := zpow_le_zpow_right₀ (by norm_num) he.le
    _ = (10 ^ 400)⁻¹ := by rw [zpow_neg, zpow_ofNat]
    _ ≤ (2 ^ (1074 + 1))⁻¹ := inv_anti₀ (by positivity) hpow
    _ = 1 / 2 * 2 ^ (-1074 : Int) := by
      rw [zpow_neg, zpow_ofNat, pow_succ', mul_inv, one_div]

/-- **A decimal is read as the nearest number**, if it is not too large. -/
theorem isNearest_ofDecimal {digits : Nat} {e : Int}
    (h : digits * 10 ^ e.toNat < overflowFrom 970 * 10 ^ (-e).toNat) :
    IsNearest (ofDecimal digits e) .positive (digits * 10 ^ e) := by
  unfold ofDecimal
  split
  · rename_i hzero
    rw [beq_iff_eq] at hzero
    rw [hzero, Nat.cast_zero, zero_mul]
    exact isNearest_zero (by positivity)
  · rename_i hzero
    have hpos : 0 < digits := Nat.pos_of_ne_zero (by simpa using hzero)
    have hlength := length_toDigits_le hpos.ne' h
    have hlog := length_toDigits_le_log2 digits
    dsimp only [Int.ofNat_eq_natCast]
    rw [if_neg (by omega)]
    split
    · rename_i hshort
      refine isNearest_zero_of_short ?_ hshort
      rw [zpow_add₀ (by norm_num)]
      refine mul_lt_mul_of_pos_right ?_ (by positivity)
      exact_mod_cast lt_pow_length_toDigits digits
    split
    · obtain ⟨k, rfl⟩ : ∃ k : Nat, e = -k := ⟨(-e).toNat, by omega⟩
      have hread := isNearest_ofScientific (e := k) true hpos
        (by rw [if_pos rfl]; omega) (by simpa using h)
      simpa using hread
    · obtain ⟨k, rfl⟩ : ∃ k : Nat, e = k := ⟨e.toNat, by omega⟩
      have hread := isNearest_ofScientific (e := k) false hpos
        (by rw [if_neg Bool.false_ne_true]; omega) (by simpa using h)
      simpa using hread

end ChatBot.Number
