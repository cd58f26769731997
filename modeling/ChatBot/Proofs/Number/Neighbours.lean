import Mathlib

/-!
# Numbers of double precision and their neighbours

A positive number of double precision is a mantissa of fifty-three bits times a power of two, and of
the powers of two the lowest is taken that leaves the mantissa in full (`Canonical`). Between two
neighbours every real number is nearer to one of them, or lies in the middle and belongs to the one
with the even mantissa. So each number has an interval around it (`Near`). Main statements: no two
numbers share a point of their intervals (`Near.unique`), and no number lies nearer to a point than
the one whose interval it is in (`Near.nearest`).
-/

set_option autoImplicit false

namespace ChatBot.Number

/-- `m · 2 ^ e` is a positive number of double precision, whose mantissa has all its bits unless the
last place is the lowest there is. How large the number is does not matter. -/
structure Canonical (m : Nat) (e : Int) : Prop where
  pos : 0 < m
  lt : m < 2 ^ 53
  lowest : -1074 ≤ e
  full : 2 ^ 52 ≤ m ∨ e = -1074

/-- Half of the way down to the next number, in last places. Below a power of two the numbers lie
twice as dense. -/
def halfBelow (m : Nat) (e : Int) : ℚ :=
  if m = 2 ^ 52 ∧ e ≠ -1074 then 1 / 4 else 1 / 2

/-- The real number `v` lies nearer to `m · 2 ^ e` than to its neighbours, or in the middle between
it and one of them, and `m` is even. -/
structure Near (v : ℚ) (m : Nat) (e : Int) : Prop where
  low : (m - halfBelow m e) * 2 ^ e ≤ v
  high : v ≤ (m + 1 / 2) * 2 ^ e
  odd : m % 2 = 1 → v ≠ (m - halfBelow m e) * 2 ^ e ∧ v ≠ (m + 1 / 2) * 2 ^ e

section

variable {m m' : Nat} {e e' : Int} {v : ℚ}

/-- There is some way down to the next number. -/
theorem halfBelow_pos (m : Nat) (e : Int) : 0 < halfBelow m e := by
  unfold halfBelow
  split <;> norm_num

/-- The way down to the next number is at most as long as the way up. -/
theorem halfBelow_le (m : Nat) (e : Int) : halfBelow m e ≤ 1 / 2 := by
  unfold halfBelow
  split <;> norm_num

/-- Unless the number is a power of two, the way down is as long as the way up. -/
theorem halfBelow_of_ne (h : m ≠ 2 ^ 52) (e : Int) : halfBelow m e = 1 / 2 :=
  if_neg fun hm => h hm.1

/-- Powers of two are positive. -/
theorem two_zpow_pos (e : Int) : (0 : ℚ) < 2 ^ e :=
  zpow_pos (by norm_num) e

/-- The next power of two is twice as large. -/
theorem two_zpow_succ (e : Int) : (2 : ℚ) ^ (e + 1) = 2 * 2 ^ e := by
  rw [zpow_add_one₀ (by norm_num), mul_comm]

/-- Powers of two grow with the exponent. -/
theorem two_zpow_le {a b : Int} (h : a ≤ b) : (2 : ℚ) ^ a ≤ 2 ^ b :=
  zpow_le_zpow_right₀ (by norm_num) h

/-- What is shifted up and down again is as it was. -/
theorem shifted_value (a k : Nat) : ((a * 2 ^ k : Nat) * 2 ^ (-(k : Int)) : ℚ) = a := by
  rw [zpow_neg, zpow_natCast, Nat.cast_mul, Nat.cast_pow, Nat.cast_ofNat,
    mul_inv_cancel_right₀ (by positivity)]

/-! ## Gaps -/

/-- Above the lowest place, a mantissa has all its bits. -/
theorem Canonical.le_cast (h : Canonical m e) (he : e ≠ -1074) : (2 : ℚ) ^ 52 ≤ m := by
  exact_mod_cast h.full.resolve_right he

/-- A mantissa has no more than its bits. -/
theorem Canonical.cast_le (h : Canonical m e) : (m : ℚ) ≤ 2 ^ 53 - 1 := by
  have : ((m + 1 : Nat) : ℚ) ≤ ((2 ^ 53 : Nat) : ℚ) := Nat.cast_le.2 h.lt
  push_cast at this
  linarith

/-- A number has all its bits if another one has a lower last place. -/
theorem Canonical.le_cast_of_lt (h : Canonical m e) (h' : Canonical m' e') (he : e' < e) :
    (2 : ℚ) ^ 52 ≤ m :=
  h.le_cast (by have := h'.lowest; omega)

/-- A number with a lower last place is smaller than one with a higher one, by half a place of the
latter at least. -/
theorem Canonical.add_half_le (h : Canonical m e) (he : e < e') :
    (m : ℚ) * 2 ^ e + 1 / 2 * 2 ^ e' ≤ 2 ^ 52 * 2 ^ e' := by
  have hplace : 2 * (2 : ℚ) ^ e ≤ 2 ^ e' := two_zpow_succ e ▸ two_zpow_le he
  have hpos := two_zpow_pos e
  have hmul : (m : ℚ) * 2 ^ e ≤ (2 ^ 53 - 1) * 2 ^ e := mul_le_mul_of_nonneg_right h.cast_le hpos.le
  linarith

/-- A number in a lower place is smaller. -/
theorem Canonical.lt_of_place_lt (h : Canonical m e) (h' : Canonical m' e') (he : e < e') :
    (m : ℚ) * 2 ^ e < m' * 2 ^ e' := by
  have hhalf := h.add_half_le he
  have hpos := two_zpow_pos e'
  have hmul := mul_le_mul_of_nonneg_right (h'.le_cast_of_lt h he) hpos.le
  linarith

/-- The next number above lies a place higher at least. -/
theorem Canonical.gap_above (h : Canonical m e) (h' : Canonical m' e')
    (hlt : (m : ℚ) * 2 ^ e < m' * 2 ^ e') : (m + 1 : ℚ) * 2 ^ e ≤ m' * 2 ^ e' := by
  have hpos := two_zpow_pos e
  obtain he | rfl | he := lt_trichotomy e e'
  · have hhalf := h.add_half_le he
    have hplace : 2 * (2 : ℚ) ^ e ≤ 2 ^ e' := two_zpow_succ e ▸ two_zpow_le he
    have hmul := mul_le_mul_of_nonneg_right (h'.le_cast_of_lt h he) (two_zpow_pos e').le
    linarith
  · have hm : m < m' := by exact_mod_cast lt_of_mul_lt_mul_right hlt hpos.le
    have hm' : (m + 1 : ℚ) ≤ m' := by exact_mod_cast hm
    exact mul_le_mul_of_nonneg_right hm' hpos.le
  · exact absurd hlt (h'.lt_of_place_lt h he).not_gt

/-- The next number below lies two halves of the way lower at least. -/
theorem Canonical.gap_below (h : Canonical m e) (h' : Canonical m' e')
    (hlt : (m' : ℚ) * 2 ^ e' < m * 2 ^ e) :
    (m' : ℚ) * 2 ^ e' ≤ (m - 2 * halfBelow m e) * 2 ^ e := by
  have hpos := two_zpow_pos e
  by_cases hpower : m = 2 ^ 52 ∧ e ≠ -1074
  · have hhalf : halfBelow m e = 1 / 4 := if_pos hpower
    have hm : (m : ℚ) = 2 ^ 52 := by exact_mod_cast hpower.1
    rw [hhalf, hm]
    rw [hm] at hlt
    obtain he | rfl | he := lt_trichotomy e' e
    · have := h'.add_half_le he
      linarith
    · have hm' : m' < 2 ^ 52 := by exact_mod_cast lt_of_mul_lt_mul_right hlt hpos.le
      exact absurd (h'.full.resolve_right hpower.2) (by omega)
    · have hplace : (2 : ℚ) ^ e ≤ 2 ^ e' := two_zpow_le he.le
      have := mul_le_mul (h'.le_cast_of_lt h he) hplace hpos.le (by positivity)
      linarith
  · have hhalf : halfBelow m e = 1 / 2 := if_neg hpower
    have := h'.gap_above h hlt
    rw [hhalf]
    obtain he | rfl | he := lt_trichotomy e' e
    · have hupper := h'.add_half_le he
      have hfull : 2 ^ 52 < m := by
        have hle : 2 ^ 52 ≤ m := by exact_mod_cast h.le_cast_of_lt h' he
        refine lt_of_le_of_ne hle fun hm => hpower ⟨hm.symm, ?_⟩
        have := h'.lowest
        omega
      have hfull' : (2 : ℚ) ^ 52 + 1 ≤ m := by exact_mod_cast hfull
      have hmul := mul_le_mul_of_nonneg_right hfull' hpos.le
      linarith
    · linarith
    · have hplace : (2 : ℚ) ^ e ≤ 2 ^ e' := two_zpow_le he.le
      linarith

/-! ## Intervals -/

/-- What is near a number is at most half a place below it. -/
theorem Near.half_le (h : Near v m e) : (m - 1 / 2 : ℚ) * 2 ^ e ≤ v := by
  refine le_trans (mul_le_mul_of_nonneg_right ?_ (two_zpow_pos e).le) h.low
  have := halfBelow_le m e
  linarith

/-- Each point of the interval is no further away than half a place. -/
theorem Near.dist_le (h : Near v m e) : |v - m * 2 ^ e| ≤ 1 / 2 * 2 ^ e := by
  have hlow := h.half_le
  have hhigh := h.high
  rw [abs_le]
  constructor <;> linarith

/-- A point nearer than half of the way to the next number is in the interval. -/
theorem near_of_dist_lt (h : |v - m * 2 ^ e| < halfBelow m e * 2 ^ e) : Near v m e := by
  have hpos := two_zpow_pos e
  have hhalf := mul_le_mul_of_nonneg_right (halfBelow_le m e) hpos.le
  obtain ⟨hlow, hhigh⟩ := abs_lt.1 h
  refine ⟨by linarith, by linarith, fun _ => ⟨ne_of_gt ?_, ne_of_lt ?_⟩⟩ <;> linarith

/-- Every number is near itself. -/
theorem near_self (m : Nat) (e : Int) : Near (m * 2 ^ e) m e := by
  refine near_of_dist_lt ?_
  rw [sub_self, abs_zero]
  exact mul_pos (halfBelow_pos m e) (two_zpow_pos e)

/-- Where the numbers lie as dense below as above, a point is in the interval if another one is that
lies no nearer. -/
theorem Near.of_dist_le {w : ℚ} (h : Near v m e) (hm : m ≠ 2 ^ 52)
    (hdist : |w - m * 2 ^ e| ≤ |v - m * 2 ^ e|) : Near w m e := by
  have hhalf := halfBelow_of_ne hm e
  have hpos := two_zpow_pos e
  obtain ⟨hlow, hhigh⟩ := abs_le.1 (hdist.trans h.dist_le)
  refine ⟨by rw [hhalf]; linarith, by linarith, fun hodd => ?_⟩
  have hlt : |w - m * 2 ^ e| < 1 / 2 * 2 ^ e := by
    obtain ⟨hne, hne'⟩ := h.odd hodd
    rw [hhalf] at hne
    refine hdist.trans_lt (lt_of_le_of_ne h.dist_le fun heq => ?_)
    obtain heq | heq := eq_or_eq_neg_of_abs_eq heq
    · exact hne' (by linarith)
    · exact hne (by linarith)
  obtain ⟨hlow, hhigh⟩ := abs_lt.1 hlt
  rw [hhalf]
  exact ⟨ne_of_gt (by linarith), ne_of_lt (by linarith)⟩

/-- Where the intervals of two numbers meet, one of the mantissas is odd. -/
theorem odd_of_succ_eq (h : Canonical m e) (h' : Canonical m' e')
    (hnext : (m + 1 : ℚ) * 2 ^ e = m' * 2 ^ e') : m % 2 = 1 ∨ m' % 2 = 1 := by
  have he : e ≤ e' := by
    refine Int.not_lt.1 fun he => ?_
    have hlt := h'.lt_of_place_lt h he
    have := two_zpow_pos e
    linarith
  obtain ⟨k, rfl⟩ : ∃ k : Nat, e' = e + k := ⟨(e' - e).toNat, by omega⟩
  rw [zpow_add₀ (by norm_num), zpow_natCast, mul_comm ((2 : ℚ) ^ e), ← mul_assoc] at hnext
  have hsucc : m + 1 = m' * 2 ^ k := by
    exact_mod_cast mul_right_cancel₀ (two_zpow_pos e).ne' hnext
  cases k with
  | zero => omega
  | succ k =>
    rw [pow_succ, ← mul_assoc] at hsucc
    omega

/-- What is near a number is not near a greater one. -/
theorem Near.not_of_lt (hnear : Near v m e) (h : Canonical m e) (h' : Canonical m' e')
    (hlt : (m : ℚ) * 2 ^ e < m' * 2 ^ e') : ¬ Near v m' e' := by
  intro hnear'
  -- the interval of the smaller number ends where that of the larger one begins at the latest
  have habove := h.gap_above h' hlt
  have hbelow := h'.gap_below h hlt
  have hhigh := hnear.high
  have hlow := hnear'.low
  obtain hodd | hodd := odd_of_succ_eq h h' (by linarith)
  · exact (hnear.odd hodd).2 (by linarith)
  · exact (hnear'.odd hodd).1 (by linarith)

/-- The parts of a number are fixed by its size. -/
theorem Canonical.ext (h : Canonical m e) (h' : Canonical m' e')
    (heq : (m : ℚ) * 2 ^ e = m' * 2 ^ e') : m = m' ∧ e = e' := by
  obtain rfl : e = e' := by
    obtain he | he | he := lt_trichotomy e e'
    · exact absurd heq (h.lt_of_place_lt h' he).ne
    · exact he
    · exact absurd heq (h'.lt_of_place_lt h he).ne'
  exact ⟨by exact_mod_cast mul_right_cancel₀ (two_zpow_pos e).ne' heq, rfl⟩

/-- **No two numbers share a point of their intervals.** -/
theorem Near.unique (hnear : Near v m e) (hnear' : Near v m' e') (h : Canonical m e)
    (h' : Canonical m' e') : m = m' ∧ e = e' := by
  obtain hlt | heq | hgt := lt_trichotomy ((m : ℚ) * 2 ^ e) (m' * 2 ^ e')
  · exact absurd hnear' (hnear.not_of_lt h h' hlt)
  · exact h.ext h' heq
  · exact absurd hnear (hnear'.not_of_lt h' h hgt)

/-- **No number lies nearer to a point** than the one whose interval it is in. -/
theorem Near.nearest (hnear : Near v m e) (h : Canonical m e) (h' : Canonical m' e') :
    |v - m * 2 ^ e| ≤ |v - m' * 2 ^ e'| := by
  have hpos := two_zpow_pos e
  have hhalf := mul_pos (halfBelow_pos m e) hpos
  have hlow := hnear.low
  have hhigh := hnear.high
  obtain hlt | heq | hgt := lt_trichotomy ((m : ℚ) * 2 ^ e) (m' * 2 ^ e')
  · have habove := h.gap_above h' hlt
    rw [abs_of_nonpos (by linarith : v - m' * 2 ^ e' ≤ 0), abs_le]
    constructor <;> linarith
  · rw [heq]
  · have hbelow := h.gap_below h' hgt
    rw [abs_of_nonneg (by linarith : 0 ≤ v - m' * 2 ^ e'), abs_le]
    constructor <;> linarith

end

end ChatBot.Number
