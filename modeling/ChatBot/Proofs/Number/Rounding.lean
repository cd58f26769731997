import ChatBot.Number.Binary
import Mathlib

/-!
# How large a rounded number is

Rounding to double precision gives a whole number of fifty-three bits times a power of two. Here it
is said how large that power may get: a number that lies below `(2 ^ 54 - 1) · 2 ^ (l - 1)` is
rounded to one whose last place is worth at most `2 ^ l` (`within_roundWithAccuracy`). For
`l = 971` this is where numbers overflow, and the bound is sharp. Products and quotients are bounded
from it.
-/

set_option autoImplicit false

namespace ChatBot.Number

open Float.Model Float.Model.UnpackedFloat

/-- The number is finite, and its last place is worth at most `2 ^ l`. -/
def Within (l : Int) : UnpackedFloat → Prop
  | .zero _ => True
  | .finite _ _ e _ => e ≤ l
  | .infinity _ => False
  | .notANumber => False

instance (l : Int) (u : UnpackedFloat) : Decidable (Within l u) :=
  match u with
  | .zero _ => inferInstanceAs (Decidable True)
  | .finite _ _ e _ => inferInstanceAs (Decidable (e ≤ l))
  | .infinity _ => inferInstanceAs (Decidable False)
  | .notANumber => inferInstanceAs (Decidable False)

/-- The number is finite, and its size is at least one. -/
def AtLeastOne : UnpackedFloat → Prop
  | .finite _ m e _ => 2 ^ (-e).toNat ≤ m
  | _ => False

instance (u : UnpackedFloat) : Decidable (AtLeastOne u) :=
  match u with
  | .finite _ m e _ => inferInstanceAs (Decidable (2 ^ (-e).toNat ≤ m))
  | .zero _ => inferInstanceAs (Decidable False)
  | .infinity _ => inferInstanceAs (Decidable False)
  | .notANumber => inferInstanceAs (Decidable False)

/-- A number within a place is within any higher one. -/
theorem Within.mono {l l' : Int} {u : UnpackedFloat} (h : Within l u) (hl : l ≤ l') :
    Within l' u := by
  cases u with
  | zero s => trivial
  | finite s m e hm => exact Int.le_trans h hl
  | infinity s => exact h
  | notANumber => exact h

/-- A number within a place is zero or has a mantissa at this place or a lower one. -/
theorem Within.zero_or_finite {l : Int} {u : UnpackedFloat} (h : Within l u) :
    (∃ s, u = .zero s) ∨ ∃ s m e hm, u = .finite s m e hm ∧ e ≤ l := by
  match u, h with
  | .zero s, _ => exact .inl ⟨s, rfl⟩
  | .finite s m e hm, he => exact .inr ⟨s, m, e, hm, rfl, he⟩

/-- A number is within the same place with the other sign. -/
theorem Within.neg {l : Int} {u : UnpackedFloat} (h : Within l u) : Within l u.neg := by
  cases u <;> exact h

/-! ## Mantissas with residual bits -/

/-- A mantissa with its round bit, as a number of half places. -/
def halves (em : ExtendedMantissa) : Nat :=
  2 * em.mantissa + em.roundBit.toNat

/-- Shifting by one bit leaves at most half of a mantissa. -/
theorem two_mul_halves_shiftRightOne (em : ExtendedMantissa) :
    2 * halves em.shiftRightOne ≤ halves em := by
  have hbit : (em.mantissa % 2 != 0).toNat = em.mantissa % 2 := by
    rcases Nat.mod_two_eq_zero_or_one em.mantissa with h | h <;> rw [h] <;> rfl
  simp only [halves, ExtendedMantissa.shiftRightOne, hbit]
  omega

/-- Shifting to the right drops bits and adds none. -/
theorem pow_mul_halves_shiftRight (em : ExtendedMantissa) (k : Nat) :
    2 ^ k * halves (em >>> k) ≤ halves em := by
  change 2 ^ k * halves (k.repeat ExtendedMantissa.shiftRightOne em) ≤ halves em
  induction k with
  | zero => simp [Nat.repeat]
  | succ k ih =>
    have hone := two_mul_halves_shiftRightOne (k.repeat ExtendedMantissa.shiftRightOne em)
    calc 2 ^ (k + 1) * halves ((k + 1).repeat ExtendedMantissa.shiftRightOne em)
        = 2 ^ k * (2 * halves (k.repeat ExtendedMantissa.shiftRightOne em).shiftRightOne) := by
          rw [Nat.pow_succ, Nat.mul_assoc, Nat.repeat]
      _ ≤ 2 ^ k * halves (k.repeat ExtendedMantissa.shiftRightOne em) :=
          Nat.mul_le_mul_left _ hone
      _ ≤ halves em := ih

/-- Rounding goes up by half a place at most. -/
theorem two_mul_roundedMantissa (em : ExtendedMantissa) :
    2 * em.roundedMantissa ≤ halves em + 1 := by
  obtain ⟨m, roundBit, stickyBit⟩ := em
  cases roundBit <;> cases stickyBit <;>
    simp only [halves, ExtendedMantissa.roundedMantissa, ExtendedMantissa.accuracy,
      Accuracy.roundToNearestEven, Bool.toNat_true, Bool.toNat_false] <;> omega

/-- The last place of a number has `53` bits above it, unless that is too low. -/
theorem targetExponent_binary64 (total : Int) :
    Format.binary64.targetExponent total = max (total - 53) (-1074) := rfl

/-- A number below a power of two has its highest bit below the exponent. -/
theorem log2_lt_of_lt {m k : Nat} (hk : 0 < k) (h : m < 2 ^ k) : m.log2 < k := by
  by_cases hm : m = 0
  · subst hm
    exact hk
  · exact (Nat.log2_lt hm).2 h

/-- A number of half places below `(2 ^ 54 - 1) · 2 ^ (l - 1)` is rounded to one whose last place is
worth at most `2 ^ l`. -/
theorem within_roundWithAccuracy {l : Int} (hl : -1074 ≤ l) (s : Sign) {m : Nat} {e : Int}
    {acc : Accuracy} (he : e ≤ l)
    (h : halves (.ofMantissaAndAccuracy m acc) < (2 ^ 54 - 1) * 2 ^ (l - e).toNat) :
    Within l (roundWithAccuracy .binary64 s m e acc) := by
  have hm : m < 2 ^ (53 + (l - e).toNat) := by
    have hhalves : 2 * m ≤ halves (.ofMantissaAndAccuracy m acc) := by
      rcases acc with _ | _ | _ | _ <;> simp [halves, ExtendedMantissa.ofMantissaAndAccuracy]
    rw [Nat.pow_add]
    omega
  have hlog := log2_lt_of_lt (by omega) hm
  -- the exponent after the bulk of the shifting
  generalize hk : (Format.binary64.targetExponent (totalExponent m e) - e).toNat = k
  have he' : e + k ≤ l := by
    rw [← hk, targetExponent_binary64, totalExponent]
    omega
  generalize hr : (ExtendedMantissa.ofMantissaAndAccuracy m acc >>> k).roundedMantissa = r
  -- shifting adds nothing and rounding half a place, for which the bound has just room
  have hr' : r < 2 ^ (53 + (l - (e + k)).toNat) := by
    have hround := two_mul_roundedMantissa (ExtendedMantissa.ofMantissaAndAccuracy m acc >>> k)
    have hshift := pow_mul_halves_shiftRight (.ofMantissaAndAccuracy m acc) k
    have hsplit : (l - e).toNat = (l - (e + k)).toNat + k := by omega
    rw [hr] at hround
    rw [hsplit, Nat.pow_add] at h
    have hpos : 0 < 2 ^ k := Nat.two_pow_pos k
    have hprod : 2 ^ k * (2 * r) < 2 ^ k * (2 ^ 54 * 2 ^ (l - (e + k)).toNat) := by
      calc 2 ^ k * (2 * r)
          ≤ 2 ^ k * halves (ExtendedMantissa.ofMantissaAndAccuracy m acc >>> k) + 2 ^ k := by
            rw [← Nat.mul_succ]
            exact Nat.mul_le_mul_left _ hround
        _ < (2 ^ 54 - 1) * (2 ^ (l - (e + k)).toNat * 2 ^ k) + 2 ^ k :=
            Nat.add_lt_add_right (Nat.lt_of_le_of_lt hshift h) _
        _ ≤ 2 ^ k * (2 ^ 54 * 2 ^ (l - (e + k)).toNat) := by
            have hone : 2 ^ k ≤ 2 ^ (l - (e + k)).toNat * 2 ^ k :=
              Nat.le_mul_of_pos_left _ (Nat.two_pow_pos _)
            have hcomm : 2 ^ k * (2 ^ 54 * 2 ^ (l - (e + k)).toNat) =
              2 ^ 54 * (2 ^ (l - (e + k)).toNat * 2 ^ k) := by
              rw [Nat.mul_left_comm, Nat.mul_comm (2 ^ k)]
            omega
    have := Nat.lt_of_mul_lt_mul_left hprod
    rw [Nat.pow_add]
    omega
  have hlog' := log2_lt_of_lt (by omega) hr'
  simp only [roundWithAccuracy, shiftToTargetExponent, shiftToExponent, hk, hr]
  split
  · trivial
  · change e + k + _ ≤ l
    rw [targetExponent_binary64, totalExponent]
    omega

/-! ## Products and quotients -/

/-- The mantissa of a finite number other than zero. -/
def mantissa : UnpackedFloat → Nat
  | .finite _ m _ _ => m
  | _ => 0

/-- A product of numbers in double precision. -/
theorem within_mul {l l' : Int} {u v : UnpackedFloat} (hu : Within l u) (hv : Within l' v)
    (hmu : mantissa u < 2 ^ 53) (hmv : mantissa v < 2 ^ 53) (hl : -1074 ≤ l + l' + 53) :
    Within (l + l' + 53) (mul .binary64 u v) := by
  match u, v with
  | .zero _, .zero _ => trivial
  | .zero _, .finite _ _ _ _ => trivial
  | .finite _ _ _ _, .zero _ => trivial
  | .finite s m e _, .finite s' m' e' _ =>
    have he : e + e' ≤ l + l' := Int.add_le_add hu hv
    refine within_roundWithAccuracy hl (s * s') (by omega) ?_
    have hprod : m * m' ≤ (2 ^ 53 - 1) * (2 ^ 53 - 1) :=
      Nat.mul_le_mul (Nat.le_pred_of_lt hmu) (Nat.le_pred_of_lt hmv)
    have hpow : 2 ^ 53 ≤ 2 ^ (l + l' + 53 - (e + e')).toNat :=
      Nat.pow_le_pow_right (by omega) (by omega)
    simp only [halves, ExtendedMantissa.ofMantissaAndAccuracy, Bool.toNat_false]
    omega

/-- The quotient that is rounded lies no more than its residual bits above the half places. -/
theorem halves_accuracyOfFraction (n d : Nat) :
    halves (.ofMantissaAndAccuracy (n / d) (accuracyOfFraction (n % d) d)) * d ≤ 2 * n := by
  have hdiv := Nat.div_add_mod n d
  have htwo : 2 * (n / d) * d = 2 * (d * (n / d)) := by
    rw [Nat.mul_assoc, Nat.mul_comm (n / d)]
  unfold accuracyOfFraction
  split
  · simp only [halves, ExtendedMantissa.ofMantissaAndAccuracy, Bool.toNat_false, Nat.add_zero]
    omega
  · cases hcompare : compare (2 * (n % d)) d with
    | lt =>
      simp only [halves, ExtendedMantissa.ofMantissaAndAccuracy, Bool.toNat_false, Nat.add_zero]
      omega
    | eq =>
      have := Nat.compare_eq_eq.1 hcompare
      simp only [halves, ExtendedMantissa.ofMantissaAndAccuracy, Bool.toNat_true, Nat.add_mul]
      omega
    | gt =>
      have := Nat.compare_eq_gt.1 hcompare
      simp only [halves, ExtendedMantissa.ofMantissaAndAccuracy, Bool.toNat_true, Nat.add_mul]
      omega

/-- The exponent at which a quotient is worked out. -/
def quotientExponent (m : Nat) (e : Int) (m' : Nat) (e' : Int) : Int :=
  min (e - e') (Format.binary64.targetExponent (totalExponent m e - totalExponent m' e'))

/-- A quotient is within a place if what is worked out of it is less than what is rounded higher. -/
theorem within_div {l : Int} (hl : -1074 ≤ l) (s s' : Sign) {m m' : Nat} {e e' : Int}
    (hm : 0 < m) (hm' : 0 < m') (he : quotientExponent m e m' e' ≤ l)
    (h : 2 * (m * 2 ^ (e - e' - quotientExponent m e m' e').toNat) <
      (2 ^ 54 - 1) * 2 ^ (l - quotientExponent m e m' e').toNat * m') :
    Within l (div .binary64 (.finite s m e hm) (.finite s' m' e' hm')) := by
  refine within_roundWithAccuracy hl (s / s') he ?_
  refine Nat.lt_of_mul_lt_mul_right (Nat.lt_of_le_of_lt ?_ h)
  rw [← Nat.shiftLeft_eq]
  exact halves_accuracyOfFraction _ m'

/-- Dividing by a number that is at least one makes no number larger. -/
theorem within_div_of_atLeastOne {l : Int} (hl : -1074 ≤ l) {u v : UnpackedFloat}
    (hu : Within l u) (hmu : mantissa u < 2 ^ 53) (hv : AtLeastOne v) :
    Within l (div .binary64 u v) := by
  match u, v with
  | .zero _, .finite _ _ _ _ => trivial
  | .finite s m e hm, .finite s' m' e' hm' =>
    have hone : 2 ^ (-e').toNat ≤ m' := hv
    have hlog : m.log2 < 53 := log2_lt_of_lt (by omega) hmu
    have hlog' : (-e').toNat ≤ m'.log2 := (Nat.le_log2 (by omega)).2 hone
    have he : e ≤ l := hu
    have hquotient : quotientExponent m e m' e' ≤ l := by
      rw [quotientExponent, targetExponent_binary64, totalExponent, totalExponent]
      omega
    refine within_div hl s s' hm hm' hquotient ?_
    generalize quotientExponent m e m' e' = t at hquotient ⊢
    have hpow : 2 ^ (e - e' - t).toNat ≤ 2 ^ (l - t).toNat * 2 ^ (-e').toNat := by
      rw [← Nat.pow_add]
      exact Nat.pow_le_pow_right (by omega) (by omega)
    calc 2 * (m * 2 ^ (e - e' - t).toNat)
        ≤ 2 * (m * (2 ^ (l - t).toNat * m')) :=
          Nat.mul_le_mul_left _ (Nat.mul_le_mul_left _
            (Nat.le_trans hpow (Nat.mul_le_mul_left _ hone)))
      _ = (2 * m) * (2 ^ (l - t).toNat * m') := by rw [Nat.mul_assoc]
      _ < (2 ^ 54 - 1) * (2 ^ (l - t).toNat * m') := by
          have hpos : 0 < 2 ^ (l - t).toNat * m' := Nat.mul_pos (Nat.two_pow_pos _) hm'
          have hm : 2 * m < 2 ^ 54 - 1 := by
            have : m < 2 ^ 53 := hmu
            omega
          exact Nat.mul_lt_mul_of_pos_right hm hpos
      _ = (2 ^ 54 - 1) * 2 ^ (l - t).toNat * m' := by rw [Nat.mul_assoc]

/-! ## Whole numbers and decimals -/

/-- Whole numbers of fifty-three bits are not rounded, so that their last place is at most one. -/
theorem within_ofNat {n : Nat} (h : n < 2 ^ 53) : Within 0 (UnpackedFloat.ofNat .binary64 n) := by
  have hlog : n.log2 < 53 := log2_lt_of_lt (by omega) h
  unfold UnpackedFloat.ofNat UnpackedFloat.ofInt UnpackedFloat.normalize
  split
  · exact absurd (Int.compare_eq_lt.1 ‹compare (n : Int) 0 = .lt›) (by omega)
  · trivial
  · simp only [UnpackedFloat.round, decreaseExponent, Int.toNat_natCast]
    have htarget : Format.binary64.targetExponent (totalExponent n 0) ≤ 0 := by
      rw [targetExponent_binary64, totalExponent]
      omega
    generalize Format.binary64.targetExponent (totalExponent n 0) = t at htarget
    refine within_roundWithAccuracy (by omega) .positive (by omega) ?_
    have hexponent : (0 - (0 - ((0 - t).toNat : Int))).toNat = (0 - t).toNat := by omega
    rw [hexponent, Nat.shiftLeft_eq]
    have hpos : 0 < 2 ^ (0 - t).toNat := Nat.two_pow_pos _
    simp only [halves, ExtendedMantissa.ofMantissaAndAccuracy, Bool.toNat_false, Nat.add_zero,
      ← Nat.mul_assoc]
    exact Nat.mul_lt_mul_of_pos_right (by omega) hpos

/-- What is at least this is rounded to a number whose last place is worth more than
`2 ^ (l + 1)`, and what is less is not. -/
def overflowFrom (l : Nat) : Nat :=
  (2 ^ 54 - 1) * 2 ^ l

/-- The bound of every place is positive. -/
theorem overflowFrom_pos (l : Nat) : 0 < overflowFrom l :=
  Nat.mul_pos (by decide) (Nat.two_pow_pos l)

/-- The bound of a place, twice, and shifted up. -/
theorem two_mul_overflowFrom_mul_pow (l k : Nat) :
    2 * overflowFrom l * 2 ^ k = (2 ^ 54 - 1) * 2 ^ (l + 1 + k) := by
  have hdouble : 2 * overflowFrom l = (2 ^ 54 - 1) * 2 ^ (l + 1) := by
    rw [overflowFrom, Nat.pow_add 2 l]
    omega
  rw [hdouble, Nat.pow_add 2 (l + 1), Nat.mul_assoc]

/-- A decimal that is not too large is read as a finite number. -/
theorem within_ofScientific {l m : Nat} {e : Int} (he : e ≤ 2048)
    (h : m * 10 ^ e.toNat < overflowFrom l * 10 ^ (-e).toNat) :
    Within (l + 1) (UnpackedFloat.ofScientific .binary64 m e) := by
  unfold UnpackedFloat.ofScientific
  split
  · trivial
  split
  · exact absurd he (by simpa using ‹e > _›)
  split
  · trivial
  split
  · have hzero : (-e).toNat = 0 := by omega
    rw [hzero, Nat.pow_zero, Nat.mul_one] at h
    refine within_roundWithAccuracy (by omega) _ (by simp; omega) ?_
    have hsplit : ((l : Int) + 1 - (-((Format.binary64.mantissaBits : Nat) : Int) + 0)).toNat =
        l + 1 + 53 := by
      change ((l : Int) + 1 - (-53 + 0)).toNat = l + 1 + 53
      omega
    rw [hsplit, ← two_mul_overflowFrom_mul_pow]
    change halves (.ofMantissaAndAccuracy (m <<< 53 * 10 ^ e.toNat) .exact) < _
    rw [Nat.shiftLeft_eq, Nat.mul_right_comm]
    simp only [halves, ExtendedMantissa.ofMantissaAndAccuracy, Bool.toNat_false]
    omega
  · have hzero : e.toNat = 0 := by omega
    rw [hzero, Nat.pow_zero, Nat.mul_one] at h
    have hquotient : quotientExponent m 0 (10 ^ (-e).toNat) 0 ≤ 0 := Int.min_le_left _ _
    refine within_div (by omega) _ _ _ _ (by omega) ?_
    generalize quotientExponent m 0 (10 ^ (-e).toNat) 0 = t at hquotient ⊢
    have hsplit : ((l : Int) + 1 - t).toNat = l + 1 + (0 - 0 - t).toNat := by omega
    rw [hsplit, ← two_mul_overflowFrom_mul_pow, ← Nat.mul_assoc]
    have hpos : 0 < 2 ^ (0 - 0 - t).toNat := Nat.two_pow_pos _
    calc 2 * m * 2 ^ (0 - 0 - t).toNat
        < 2 * (overflowFrom l * 10 ^ (-e).toNat) * 2 ^ (0 - 0 - t).toNat :=
          Nat.mul_lt_mul_of_pos_right (by omega) hpos
      _ = 2 * overflowFrom l * 2 ^ (0 - 0 - t).toNat * 10 ^ (-e).toNat := by
          rw [← Nat.mul_assoc, Nat.mul_right_comm]

end ChatBot.Number
