import ChatBot.Proofs.Number.Neighbours
import ChatBot.Proofs.Number.Packing

/-!
# Results are rounded to the nearest number

Products, quotients and decimals are worked out with two bits more than a number has: the first bit
behind the last place, and whether anything else follows. That is enough to tell on which side of
the middle between two numbers the exact result lies, so that the number which is nearest to it is
taken (`rounds_roundWithAccuracy`).
-/

set_option autoImplicit false

namespace ChatBot.Number

open Float.Model Float.Model.UnpackedFloat

/-! ## Residual bits -/

/-- The real number `u` lies where the mantissa and its two residual bits say. -/
def Stands (u : ℚ) : ExtendedMantissa → Prop
  | ⟨m, false, false⟩ => u = m
  | ⟨m, false, true⟩ => m < u ∧ u < m + 1 / 2
  | ⟨m, true, false⟩ => u = m + 1 / 2
  | ⟨m, true, true⟩ => m + 1 / 2 < u ∧ u < m + 1

section Stands

variable {u : ℚ} {em : ExtendedMantissa}

/-- A mantissa without residual bits stands for itself. -/
theorem stands_exact (m : Nat) : Stands m (.ofMantissaAndAccuracy m .exact) :=
  rfl

/-- What is left of a division says where the quotient lies. -/
theorem stands_quotient (n : Nat) {d : Nat} (hd : 0 < d) :
    Stands (n / d : ℚ) (.ofMantissaAndAccuracy (n / d) (accuracyOfFraction (n % d) d)) := by
  have hd' : (0 : ℚ) < d := by exact_mod_cast hd
  have hsplit : (n / d : ℚ) = (n / d : Nat) + (n % d : Nat) / d := by
    have hdiv : (n : ℚ) = d * (n / d : Nat) + (n % d : Nat) := by
      exact_mod_cast (Nat.div_add_mod n d).symm
    field_simp
    linarith
  have hlt : (n % d : Nat) < (d : ℚ) := by exact_mod_cast Nat.mod_lt n hd
  rw [hsplit]
  generalize n / d = m
  generalize n % d = r at hlt
  unfold accuracyOfFraction
  split
  · rename_i hzero
    simp [Stands, ExtendedMantissa.ofMantissaAndAccuracy, hzero]
  · have hpos : (0 : ℚ) < r := by exact_mod_cast Nat.pos_of_ne_zero ‹_›
    have hone : (r : ℚ) / d < 1 := (div_lt_one hd').2 hlt
    have hzero : 0 < (r : ℚ) / d := div_pos hpos hd'
    cases hcompare : compare (2 * r) d with
    | lt =>
      have hr : (2 * r : ℚ) < d := by exact_mod_cast Nat.compare_eq_lt.1 hcompare
      have : (r : ℚ) / d < 1 / 2 := by rw [div_lt_div_iff₀ hd' two_pos]; linarith
      exact ⟨by linarith, by linarith⟩
    | eq =>
      have hr : (2 * r : ℚ) = d := by exact_mod_cast Nat.compare_eq_eq.1 hcompare
      have : (r : ℚ) / d = 1 / 2 := by rw [div_eq_div_iff hd'.ne' two_ne_zero]; linarith
      exact congrArg _ this
    | gt =>
      have hr : (d : ℚ) < 2 * r := by exact_mod_cast Nat.compare_eq_gt.1 hcompare
      have : 1 / 2 < (r : ℚ) / d := by rw [div_lt_div_iff₀ two_pos hd']; linarith
      exact ⟨by linarith, by linarith⟩

/-- A real number lies between its mantissa and the next one. -/
theorem Stands.bounds (h : Stands u em) : em.mantissa ≤ u ∧ u < em.mantissa + 1 := by
  obtain ⟨m, roundBit, stickyBit⟩ := em
  cases roundBit <;> cases stickyBit <;> simp only [Stands] at h ⊢ <;> constructor <;> linarith

/-- Shifting by one bit halves the real number that a mantissa stands for. -/
theorem Stands.shiftRightOne (h : Stands u em) : Stands (u / 2) em.shiftRightOne := by
  obtain ⟨m, roundBit, stickyBit⟩ := em
  obtain ⟨k, rfl | rfl⟩ := Nat.even_or_odd' m
  · have hmod : (2 * k % 2 != 0) = false := by simp
    have hdiv : 2 * k / 2 = k := by omega
    cases roundBit <;> cases stickyBit <;>
      simp only [Stands, ExtendedMantissa.shiftRightOne, hmod, hdiv, Bool.or_false,
        Bool.or_true] at h ⊢ <;>
      push_cast at h <;> first | (constructor <;> linarith) | linarith
  · have hmod : ((2 * k + 1) % 2 != 0) = true := by simp
    have hdiv : (2 * k + 1) / 2 = k := by omega
    cases roundBit <;> cases stickyBit <;>
      simp only [Stands, ExtendedMantissa.shiftRightOne, hmod, hdiv, Bool.or_false,
        Bool.or_true] at h ⊢ <;>
      push_cast at h <;> first | (constructor <;> linarith) | linarith

/-- Shifting by some bits divides the real number by a power of two. -/
theorem Stands.shiftRight (h : Stands u em) (k : Nat) : Stands (u / 2 ^ k) (em >>> k) := by
  change Stands (u / 2 ^ k) (k.repeat ExtendedMantissa.shiftRightOne em)
  induction k with
  | zero => simpa [Nat.repeat] using h
  | succ k ih =>
    rw [Nat.repeat, pow_succ, ← div_div]
    exact ih.shiftRightOne

/-- The rounded mantissa is the nearest whole number, of two the even one. -/
theorem Stands.rounded (h : Stands u em) : |u - em.roundedMantissa| ≤ 1 / 2 ∧
    (em.roundedMantissa % 2 = 1 → |u - em.roundedMantissa| < 1 / 2) := by
  obtain ⟨m, roundBit, stickyBit⟩ := em
  cases roundBit <;> cases stickyBit <;>
    simp only [Stands, ExtendedMantissa.roundedMantissa, ExtendedMantissa.accuracy,
      Accuracy.roundToNearestEven] at h ⊢
  · rw [h, sub_self, abs_zero]
    exact ⟨by norm_num, fun _ => by norm_num⟩
  · have hlt : |u - m| < 1 / 2 := abs_lt.2 ⟨by linarith, by linarith⟩
    exact ⟨hlt.le, fun _ => hlt⟩
  · obtain hm | hm := Nat.mod_two_eq_zero_or_one m
    · rw [h, hm, Nat.add_zero, hm, add_sub_cancel_left]
      exact ⟨by norm_num, fun hodd => by omega⟩
    · rw [h, hm]
      push_cast
      rw [add_sub_add_left_eq_sub]
      exact ⟨by norm_num, fun hodd => by omega⟩
  · push_cast
    have hlt : |u - (m + 1)| < 1 / 2 := abs_lt.2 ⟨by linarith, by linarith⟩
    exact ⟨hlt.le, fun _ => hlt⟩

end Stands

/-! ## Rounding -/

/-- The number that `v` is rounded to, with the given sign. -/
def Rounds (v : ℚ) (s : Sign) : UnpackedFloat → Prop
  | .zero s' => s' = s ∧ v ≤ 1 / 2 * 2 ^ (-1074 : Int)
  | .finite s' m e _ => s' = s ∧ Canonical m e ∧ Near v m e
  | .infinity _ => False
  | .notANumber => False

section Rounding

variable {u : ℚ} {r : Nat} {t : Int} {s : Sign}

/-- The nearest whole number of places is the nearest number, if the exact one has no bits less. -/
theorem near_of_rounded (hr : |u - r| ≤ 1 / 2) (hodd : r % 2 = 1 → |u - r| < 1 / 2)
    (hfull : t ≠ -1074 → 2 ^ 52 ≤ u) : Near (u * 2 ^ t) r t := by
  have hpos := two_zpow_pos t
  obtain ⟨hlow, hhigh⟩ := abs_le.1 hr
  have hbelow : r - halfBelow r t ≤ u := by
    unfold halfBelow
    split
    · rename_i hpower
      have hu := hfull hpower.2
      have hr' : (r : ℚ) = 2 ^ 52 := by exact_mod_cast hpower.1
      linarith
    · linarith
  refine ⟨mul_le_mul_of_nonneg_right hbelow hpos.le,
    mul_le_mul_of_nonneg_right (by linarith) hpos.le, fun hr' => ?_⟩
  obtain ⟨hlow, hhigh⟩ := abs_lt.1 (hodd hr')
  have hne : r ≠ 2 ^ 52 := by
    rintro rfl
    norm_num at hr'
  rw [halfBelow_of_ne hne]
  exact ⟨(mul_lt_mul_of_pos_right (by linarith) hpos).ne',
    (mul_lt_mul_of_pos_right (by linarith) hpos).ne⟩

/-- Where rounding gives one bit more, the result is a power of two. -/
theorem near_of_carry (hu : u < 2 ^ 53) (hr : |u - 2 ^ 53| ≤ 1 / 2) (ht : -1074 ≤ t) :
    Near (u * 2 ^ t) (2 ^ 52) (t + 1) := by
  have hpos := two_zpow_pos t
  have hhalf : halfBelow (2 ^ 52) (t + 1) = 1 / 4 := if_pos ⟨rfl, by omega⟩
  obtain ⟨hlow, -⟩ := abs_le.1 hr
  refine ⟨?_, ?_, fun hodd => absurd hodd (by norm_num)⟩
  · rw [hhalf, two_zpow_succ, ← mul_assoc]
    refine mul_le_mul_of_nonneg_right ?_ hpos.le
    push_cast
    linarith
  · rw [two_zpow_succ, ← mul_assoc]
    refine mul_le_mul_of_nonneg_right ?_ hpos.le
    push_cast
    linarith

/-- A mantissa of no more bits than a number has is not shifted. -/
theorem shiftToTarget_of_lt (hr : r < 2 ^ 53) (ht : -1074 ≤ t) :
    shiftToTargetExponent .binary64 r t .exact = (⟨r, false, false⟩, t) := by
  have hlog := log2_lt_of_lt (by omega) hr
  have hshift : (Format.binary64.targetExponent (totalExponent r t) - t).toNat = 0 := by
    rw [targetExponent_binary64, totalExponent]
    omega
  simp only [shiftToTargetExponent, shiftToExponent, hshift]
  rw [Int.natCast_zero, Int.add_zero]
  rfl

/-- A mantissa that has been rounded up to a power of two is shifted once more. -/
theorem shiftToTarget_of_carry (ht : -1074 ≤ t) :
    shiftToTargetExponent .binary64 (2 ^ 53) t .exact = (⟨2 ^ 52, false, false⟩, t + 1) := by
  have hshift : (Format.binary64.targetExponent (totalExponent (2 ^ 53) t) - t).toNat = 1 := by
    rw [targetExponent_binary64, totalExponent, Nat.log2_two_pow]
    omega
  simp only [shiftToTargetExponent, shiftToExponent, hshift]
  rfl

/-- What is rounded to a whole number of places is rounded to a number. -/
theorem rounds_of_rounded (hu : u < 2 ^ 53) (hfull : t ≠ -1074 → 2 ^ 52 ≤ u) (ht : -1074 ≤ t)
    (hr : |u - r| ≤ 1 / 2) (hodd : r % 2 = 1 → |u - r| < 1 / 2) (s : Sign) :
    let final := shiftToTargetExponent .binary64 r t .exact
    Rounds (u * 2 ^ t) s (if h : final.1.mantissa = 0 then .zero s
      else .finite s final.1.mantissa final.2 (Nat.pos_of_ne_zero h)) := by
  obtain ⟨hlow, hhigh⟩ := abs_le.1 hr
  obtain hlt | hge := Nat.lt_or_ge r (2 ^ 53)
  · rw [shiftToTarget_of_lt hlt ht]
    dsimp only
    split
    · rename_i hzero
      have hu' : u ≤ 1 / 2 := by simpa [hzero] using hhigh
      have ht' : t = -1074 := not_not.1 fun hne => by linarith [hfull hne]
      rw [ht']
      exact ⟨rfl, mul_le_mul_of_nonneg_right hu' (two_zpow_pos _).le⟩
    · rename_i hpos
      refine ⟨rfl, ⟨Nat.pos_of_ne_zero hpos, hlt, ht, ?_⟩, near_of_rounded hr hodd hfull⟩
      refine or_iff_not_imp_right.2 fun hne => ?_
      have hlt : (2 ^ 52 : ℚ) < r + 1 := by linarith [hfull hne]
      have hlt' : 2 ^ 52 < r + 1 := by exact_mod_cast hlt
      omega
  · obtain rfl : r = 2 ^ 53 := by
      have hle : (r : ℚ) < 2 ^ 53 + 1 := by linarith
      have hle' : r < 2 ^ 53 + 1 := by exact_mod_cast hle
      omega
    rw [shiftToTarget_of_carry ht]
    push_cast at hr
    exact ⟨rfl, ⟨by norm_num, by norm_num, by omega, .inl le_rfl⟩, near_of_carry hu hr ht⟩

/-- In places of the result, what is rounded has at most fifty-three bits in front of the point, and
no fewer unless the last place is the lowest. -/
theorem bits_of_target {m k : Nat} {e : Int} (hu : m ≤ u ∧ u < m + 1)
    (htarget : Format.binary64.targetExponent (totalExponent m e) = e + k) :
    u / 2 ^ k < 2 ^ 53 ∧ (e + k ≠ -1074 → 2 ^ 52 ≤ u / 2 ^ k) := by
  rw [targetExponent_binary64, totalExponent] at htarget
  rw [div_lt_iff₀ (by positivity), le_div_iff₀ (by positivity), ← pow_add, ← pow_add]
  constructor
  · have hm : m + 1 ≤ 2 ^ (53 + k) :=
      Nat.le_trans Nat.lt_log2_self (Nat.pow_le_pow_right (by omega) (by omega))
    have hm' : (m + 1 : ℚ) ≤ 2 ^ (53 + k) := by exact_mod_cast hm
    linarith
  · intro hne
    have hlog : 52 + k = m.log2 := by omega
    have hm : 2 ^ (52 + k) ≤ m := by
      rw [hlog]
      exact Nat.log2_self_le (by rintro rfl; simp at hlog)
    have hm' : (2 ^ (52 + k) : ℚ) ≤ m := by exact_mod_cast hm
    linarith

/-- **Rounding goes to the nearest number**, if the last place of what is rounded is not higher than
that of the result. -/
theorem rounds_roundWithAccuracy {m : Nat} {e : Int} {acc : Accuracy}
    (h : Stands u (.ofMantissaAndAccuracy m acc))
    (he : e ≤ Format.binary64.targetExponent (totalExponent m e)) (s : Sign) :
    Rounds (u * 2 ^ e) s (roundWithAccuracy .binary64 s m e acc) := by
  obtain ⟨k, hk⟩ : ∃ k : Nat, Format.binary64.targetExponent (totalExponent m e) = e + k :=
    ⟨(Format.binary64.targetExponent (totalExponent m e) - e).toNat, by omega⟩
  have hfirst : shiftToTargetExponent .binary64 m e acc =
      (ExtendedMantissa.ofMantissaAndAccuracy m acc >>> k, e + k) := by
    have hshift : (e + k - e).toNat = k := by omega
    simp only [shiftToTargetExponent, shiftToExponent, hk, hshift]
  have hbounds : m ≤ u ∧ u < m + 1 := by
    have := h.bounds
    rcases acc with _ | _ | _ | _ <;> exact this
  obtain ⟨hu, hfull⟩ := bits_of_target hbounds hk
  have hlowest : -1074 ≤ e + k := hk ▸ Int.le_max_right _ _
  have hvalue : u * 2 ^ e = u / 2 ^ k * 2 ^ (e + k : Int) := by
    rw [zpow_add₀ (by norm_num), zpow_natCast]
    field_simp
  obtain ⟨hround, hodd⟩ := (h.shiftRight k).rounded
  rw [hvalue]
  simp only [roundWithAccuracy, hfirst]
  exact rounds_of_rounded hu hfull hlowest hround hodd s

/-- The result of rounding is fixed by what is rounded. -/
theorem Rounds.unique {v : ℚ} {u u' : UnpackedFloat} (h : Rounds v s u) (h' : Rounds v s u') :
    u = u' := by
  -- half of the smallest number is a tie between it, whose mantissa is odd, and zero
  have hzero {m : Nat} {e : Int} (hle : v ≤ 1 / 2 * 2 ^ (-1074 : Int)) (hm : Canonical m e)
      (hnear : Near v m e) : False := by
    have hplace := two_zpow_le hm.lowest
    have hlow := hnear.half_le
    have hone : (m : ℚ) * 2 ^ e ≤ 1 * 2 ^ e := by linarith
    have hone' : m ≤ 1 := by exact_mod_cast le_of_mul_le_mul_right hone (two_zpow_pos e)
    obtain rfl : m = 1 := le_antisymm hone' hm.pos
    refine (hnear.odd rfl).1 (le_antisymm ?_ hnear.low)
    rw [halfBelow_of_ne (by norm_num)]
    push_cast
    linarith
  match u, u', h, h' with
  | .zero _, .zero _, ⟨rfl, _⟩, ⟨rfl, _⟩ => rfl
  | .finite _ m e _, .finite _ m' e' _, ⟨rfl, hm, hnear⟩, ⟨rfl, hm', hnear'⟩ =>
    obtain ⟨rfl, rfl⟩ := hnear.unique hnear' hm hm'
    rfl
  | .zero _, .finite _ m e _, ⟨_, hle⟩, ⟨_, hm, hnear⟩ => exact (hzero hle hm hnear).elim
  | .finite _ m e _, .zero _, ⟨_, hm, hnear⟩, ⟨_, hle⟩ => exact (hzero hle hm hnear).elim

end Rounding

/-! ## Products and quotients -/

section Arithmetic

variable {s s' : Sign} {m m' : Nat} {e e' : Int}

/-- A product of enough bits is rounded to the nearest number. -/
theorem rounds_mul (hm : 0 < m) (hm' : 0 < m') (hfull : 2 ^ 52 ≤ m * m') :
    Rounds (m * 2 ^ e * (m' * 2 ^ e')) (s * s')
      (mul .binary64 (.finite s m e hm) (.finite s' m' e' hm')) := by
  have hvalue : (m * 2 ^ e * (m' * 2 ^ e') : ℚ) = (m * m' : Nat) * 2 ^ (e + e') := by
    rw [zpow_add₀ (by norm_num)]
    push_cast
    ring
  have hlog : 52 ≤ (m * m').log2 := (Nat.le_log2 (by omega)).2 hfull
  rw [hvalue]
  refine rounds_roundWithAccuracy (stands_exact _) ?_ _
  rw [targetExponent_binary64, totalExponent]
  omega

/-- How many bits a quotient has. -/
theorem log2_quotient {k : Nat} (hm : 0 < m) (hm' : 0 < m') (hk : m'.log2 + 53 ≤ m.log2 + k) :
    52 ≤ (m * 2 ^ k / m').log2 := by
  have hlow : 2 ^ 52 * 2 ^ (m'.log2 + 1) ≤ m * 2 ^ k := by
    calc 2 ^ 52 * 2 ^ (m'.log2 + 1) = 2 ^ (52 + (m'.log2 + 1)) := (Nat.pow_add 2 _ _).symm
      _ ≤ 2 ^ (m.log2 + k) := Nat.pow_le_pow_right (by omega) (by omega)
      _ = 2 ^ m.log2 * 2 ^ k := Nat.pow_add 2 _ _
      _ ≤ m * 2 ^ k := Nat.mul_le_mul_right _ (Nat.log2_self_le hm.ne')
  have hhigh : 2 ^ 52 * m' ≤ 2 ^ 52 * 2 ^ (m'.log2 + 1) :=
    Nat.mul_le_mul_left _ (Nat.le_of_lt Nat.lt_log2_self)
  have hquotient : 2 ^ 52 ≤ m * 2 ^ k / m' :=
    (Nat.le_div_iff_mul_le hm').2 (Nat.le_trans hhigh hlow)
  exact (Nat.le_log2 (by omega)).2 hquotient

/-- A quotient is rounded to the nearest number. -/
theorem rounds_div (hm : 0 < m) (hm' : 0 < m') :
    Rounds (m * 2 ^ e / (m' * 2 ^ e')) (s / s')
      (div .binary64 (.finite s m e hm) (.finite s' m' e' hm')) := by
  have hle : quotientExponent m e m' e' ≤ e - e' := Int.min_le_left _ _
  have htarget : quotientExponent m e m' e' ≤
      max (totalExponent m e - totalExponent m' e' - 53) (-1074) := Int.min_le_right _ _
  have hdiv : div .binary64 (.finite s m e hm) (.finite s' m' e' hm') =
      roundWithAccuracy .binary64 (s / s')
        (m * 2 ^ (e - e' - quotientExponent m e m' e').toNat / m') (quotientExponent m e m' e')
        (accuracyOfFraction (m * 2 ^ (e - e' - quotientExponent m e m' e').toNat % m') m') := by
    rw [← Nat.shiftLeft_eq]
    rfl
  rw [hdiv]
  generalize quotientExponent m e m' e' = t at hle htarget ⊢
  obtain ⟨k, hk⟩ : ∃ k : Nat, e - e' = t + k := ⟨(e - e' - t).toNat, by omega⟩
  have hshift : (e - e' - t).toNat = k := by omega
  have hvalue : (m * 2 ^ e / (m' * 2 ^ e') : ℚ) = (m * 2 ^ k : Nat) / m' * 2 ^ t := by
    have hsplit : (2 : ℚ) ^ e = 2 ^ k * 2 ^ t * 2 ^ e' := by
      rw [← zpow_natCast, ← zpow_add₀ (by norm_num), ← zpow_add₀ (by norm_num)]
      congr 1
      omega
    have hpos := two_zpow_pos e'
    rw [hsplit]
    push_cast
    field_simp
  rw [hvalue, hshift]
  refine rounds_roundWithAccuracy (stands_quotient _ hm') ?_ _
  rw [targetExponent_binary64, totalExponent]
  rw [totalExponent, totalExponent] at htarget
  -- the quotient has all bits, unless its last place is at the lowest already
  obtain hlowest | hfull : t ≤ -1074 ∨ m'.log2 + 53 ≤ m.log2 + k := by omega
  · omega
  · have hbits := log2_quotient hm hm' hfull
    omega

end Arithmetic

/-! ## Numbers -/

/-- The number is `v` with the sign `s`. -/
def Exactly (v : ℚ) (s : Sign) : UnpackedFloat → Prop
  | .zero s' => s' = s ∧ v = 0
  | .finite s' m e _ => s' = s ∧ v = m * 2 ^ e
  | .infinity _ => False
  | .notANumber => False

/-- The number is `v` with the sign `s`. -/
def IsExactly (x : Float) (s : Sign) (v : ℚ) : Prop :=
  Exactly v s x.toModel.unpack

/-- The number is the nearest to `v`, with the sign `s`. -/
def IsNearest (x : Float) (s : Sign) (v : ℚ) : Prop :=
  Rounds v s x.toModel.unpack

section Numbers

variable {x y : Float} {s s' : Sign} {m : Nat} {e : Int} {hm : 0 < m} {v v' : ℚ}

/-- A number that is exact is zero or has a mantissa and a place. -/
theorem Exactly.zero_or_finite {u : UnpackedFloat} (h : Exactly v s u) :
    (u = .zero s ∧ v = 0) ∨ ∃ m e hm, u = .finite s m e hm ∧ v = m * 2 ^ e := by
  match u, h with
  | .zero _, ⟨hs, hv⟩ => exact .inl ⟨by rw [hs], hv⟩
  | .finite _ m e hm, ⟨hs, hv⟩ => exact .inr ⟨m, e, hm, by rw [hs], hv⟩

/-- A number that is rounded to is zero, for little, or the number of double precision
that is near. -/
theorem Rounds.zero_or_finite {u : UnpackedFloat} (h : Rounds v s u) :
    (u = .zero s ∧ v ≤ 1 / 2 * 2 ^ (-1074 : Int)) ∨
      ∃ m e hm, u = .finite s m e hm ∧ Canonical m e ∧ Near v m e := by
  match u, h with
  | .zero _, ⟨hs, hv⟩ => exact .inl ⟨by rw [hs], hv⟩
  | .finite _ m e hm, ⟨hs, hv⟩ => exact .inr ⟨m, e, hm, by rw [hs], hv⟩

/-- A number that is unpacked as zero is zero. -/
theorem isExactly_of_zero (h : x.toModel.unpack = .zero s) : IsExactly x s 0 := by
  unfold IsExactly
  rw [h]
  exact ⟨rfl, rfl⟩

/-- A number that is unpacked as a mantissa and a place is their product. -/
theorem isExactly_of_finite (h : x.toModel.unpack = .finite s m e hm) :
    IsExactly x s (m * 2 ^ e) := by
  unfold IsExactly
  rw [h]
  exact ⟨rfl, rfl⟩

/-- A number that is unpacked as zero is the nearest to whatever is at most half of the lowest
place. -/
theorem isNearest_of_zero (h : x.toModel.unpack = .zero s) (hv : v ≤ 1 / 2 * 2 ^ (-1074 : Int)) :
    IsNearest x s v := by
  unfold IsNearest
  rw [h]
  exact ⟨rfl, hv⟩

/-- A number that is unpacked as a mantissa and a place is the nearest to what is near these. -/
theorem isNearest_of_finite (h : x.toModel.unpack = .finite s m e hm) (hv : Near v m e) :
    IsNearest x s v := by
  unfold IsNearest
  rw [h]
  exact ⟨rfl, canonical_unpack h, hv⟩

/-- A number is the nearest to itself. -/
theorem IsExactly.isNearest (h : IsExactly x s v) : IsNearest x s v := by
  obtain ⟨hparts, rfl⟩ | ⟨m, e, hm, hparts, rfl⟩ := Exactly.zero_or_finite h
  · exact isNearest_of_zero hparts (by positivity)
  · exact isNearest_of_finite hparts (near_self m e)

/-- A finite number is exactly some rational number. -/
theorem exists_isExactly (h : isFinite x) : ∃ s v, IsExactly x s v := by
  obtain ⟨s, hparts⟩ | ⟨s, m, e, hm, hparts, -⟩ := Within.zero_or_finite ((isFinite_iff x).1 h)
  · exact ⟨s, 0, isExactly_of_zero hparts⟩
  · exact ⟨s, m * 2 ^ e, isExactly_of_finite hparts⟩

/-- The nearest number is finite. -/
theorem IsNearest.isFinite (h : IsNearest x s v) : isFinite x := by
  have hread : Reads _ _ _ x.toModel.unpack := reads_unpack (bitsOf x)
  refine (isFinite_iff_scale x).2 fun hscale => ?_
  rw [hscale] at hread
  obtain ⟨hparts, -⟩ | ⟨m, e, hm, hparts, -⟩ := Rounds.zero_or_finite h
  · rw [hparts] at hread
    exact absurd hread.2.1 (by omega)
  · rw [hparts] at hread
    exact hread.2.1 rfl

/-- **There is one nearest number.** -/
theorem IsNearest.eq (h : IsNearest x s v) (h' : IsNearest y s v) : x = y := by
  obtain ⟨⟨a, ha⟩⟩ := x
  obtain ⟨⟨b, hb⟩⟩ := y
  have hunpack : unpack .binary64 a.toBitVec = unpack .binary64 b.toBitVec := h.unique h'
  have hbits : a.toBitVec = b.toBitVec := by
    rw [← pack_unpack_of_valid ha, hunpack, pack_unpack_of_valid hb]
  obtain rfl : a = b := UInt64.toBitVec_inj.1 hbits
  rfl

/-- The nearest number is kept when it is packed, if it is not too large. -/
theorem isNearest_pack {u : UnpackedFloat} (h : Rounds v s u) (hu : Within 971 u) :
    IsNearest (.ofModel (.pack u)) s v := by
  unfold IsNearest
  change Rounds v s (unpack .binary64 (UnpackedFloat.pack .binary64 u))
  match u, h, hu with
  | .zero s', h, _ => rwa [UnpackedFloat.pack, unpack_packedZero]
  | .finite s' m e hm, ⟨hs, hcanonical, hnear⟩, he =>
    rw [hcanonical.unpack_pack he s']
    exact ⟨hs, hcanonical, hnear⟩

/-- Rounding is the same for both signs. -/
theorem Rounds.neg {u : UnpackedFloat} (h : Rounds v s u) : Rounds v (-s) u.neg := by
  match u, h with
  | .zero _, ⟨hs, hle⟩ => exact ⟨congrArg _ hs, hle⟩
  | .finite _ m e _, ⟨hs, hcanonical, hnear⟩ => exact ⟨congrArg _ hs, hcanonical, hnear⟩

/-- The nearest number with the other sign is the negative one. -/
theorem IsNearest.neg (h : IsNearest x s v) : IsNearest (-x) (-s) v :=
  isNearest_pack (Rounds.neg h) (Within.neg ((isFinite_iff x).1 h.isFinite))

/-- The product of exact numbers is rounded to the nearest, if one of them has all bits of its
mantissa. -/
theorem Exactly.mul {u u' : UnpackedFloat} (hu : Exactly v s u) (hu' : Exactly v' s' u')
    (hfull : 2 ^ 52 ≤ mantissa u') :
    Rounds (v * v') (s * s') (UnpackedFloat.mul .binary64 u u') := by
  match u, u', hu, hu' with
  | _, .zero _, _, _ => exact absurd hfull (by simp [mantissa])
  | .zero _, .finite _ m' e' hm', ⟨hs, hv⟩, ⟨hs', hv'⟩ =>
    rw [hv, zero_mul, ← hs, ← hs']
    exact ⟨rfl, by positivity⟩
  | .finite _ m e hm, .finite _ m' e' hm', ⟨hs, hv⟩, ⟨hs', hv'⟩ =>
    rw [hv, hv', ← hs, ← hs']
    exact rounds_mul hm hm' (Nat.le_trans hfull (Nat.le_mul_of_pos_left m' hm))

/-- The quotient of exact numbers is rounded to the nearest. -/
theorem Exactly.div {u u' : UnpackedFloat} (hu : Exactly v s u) (hu' : Exactly v' s' u')
    (hpos : v' ≠ 0) : Rounds (v / v') (s / s') (UnpackedFloat.div .binary64 u u') := by
  match u, u', hu, hu' with
  | _, .zero _, _, ⟨_, hv'⟩ => exact absurd hv' hpos
  | .zero _, .finite _ m' e' hm', ⟨hs, hv⟩, ⟨hs', hv'⟩ =>
    rw [hv, zero_div, ← hs, ← hs']
    exact ⟨rfl, by positivity⟩
  | .finite _ m e hm, .finite _ m' e' hm', ⟨hs, hv⟩, ⟨hs', hv'⟩ =>
    rw [hv, hv', ← hs, ← hs']
    exact rounds_div hm hm'

/-- A product with a number in full precision is the nearest number, unless it is too large. -/
theorem IsExactly.mul {l l' : Int} (hx : IsExactly x s v) (hy : IsExactly y s' v')
    (hfull : 2 ^ 52 ≤ mantissa y.toModel.unpack) (hl : Fits l x) (hl' : Fits l' y)
    (hlow : -1074 ≤ l + l' + 53) (hhigh : l + l' + 53 ≤ 971) :
    IsNearest (x * y) (s * s') (v * v') :=
  isNearest_pack (Exactly.mul hx hy hfull)
    ((within_mul hl hl' (mantissa_unpack_lt x) (mantissa_unpack_lt y) hlow).mono hhigh)

/-- A quotient by a number that is at least one is the nearest number. -/
theorem IsExactly.div (hx : IsExactly x s v) (hy : IsExactly y s' v')
    (hone : AtLeastOne y.toModel.unpack) : IsNearest (x / y) (s / s') (v / v') := by
  refine isNearest_pack (Exactly.div hx hy ?_) (within_div_of_atLeastOne (by omega)
    ((isFinite_iff x).1 hx.isNearest.isFinite) (mantissa_unpack_lt x) hone)
  obtain ⟨hparts, -⟩ | ⟨m, e, hm, -, rfl⟩ := Exactly.zero_or_finite hy
  · exact (hparts ▸ hone : AtLeastOne (.zero s')).elim
  · have := two_zpow_pos e
    positivity

end Numbers

end ChatBot.Number
