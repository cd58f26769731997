import ChatBot.Proofs.Number.ReadingBack
import ChatBot.Proofs.Number.Scaling

/-!
# Rounding to ten places

A number with a fraction is written rounded to ten places, which is done in double precision: it is
multiplied by `10 ^ 10`, rounded to a whole number and divided again. What comes of that is the
number nearest to a count of units of the tenth place (`isNearest_toPlaces`). Rounding such a number
once more leaves it as it is (`toPlaces_eq_of_not_gains`), with one exception: where its product
with `10 ^ 10` is rounded up to half a unit, a unit is gained (`GainsUnit`). After that no other one
is (`toPlaces_of_gains`).
-/

set_option autoImplicit false

namespace ChatBot.Number

open Float.Model Float.Model.UnpackedFloat

/-! ## The size of a number -/

/-- What a finite number is without its sign. -/
def size (x : Float) : ℚ :=
  match Binary.ofFloat x with
  | .finite _ m e => m * 2 ^ e
  | _ => 0

section Size

variable {x : Float} {s : Sign} {v : ℚ}

/-- A number that is exact can be read off its bits as a mantissa and an exponent. -/
theorem IsExactly.exists_ofFloat (h : IsExactly x s v) :
    ∃ m e, Binary.ofFloat x = .finite (s == .negative) m e ∧ m < 2 ^ 53 ∧ v = m * 2 ^ e := by
  obtain ⟨hparts, rfl⟩ | ⟨m, e, hm, hparts, rfl⟩ := Exactly.zero_or_finite h
  · obtain ⟨k, hk⟩ := ofFloat_of_zero hparts
    exact ⟨0, -k, hk, by omega, by simp⟩
  · exact ⟨m, e, ofFloat_of_finite hparts, (canonical_unpack hparts).lt, rfl⟩

/-- The size of a number is what it is without its sign. -/
theorem IsExactly.size_eq (h : IsExactly x s v) : size x = v := by
  obtain ⟨m, e, hparts, -, rfl⟩ := h.exists_ofFloat
  rw [size, hparts]

/-- A size is not negative. -/
theorem size_nonneg (x : Float) : 0 ≤ size x := by
  unfold size
  split <;> positivity

/-- A nearest number is exactly its size. -/
theorem IsNearest.isExactly (h : IsNearest x s v) : IsExactly x s (size x) := by
  obtain ⟨hparts, -⟩ | ⟨m, e, hm, hparts, -⟩ := Rounds.zero_or_finite h
  · have hexact := isExactly_of_zero hparts
    rwa [hexact.size_eq]
  · have hexact := isExactly_of_finite hparts
    rwa [hexact.size_eq]

/-- The parts of the nearest number to one that is not too small. -/
theorem IsNearest.exists_parts (h : IsNearest x s v) (hv : 1 / 2 * 2 ^ (-1074 : Int) < v) :
    ∃ (m : Nat) (e : Int), size x = m * 2 ^ e ∧ Canonical m e ∧ Near v m e := by
  obtain ⟨-, hle⟩ | ⟨m, e, hm, hparts, hcanonical, hnear⟩ := Rounds.zero_or_finite h
  · exact absurd hv (not_lt.2 hle)
  · exact ⟨m, e, (isExactly_of_finite hparts).size_eq, hcanonical, hnear⟩

/-- Rounding makes no number twice as large. -/
theorem IsNearest.size_le (h : IsNearest x s v) (hv : 0 ≤ v) : size x ≤ 2 * v := by
  obtain ⟨hparts, -⟩ | ⟨m, e, hm, hparts, -, hnear⟩ := Rounds.zero_or_finite h
  · rw [(isExactly_of_zero hparts).size_eq]
    linarith
  · rw [(isExactly_of_finite hparts).size_eq]
    have hone : (1 : ℚ) ≤ m := by exact_mod_cast hm
    have hlow := hnear.half_le
    have hmul := mul_le_mul_of_nonneg_right hone (two_zpow_pos e).le
    linarith

/-- A number is the nearest to each point of its interval. -/
theorem IsExactly.isNearest_of_near {m : Nat} {e : Int} (h : IsExactly x s (m * 2 ^ e))
    (hm : Canonical m e) (hnear : Near v m e) : IsNearest x s v := by
  obtain ⟨-, hzero⟩ | ⟨m', e', hm', hparts, hvalue⟩ := Exactly.zero_or_finite h
  · have hpos : (0 : ℚ) < m * 2 ^ e := mul_pos (by exact_mod_cast hm.pos) (two_zpow_pos e)
    exact absurd hzero hpos.ne'
  · obtain ⟨rfl, rfl⟩ := hm.ext (canonical_unpack hparts) hvalue
    exact isNearest_of_finite hparts hnear

end Size

/-! ## Rounding to a whole number -/

/-- A mantissa that fits is put together exactly. -/
theorem isExactly_ofParts (s : Sign) {m : Nat} (hm : m < 2 ^ 53) :
    IsExactly (ofParts (s == .negative) m 0) s m := by
  by_cases hzero : m = 0
  · subst hzero
    have hunpack : (ofParts (s == .negative) 0 0).toModel.unpack = .zero s := by
      cases s <;> with_unfolding_all rfl
    rw [Nat.cast_zero]
    exact isExactly_of_zero hunpack
  · have hlog : m.log2 ≤ 52 := by
      have := (Nat.log2_lt hzero).2 hm
      omega
    obtain ⟨hlow, -⟩ := significand_bounds hzero hm
    obtain ⟨b, hb, hsign, hscale, hfraction⟩ := exists_bits_ofParts (s == .negative) hzero hm
    have hread := reads_unpack b.toBitVec
    have hsign' : Sign.ofBitVec (@unpackSign .binary64 b.toBitVec) = s := by
      have hnegative := isNegative_eq b.toBitVec
      change (b.toNat / 2 ^ 63 == 1) = _ at hnegative
      rw [hsign] at hnegative
      revert hnegative
      generalize Sign.ofBitVec (@unpackSign .binary64 b.toBitVec) = t
      cases s <;> cases t <;> first | exact fun _ => rfl | exact fun h => absurd h (by decide)
    rw [hsign', toNat_unpackExponent, toNat_unpackMantissa] at hread
    change Reads s (b.toNat / 2 ^ 52 % 2048) (b.toNat % 2 ^ 52) _ at hread
    rw [hscale, hfraction, ← unpack_ofBits (by omega), ← hb] at hread
    have hpos : 0 < m * 2 ^ (52 - m.log2) := by omega
    have hparts := hread.unique (v := .finite s _ (-((52 - m.log2 : Nat) : Int)) hpos)
      ⟨rfl, by omega, by rw [if_neg] <;> omega, by omega⟩ (by omega)
    rw [← shifted_value m (52 - m.log2)]
    exact isExactly_of_finite hparts

/-- The nearest whole number is exact, halves going up. -/
theorem isExactly_round {x : Float} {s : Sign} {v : ℚ} (h : IsExactly x s v) :
    IsExactly (round x) s ⌊v + 1 / 2⌋₊ := by
  obtain ⟨m, e, hparts, hm, rfl⟩ := h.exists_ofFloat
  rw [round, hparts]
  dsimp only
  split
  · rename_i he
    rwa [floor_of_whole m he]
  · rename_i he
    obtain ⟨k, rfl⟩ : ∃ k : Nat, e = -k := ⟨(-e).toNat, by omega⟩
    have hfloor : ⌊(m * 2 ^ (-(k : Int)) : ℚ) + 1 / 2⌋₊ = (2 * m + 2 ^ k) / (2 * 2 ^ k) := by
      rw [← Nat.floor_div_eq_div (K := ℚ), zpow_neg, zpow_natCast]
      push_cast
      congr 1
      field_simp
    have hunit : 2 ^ 1 ≤ 2 ^ k := Nat.pow_le_pow_right (by omega) (by omega)
    have hlt : (2 * m + 2 ^ k) / (2 * 2 ^ k) < 2 ^ 53 := by
      refine Nat.div_lt_of_lt_mul ?_
      generalize 2 ^ k = unit at hunit
      omega
    rw [hfloor, Int.neg_neg, Int.toNat_natCast, Nat.pow_eq]
    exact isExactly_ofParts s hlt

/-! ## Ten places -/

/-- The number that is written for one that is neither large nor whole. -/
def toPlaces (x : Float) : Float :=
  round (x * placeScale) / placeScale

/-- How many units of the tenth place a number is rounded to. -/
def units (x : Float) : Nat :=
  ⌊size (x * placeScale) + 1 / 2⌋₊

section Places

variable {x : Float} {s : Sign} {v : ℚ} {n : Nat}

/-- The scale of the tenth place is in full precision. -/
theorem placeScale_fullNat : FullNat (10 ^ 10) placeScale.toModel.unpack := by
  decide +kernel

/-- The scale of the tenth place is exactly `10 ^ 10`. -/
theorem isExactly_placeScale : IsExactly placeScale .positive (10 ^ 10) := by
  exact_mod_cast placeScale_fullNat.exactly

/-- A number in units of the tenth place is rounded to the nearest one. -/
theorem isNearest_scaled (h : IsExactly x s v) (hsize : Fits 0 x) :
    IsNearest (x * placeScale) s (v * 10 ^ 10) := by
  have hmul := h.mul isExactly_placeScale placeScale_fullNat.full hsize placeScale_size.2
    (by omega) (by omega)
  cases s <;> exact hmul

/-- Rounding what is scaled gives the units exactly. -/
theorem isExactly_units (h : IsExactly x s v) (hsize : Fits 0 x) :
    IsExactly (round (x * placeScale)) s (units x) :=
  isExactly_round (isNearest_scaled h hsize).isExactly

/-- What is written for a number is the nearest one to its units. -/
theorem isNearest_toPlaces (h : IsExactly x s v) (hsize : Fits 0 x) :
    IsNearest (toPlaces x) s (units x / 10 ^ 10) := by
  have hdiv := (isExactly_units h hsize).div isExactly_placeScale placeScale_size.1
  cases s <;> exact hdiv

/-- Half of the lowest place is much less than a unit of the tenth one. -/
theorem two_zpow_lowest_lt : (1 / 2 * 2 ^ (-1074 : Int) : ℚ) < 1 / 10 ^ 10 := by
  calc (1 / 2 * 2 ^ (-1074 : Int) : ℚ) ≤ 1 / 2 * 2 ^ (-34 : Int) :=
        mul_le_mul_of_nonneg_left (two_zpow_le (by omega)) (by norm_num)
    _ < 1 / 10 ^ 10 := by norm_num

/-- A number that is nearest to some units has a mantissa and a place. -/
theorem exists_parts_of_units (h : IsNearest x s (n / 10 ^ 10)) (hn : 0 < n) :
    ∃ (m : Nat) (e : Int), size x = m * 2 ^ e ∧ Canonical m e ∧ Near (n / 10 ^ 10) m e := by
  have hn' : (1 : ℚ) ≤ n := by exact_mod_cast hn
  exact h.exists_parts
    (two_zpow_lowest_lt.trans_le (div_le_div_of_nonneg_right hn' (by positivity)))

/-- A number that is nearest to some units is not zero. -/
theorem size_pos_of_units (h : IsNearest x s (n / 10 ^ 10)) (hn : 0 < n) : 0 < size x := by
  obtain ⟨m, e, hvalue, hcanonical, -⟩ := exists_parts_of_units h hn
  rw [hvalue]
  exact mul_pos (by exact_mod_cast hcanonical.pos) (two_zpow_pos e)

/-- A number that is the nearest to a count of units, and its product. -/
theorem exists_scaled {z : Float} (h : IsNearest x s (n / 10 ^ 10)) (hsize : Fits 0 x)
    (hn : 0 < n) (hz : IsExactly z s n) :
    ∃ m e b f, Scaled n m e b f ∧ size x = m * 2 ^ e ∧ size (x * placeScale) = b * 2 ^ f := by
  obtain ⟨m, e, hvalue, hnumber, hnear⟩ := exists_parts_of_units h hn
  have hscaled := isNearest_scaled h.isExactly hsize
  rw [hvalue] at hscaled
  obtain ⟨b, f, hvalue', hproduct, hnear'⟩ := hscaled.exists_parts <| by
    have hm : (1 : ℚ) ≤ m := by exact_mod_cast hnumber.pos
    have hplace := two_zpow_le hnumber.lowest
    have hpos := two_zpow_pos (-1074)
    have hmul := mul_le_mul hm hplace hpos.le (by positivity)
    linarith
  refine ⟨m, e, b, f, ⟨hnumber, hnear, hproduct, hnear', ?_⟩, hvalue, hvalue'⟩
  obtain ⟨-, hzero⟩ | ⟨m', e', hm', hparts, hunits⟩ := Exactly.zero_or_finite hz
  · exact absurd hzero (Nat.cast_ne_zero.2 hn.ne')
  · exact ⟨m', e', canonical_unpack hparts, hunits.symm⟩

/-- The product of the number with `10 ^ 10` is rounded up to half a unit of the tenth place. -/
structure GainsUnit (x : Float) : Prop where
  half : ∃ n : Nat, size (x * placeScale) = n + 1 / 2
  up : size x * 10 ^ 10 < size (x * placeScale)

/-- The last place of the nearest number to a small one. -/
theorem IsNearest.fits (h : IsNearest x s v) (hv : v < 2 ^ 52) : Fits 0 x := by
  unfold Fits
  obtain ⟨hparts, -⟩ | ⟨m, e, hm, hparts, hcanonical, hnear⟩ := Rounds.zero_or_finite h
  · rw [hparts]
    trivial
  · rw [hparts]
    refine Int.not_lt.1 fun he => ?_
    have hfull := hcanonical.le_cast (by omega)
    have hplace : (2 : ℚ) ^ (1 : Int) ≤ 2 ^ e := two_zpow_le (by omega)
    have hlow := hnear.half_le
    have hmul : ((2 : ℚ) ^ 52 - 1 / 2) * 2 ^ (1 : Int) ≤ (m - 1 / 2) * 2 ^ e :=
      mul_le_mul (by linarith) hplace (by norm_num) (by linarith)
    norm_num at hmul hv
    linarith

variable {z : Float} (hx : IsNearest x s (n / 10 ^ 10)) (hsize : Fits 0 x) (hn : 0 < n)
  (hz : IsExactly z s n)

include hx hsize hn hz

/-- A number that is the nearest to a count of units stays as it is unless it gains a unit. -/
theorem toPlaces_eq_of_not_gains (h : ¬ GainsUnit x) : toPlaces x = x := by
  obtain ⟨m, e, b, f, hscaled, hvalue, hvalue'⟩ := exists_scaled hx hsize hn hz
  obtain ⟨-, hgains, -⟩ | ⟨-, hnear⟩ := hscaled.cases
  · exact absurd ⟨hvalue' ▸ hgains.1, hvalue ▸ hvalue' ▸ hgains.2⟩ h
  · have hexact := hx.isExactly
    rw [hvalue] at hexact
    rw [← hvalue'] at hnear
    exact (isNearest_toPlaces hexact hsize).eq (hexact.isNearest_of_near hscaled.number hnear)

/-- A number that gains a unit is half a unit above its own when it is scaled. -/
theorem units_of_gains (h : GainsUnit x) :
    units x = n + 1 ∧ size (x * placeScale) = n + 1 / 2 ∧ 2 ^ 18 ≤ size x := by
  obtain ⟨m, e, b, f, hscaled, hvalue, hvalue'⟩ := exists_scaled hx hsize hn hz
  obtain ⟨rfl, -, hhalf⟩ | ⟨hgains, -⟩ := hscaled.cases
  · have hunits : ((n : ℚ) + 1 / 2 + 1 / 2) = (n + 1 : Nat) := by
      push_cast
      ring
    refine ⟨?_, hvalue'.trans hhalf, ?_⟩
    · rw [units, hvalue', hhalf, hunits, Nat.floor_natCast]
    · rw [hvalue]
      calc (2 ^ 18 : ℚ) = 2 ^ 52 * 2 ^ (-34 : Int) := by norm_num
        _ ≤ m * 2 ^ (-34 : Int) :=
          mul_le_mul_of_nonneg_right (hscaled.number.le_cast (by omega)) (by positivity)
  · exact absurd ⟨hvalue' ▸ h.half, hvalue ▸ hvalue' ▸ h.up⟩ hgains

/-- **A number gains one unit at most**, and that makes it another number. -/
theorem toPlaces_of_gains (h : GainsUnit x) :
    IsNearest (toPlaces x) s ((n + 1 : Nat) / 10 ^ 10) ∧ Fits 0 (toPlaces x) ∧
      toPlaces (toPlaces x) = toPlaces x ∧ toPlaces x ≠ x := by
  obtain ⟨hunits, -, -⟩ := units_of_gains hx hsize hn hz h
  have hplaces := isNearest_toPlaces hx.isExactly hsize
  have hz' := isExactly_units hx.isExactly hsize
  rw [hunits] at hplaces hz'
  obtain ⟨m, e, b, f, hscaled, hvalue, hvalue'⟩ := exists_scaled hx hsize hn hz
  obtain ⟨rfl, -, hhalf⟩ | ⟨hgains, -⟩ := hscaled.cases
  · have hsize' : Fits 0 (toPlaces x) := by
      refine hplaces.fits ?_
      have hdist := (abs_le.1 hscaled.dist_le).1
      have hm := hscaled.number.cast_le
      rw [div_lt_iff₀ (by norm_num)]
      push_cast
      norm_num at hdist
      linarith
    obtain ⟨m', e', b', f', hscaled', hvalue₂, hvalue₂'⟩ :=
      exists_scaled hplaces hsize' (Nat.succ_pos n) hz'
    obtain ⟨hfloor, hne⟩ := hscaled.gained hhalf hscaled'
    refine ⟨hplaces, hsize', ?_, fun heq => hne ?_⟩
    · have hagain := isNearest_toPlaces hplaces.isExactly hsize'
      rw [units, hvalue₂', hfloor] at hagain
      exact hagain.eq hplaces
    · rw [← hvalue₂, ← hvalue, heq]
  · exact absurd ⟨hvalue' ▸ h.half, hvalue ▸ hvalue' ▸ h.up⟩ hgains

end Places

end ChatBot.Number
