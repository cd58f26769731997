import ChatBot.Proofs.Number.Places

/-!
# Texts of numbers that are read and written again

The text of a number reads as a number, and what that is written as should be the same text. There
are two exceptions. A small negative number that is rounded to zero is written with its sign, and
read again it is zero and has none. And some numbers, of those whose last place is worth `2 ^ -34`,
gain a unit of the tenth place. Main statements: there are no other exceptions (`exists_restated`),
and at the second reading there are none at all (`exists_settles`).
-/

set_option autoImplicit false

namespace ChatBot.Number

open Float.Model Float.Model.UnpackedFloat

section Texts

variable {x y : Float} {s : Sign} {v : ℚ}

/-! ## The notations -/

/-- A number is written in full if its size is at least `10 ^ 15`. -/
theorem IsExactly.fullSize_le_iff (h : IsExactly x s v) : x.abs ≥ fullSize ↔ 10 ^ 15 ≤ v := by
  obtain ⟨hparts, rfl⟩ | ⟨m, e, hm, hparts, rfl⟩ := Exactly.zero_or_finite h
  · exact iff_of_false (lt_fullSize_of_zero hparts) (by norm_num)
  · exact Number.fullSize_le_iff hparts

/-- The whole part of a number is no larger than the number. -/
theorem IsExactly.exists_wholePart? (h : IsExactly x s v) :
    ∃ n, wholePart? x = some n ∧ (n.natAbs : ℚ) ≤ v := by
  obtain ⟨m, e, hparts, -, rfl⟩ := h.exists_ofFloat
  refine ⟨_, by rw [wholePart?, hparts], ?_⟩
  have hfloor : ((m * 2 ^ e.toNat / 2 ^ (-e).toNat : Nat) : ℚ) ≤ m * 2 ^ e := by
    refine Nat.cast_div_le.trans ?_
    push_cast
    rw [pow_toNat_eq two_ne_zero e, ← mul_assoc, mul_div_cancel_right₀ _ (by positivity)]
  split
  · rwa [Int.natAbs_neg]
  · exact hfloor

/-- A large number is written with its shortest digits. -/
theorem format_of_large (h : IsExactly x s v) (hv : 10 ^ 15 ≤ v) : format x = plain x :=
  if_pos (h.fullSize_le_iff.2 hv)

/-- A whole number that is not large is written as such. -/
theorem format_of_whole (h : IsExactly x s v) (hv : v < 10 ^ 15) (hwhole : isWhole x) :
    ∃ n, Denotes x n ∧ n.natAbs < 10 ^ 15 ∧ format x = wholeText n := by
  obtain ⟨n, hpart, hn⟩ := h.exists_wholePart?
  have hn' : n.natAbs < 10 ^ 15 := by exact_mod_cast hn.trans_lt hv
  exact ⟨n, denotes_of_isWhole hwhole hpart (by omega), hn',
    (denotes_of_isWhole hwhole hpart (by omega)).format hn'⟩

/-- Any other number is written as it is rounded to the tenth place. -/
theorem format_of_fraction (h : IsExactly x s v) (hv : v < 10 ^ 15) (hfraction : ¬ isWhole x) :
    format x = plain (toPlaces x) := by
  rw [format, if_neg (mt h.fullSize_le_iff.1 (not_le.2 hv)), if_neg hfraction]
  rfl

/-- A number that is not zero in size denotes a whole number that is not zero. -/
theorem Denotes.ne_zero {n : Int} (h : Denotes x n) (hx : IsExactly x s v) (hv : v ≠ 0) :
    n ≠ 0 := by
  rintro rfl
  obtain ⟨t, hparts, -⟩ | ⟨t, a, k, hm, -, hvalue, -⟩ := h.zero_or_finite
  · exact hv (hx.size_eq.symm.trans (isExactly_of_zero hparts).size_eq)
  · have ha : 0 < a := Nat.pos_of_mul_pos_right hm
    cases t <;> simp only [Sign.apply] at hvalue <;> omega

/-- A number that rounding to ten places leaves as it is, and that is not zero, is written in plain
notation. -/
theorem format_eq_plain (h : IsExactly x s v) (hzero : v ≠ 0)
    (hplaces : v < 10 ^ 15 → ¬ isWhole x → toPlaces x = x) : format x = plain x := by
  obtain hlarge | hsmall := le_or_gt (10 ^ 15) v
  · exact format_of_large h hlarge
  by_cases hwhole : isWhole x
  · obtain ⟨n, hdenotes, hn, hformat⟩ := format_of_whole h hsmall hwhole
    rw [hformat, plain_of_whole hdenotes (hdenotes.ne_zero h hzero) hn]
  · rw [format_of_fraction h hsmall hwhole, hplaces hsmall hwhole]

/-! ## Numbers that gain a unit -/

/-- What is half a unit off lies below `2 ^ 52`. -/
theorem lt_of_half {m n : Nat} {e : Int} (hm : m < 2 ^ 53) (hhalf : (m * 2 ^ e : ℚ) = n + 1 / 2) :
    (m * 2 ^ e : ℚ) < 2 ^ 52 := by
  have hlast := place_neg_of_half hhalf
  have hplace : (2 : ℚ) ^ e ≤ 2 ^ (-1 : Int) := two_zpow_le (by omega)
  have hm' : (m : ℚ) < 2 ^ 53 := by exact_mod_cast hm
  calc (m * 2 ^ e : ℚ) ≤ m * 2 ^ (-1 : Int) := mul_le_mul_of_nonneg_left hplace (by positivity)
    _ < 2 ^ 53 * 2 ^ (-1 : Int) := mul_lt_mul_of_pos_right hm' (by norm_num)
    _ = 2 ^ 52 := by norm_num

/-- A number that gains a unit is small. -/
theorem GainsUnit.lt (h : GainsUnit x) : size x * 10 ^ 10 < 2 ^ 52 := by
  obtain ⟨n, hhalf⟩ := h.half
  refine h.up.trans ?_
  unfold size at hhalf ⊢
  split
  · rename_i negative m e hparts
    rw [hparts] at hhalf
    obtain ⟨_, _, _, hparts', hm, -, -⟩ :=
      ofFloat_of_isFinite (x := x * placeScale) (by simp [isFinite, hparts])
    cases hparts.symm.trans hparts'
    exact lt_of_half hm hhalf
  · norm_num

/-- A number that gains a unit is not large. -/
theorem GainsUnit.small (h : GainsUnit x) : size x < 10 ^ 15 := by
  have := h.lt
  norm_num at this ⊢
  linarith

/-- The size of a whole number is a natural number. -/
theorem exists_nat_of_isWhole (h : IsExactly x s v) (hwhole : isWhole x) : ∃ a : Nat, v = a := by
  obtain ⟨m, e, hparts, -, rfl⟩ := h.exists_ofFloat
  rw [isWhole, hparts, Bool.or_eq_true, beq_iff_eq, decide_eq_true_eq, Nat.pow_eq] at hwhole
  obtain ⟨k, rfl | rfl⟩ := Int.eq_nat_or_neg e
  · exact ⟨m * 2 ^ k, by rw [zpow_natCast]; push_cast; rfl⟩
  · have hdvd : 2 ^ k ∣ m := by
      obtain hk | hmod := hwhole
      · obtain rfl : k = 0 := by omega
        exact Nat.one_dvd m
      · rw [Int.neg_neg, Int.toNat_natCast] at hmod
        exact Nat.dvd_of_mod_eq_zero hmod
    obtain ⟨a, rfl⟩ := exists_eq_mul_left_of_dvd hdvd
    exact ⟨a, shifted_value a k⟩

/-- A number that gains a unit has a fraction. -/
theorem GainsUnit.fraction (h : GainsUnit x) (hx : IsExactly x s v) : ¬ isWhole x := by
  intro hwhole
  obtain ⟨n, hhalf⟩ := h.half
  have hsmall := h.small
  rw [hx.size_eq] at hsmall
  obtain ⟨a, rfl⟩ := exists_nat_of_isWhole hx hwhole
  have hsize : Fits 0 x := hx.isNearest.fits (hsmall.trans (by norm_num))
  obtain ⟨hparts, -⟩ | ⟨m, e, hm, hparts, -, hnear⟩ :=
    Rounds.zero_or_finite (isNearest_scaled hx hsize)
  · rw [(isExactly_of_zero hparts).size_eq] at hhalf
    have := Nat.cast_nonneg (α := ℚ) n
    linarith
  · -- the product is a whole number, and half a unit is further away than rounding goes
    rw [(isExactly_of_finite hparts).size_eq] at hhalf
    have hdist := hnear.dist_le
    have hhalf' := half_le_dist (a * 10 ^ 10) n
    have hplace : (2 : ℚ) ^ e ≤ 2 ^ (-1 : Int) :=
      two_zpow_le (by have := place_neg_of_half hhalf; omega)
    rw [hhalf] at hdist
    push_cast at hhalf'
    norm_num at hplace hdist hhalf'
    linarith

/-! ## Zeros -/

/-- The negative zero is the nearest number to zero with its sign. -/
theorem isNearest_negative_zero : IsNearest (-0.0) .negative 0 :=
  (isNearest_zero (by positivity)).neg

/-- The shortest digits of the negative zero keep its sign. -/
theorem plain_negative_zero : plain (-0.0) = "-0" := by
  decide +kernel

/-- The negative zero is written without its sign. -/
theorem format_negative_zero : format (-0.0) = "0" := by
  decide +kernel

/-- A zero with a minus sign is read as the negative zero. -/
theorem parse?_negative_zero : parse? "-0" = some (-0.0) :=
  plain_negative_zero ▸ parse?_plain_eq isNearest_negative_zero.isFinite

/-- Nothing else is read from a zero with a minus sign. -/
theorem eq_negative_zero_of_parse? (h : parse? "-0" = some y) : y = -0.0 :=
  Option.some.inj (h.symm.trans parse?_negative_zero)

/-- A zero is read as zero. -/
theorem parse?_zero : parse? "0" = some 0.0 := by
  have hplain : plain 0.0 = "0" := by decide +kernel
  have hfinite : isFinite 0.0 := (isNearest_zero (v := 0) (by positivity)).isFinite
  exact hplain ▸ parse?_plain_eq hfinite

/-- The negative zero gains no unit. -/
theorem not_gainsUnit_negative_zero : ¬ GainsUnit (-0.0) :=
  fun hgains => hgains.fraction isNearest_negative_zero.isExactly (by decide +kernel)

/-! ## Writing what was read -/

/-- A count of units of the tenth place is read as the nearest number. -/
theorem isNearest_ofUnits {n : Nat} (hn : (n / 10 ^ 10 : ℚ) < 2 ^ 52) :
    IsNearest (ofDecimal n (-10)) .positive (n / 10 ^ 10) := by
  have hlt : n < 2 ^ 52 * 10 ^ 10 := by
    rw [div_lt_iff₀ (by norm_num)] at hn
    exact_mod_cast hn
  have hoverflow (l : Nat) : 2 ^ 52 ≤ overflowFrom l := by
    rw [overflowFrom]
    exact Nat.le_trans (by norm_num) (Nat.le_mul_of_pos_right _ (Nat.two_pow_pos l))
  have hread : n * 10 ^ (-10 : Int).toNat < overflowFrom 970 * 10 ^ (-(-10 : Int)).toNat := by
    have hup : (-10 : Int).toNat = 0 := rfl
    have hdown : (-(-10 : Int)).toNat = 10 := rfl
    rw [hup, hdown, pow_zero, mul_one]
    exact Nat.lt_of_lt_of_le hlt (Nat.mul_le_mul_right _ (hoverflow 970))
  have hnearest := isNearest_ofDecimal hread
  rwa [zpow_neg, zpow_ofNat, ← div_eq_mul_inv] at hnearest

/-- What becomes of a text when the number that it reads as is written: it stays as it is, or a zero
loses its sign, or a unit of the tenth place is gained. -/
inductive Restated (text : String) (y : Float) : Prop where
  | same (hgains : ¬ GainsUnit y) (heq : format y = text)
  | zero (hzero : text = "-0") (heq : y = -0.0)
  | gained (n : Nat) (z : Float) (hgains : GainsUnit y) (hsize : 2 ^ 18 ≤ size y)
    (hunits : size (y * placeScale) = n + 1 / 2)
    (hnumbers : y = ofDecimal n (-10) ∧ z = ofDecimal (n + 1) (-10) ∨
      y = -ofDecimal n (-10) ∧ z = -ofDecimal (n + 1) (-10))
    (hne : z ≠ y) (hread : parse? (format y) = some z) (hsettled : format z = format y)

/-- The text of a large number is read back and restated as it is. -/
theorem restated_of_large (h : IsExactly x s v) (hv : 10 ^ 15 ≤ v) :
    ∃ y, parse? (format x) = some y ∧ Restated (format x) y := by
  refine ⟨x, format_of_large h hv ▸ parse?_plain_eq h.isNearest.isFinite, .same ?_ rfl⟩
  intro hgains
  have hsmall := hgains.small
  rw [h.size_eq] at hsmall
  linarith

/-- The digits of a whole number are read without loss. -/
theorem restated_of_whole (h : IsExactly x s v) (hv : v < 10 ^ 15) (hwhole : isWhole x) :
    ∃ y, parse? (format x) = some y ∧ Restated (format x) y := by
  obtain ⟨n, -, hn, hformat⟩ := format_of_whole h hv hwhole
  obtain ⟨y, hread, hdenotes⟩ := exists_parse?_wholeText (n := n) (by omega)
  obtain ⟨t, w, hy⟩ := exists_isExactly hdenotes.isFinite
  rw [hformat]
  exact ⟨y, hread, .same (fun hgains => hgains.fraction hy hdenotes.parts.1)
    (hdenotes.format hn)⟩

/-- A number that was rounded to zero keeps its sign for the time being. -/
theorem restated_zero (h : IsNearest y s 0) : Restated (plain y) y := by
  cases s with
  | positive =>
    obtain rfl := h.eq (isNearest_zero (by positivity))
    refine .same (fun hgains => ?_) (by decide +kernel)
    exact hgains.fraction h.isExactly (by decide +kernel)
  | negative =>
    obtain rfl := h.eq isNearest_negative_zero
    exact .zero plain_negative_zero rfl

/-- A number that was rounded to another count of units than zero. -/
theorem restated_units {n : Nat} {z : Float} (h : IsNearest y s (n / 10 ^ 10)) (hn : 0 < n)
    (hn' : (n / 10 ^ 10 : ℚ) < 2 ^ 51) (hz : IsExactly z s n) : Restated (plain y) y := by
  have hsize : Fits 0 y := h.fits (hn'.trans (by norm_num))
  by_cases hgains : GainsUnit y
  · obtain ⟨-, hhalf, hlow⟩ := units_of_gains h hsize hn hz hgains
    obtain ⟨hplaces, -, hfix, hne⟩ := toPlaces_of_gains h hsize hn hz hgains
    have hformat : format y = plain (toPlaces y) :=
      format_of_fraction h.isExactly hgains.small (hgains.fraction h.isExactly)
    have hsettled : format (toPlaces y) = plain (toPlaces y) :=
      format_eq_plain hplaces.isExactly (size_pos_of_units hplaces (Nat.succ_pos n)).ne'
        fun _ _ => hfix
    -- the number before and the number after are each the nearest to their count of units
    have hunits := isNearest_ofUnits (hn'.trans (by norm_num))
    have hunits' := isNearest_ofUnits (n := n + 1) (by
      rw [div_lt_iff₀ (by norm_num)] at hn' ⊢
      push_cast
      linarith)
    refine .gained n (toPlaces y) hgains hlow hhalf ?_ hne
      (hformat ▸ parse?_plain_eq hplaces.isFinite) (hsettled.trans hformat.symm)
    cases s with
    | positive => exact .inl ⟨h.eq hunits, hplaces.eq hunits'⟩
    | negative => exact .inr ⟨h.eq hunits.neg, hplaces.eq hunits'.neg⟩
  · exact .same hgains (format_eq_plain h.isExactly (size_pos_of_units h hn).ne' fun _ _ =>
      toPlaces_eq_of_not_gains h hsize hn hz hgains)

/-- The text of a number that is neither large nor whole is read back, and restated as it is unless
a unit is gained. -/
theorem restated_of_fraction (h : IsExactly x s v) (hv : v < 10 ^ 15) (hfraction : ¬ isWhole x) :
    ∃ y, parse? (format x) = some y ∧ Restated (format x) y := by
  have hsize : Fits 0 x := h.isNearest.fits (hv.trans (by norm_num))
  have hplaces := isNearest_toPlaces h hsize
  have hunits := isExactly_units h hsize
  rw [format_of_fraction h hv hfraction]
  refine ⟨toPlaces x, parse?_plain_eq hplaces.isFinite, ?_⟩
  -- what is rounded to no unit at all is a zero that may have a sign
  obtain hzero | hpos := Nat.eq_zero_or_pos (units x)
  · rw [hzero, Nat.cast_zero, zero_div] at hplaces
    exact restated_zero hplaces
  · refine restated_units hplaces hpos ?_ hunits
    have hv' : 0 ≤ v := h.size_eq ▸ size_nonneg x
    have hscaled := (isNearest_scaled h hsize).size_le (by positivity)
    have hsize' := size_nonneg (x * placeScale)
    have hfloor : (units x : ℚ) ≤ size (x * placeScale) + 1 / 2 := Nat.floor_le (by positivity)
    rw [div_lt_iff₀ (by norm_num)]
    linarith

/-- **What becomes of the text of a number.** Large numbers and whole ones are written as they are
read; what is rounded to ten places is rounded once more. -/
theorem exists_restated (h : isFinite x) :
    ∃ y, parse? (format x) = some y ∧ Restated (format x) y := by
  obtain ⟨s, v, hx⟩ := exists_isExactly h
  obtain hlarge | hsmall := le_or_gt (10 ^ 15) v
  · exact restated_of_large hx hlarge
  by_cases hwhole : isWhole x
  · exact restated_of_whole hx hsmall hwhole
  · exact restated_of_fraction hx hsmall hwhole

/-- Read and written again, a text becomes `again`, which then stays. That is another text only if
it is a zero with a sign, which is lost, or the number `y` that it reads as gains a unit of the
tenth place. -/
structure Settles (text again : String) (y z : Float) : Prop where
  read : parse? text = some y
  written : format y = again
  read_again : parse? again = some z
  settled : format z = again
  same_iff : again = text ↔ text ≠ "-0" ∧ ¬ GainsUnit y
  zero : text = "-0" → again = "0"
  range : GainsUnit y → 2 ^ 18 ≤ size y ∧ size y * 10 ^ 10 < 2 ^ 52
  gained : GainsUnit y → ∃ n : Nat, size (y * placeScale) = n + 1 / 2 ∧
    (y = ofDecimal n (-10) ∧ z = ofDecimal (n + 1) (-10) ∨
      y = -ofDecimal n (-10) ∧ z = -ofDecimal (n + 1) (-10))

/-- A text that is restated once settles. -/
theorem Restated.settles {text : String} (h : Restated text y) (hread : parse? text = some y) :
    ∃ again z, Settles text again y z := by
  cases h with
  | same hgains heq =>
    have hzero : text ≠ "-0" := by
      rintro rfl
      obtain rfl := eq_negative_zero_of_parse? hread
      exact absurd (format_negative_zero.symm.trans heq) (by decide)
    exact ⟨text, y, hread, heq, hread, heq, iff_of_true rfl ⟨hzero, hgains⟩,
      fun h => absurd h hzero, fun h => absurd h hgains, fun h => absurd h hgains⟩
  | zero hzero heq =>
    subst hzero heq
    have hgains {P : Prop} (h : GainsUnit (-0.0)) : P := absurd h not_gainsUnit_negative_zero
    exact ⟨"0", 0.0, hread, format_negative_zero, parse?_zero, by decide +kernel,
      iff_of_false (by decide) (by simp), fun _ => rfl, hgains, hgains⟩
  | gained n z hgains hsize hunits hnumbers hne hread' hsettled =>
    refine ⟨format y, z, hread, rfl, hread', hsettled, ?_, ?_, fun _ => ⟨hsize, hgains.lt⟩,
      fun _ => ⟨n, hunits, hnumbers⟩⟩
    · refine iff_of_false (fun heq => hne ?_) fun hno => hno.2 hgains
      rw [heq, hread] at hread'
      exact (Option.some.inj hread').symm
    · rintro rfl
      obtain rfl := eq_negative_zero_of_parse? hread
      exact absurd hgains not_gainsUnit_negative_zero

/-- **Texts of numbers settle.** Read and written again, the text of a number is what it was unless
it is a zero with a sign, which is lost, or the number gains a unit; and then the text stays. -/
theorem exists_settles (h : isFinite x) : ∃ again y z, Settles (format x) again y z := by
  obtain ⟨y, hread, hrestated⟩ := exists_restated h
  obtain ⟨again, z, hsettles⟩ := hrestated.settles hread
  exact ⟨again, y, z, hsettles⟩

end Texts

end ChatBot.Number
