import ChatBot.Proofs.Number.Neighbours

/-!
# Scaling to ten places and back

A number that is the nearest to `N` units of the tenth decimal place is multiplied by `10 ^ 10`, the
product is rounded to double precision, and then to a whole number. Where the numbers lie close to
each other that gives `N` again, and where they are far apart it gives a number of units to which
the same number is the nearest. Only in between, where the last place is worth `2 ^ -34`, the
product may be rounded up to the middle between `N` and the next whole number, and one unit is
gained (`Scaled.cases`). A number that has gained a unit does not gain another (`Scaled.gained`).
-/

set_option autoImplicit false

namespace ChatBot.Number

/-- The number `m · 2 ^ e` is the nearest to `n` units of the tenth place, and its product with
`10 ^ 10` is rounded to `b · 2 ^ f`. -/
structure Scaled (n m : Nat) (e : Int) (b : Nat) (f : Int) : Prop where
  number : Canonical m e
  near : Near (n / 10 ^ 10) m e
  product : Canonical b f
  near_product : Near (m * 2 ^ e * 10 ^ 10) b f
  /-- The count of units is a number of double precision. -/
  units : ∃ z g, Canonical z g ∧ (z * 2 ^ g : ℚ) = n

/-- The product is rounded up to the middle between two whole numbers. -/
def Gains (m : Nat) (e : Int) (b : Nat) (f : Int) : Prop :=
  (∃ n : Nat, (b * 2 ^ f : ℚ) = n + 1 / 2) ∧ (m * 2 ^ e * 10 ^ 10 : ℚ) < b * 2 ^ f

section Scaled

variable {n m b : Nat} {e f : Int}

/-- A number in units is no further from whole units than half its own last place, scaled. -/
theorem Scaled.dist_le (h : Scaled n m e b f) :
    |(m * 2 ^ e * 10 ^ 10 : ℚ) - n| ≤ 5000000000 * 2 ^ e := by
  have hdist := h.near.dist_le
  rw [abs_le] at hdist ⊢
  constructor <;> linarith

/-- The product is rounded to no number further away than the count of units. -/
theorem Scaled.nearest (h : Scaled n m e b f) :
    |(m * 2 ^ e * 10 ^ 10 : ℚ) - b * 2 ^ f| ≤ |(m * 2 ^ e * 10 ^ 10 : ℚ) - n| := by
  obtain ⟨z, g, hunits, hvalue⟩ := h.units
  rw [← hvalue]
  exact h.near_product.nearest h.product hunits

/-- What is closer to a whole number than one half is rounded to it. -/
theorem floor_add_half {v : ℚ} (h : |v - n| < 1 / 2) : ⌊v + 1 / 2⌋₊ = n := by
  obtain ⟨hlow, hhigh⟩ := abs_lt.1 h
  have hpos : (0 : ℚ) ≤ n := Nat.cast_nonneg n
  rw [Nat.floor_eq_iff (by linarith)]
  constructor <;> linarith

/-- A product that lies close to the count of units is rounded to it. -/
theorem Scaled.floor_of_close (h : Scaled n m e b f)
    (hclose : |(m * 2 ^ e * 10 ^ 10 : ℚ) - n| < 1 / 4) : ⌊(b * 2 ^ f : ℚ) + 1 / 2⌋₊ = n := by
  have hnearest := h.nearest.trans_lt hclose
  rw [abs_lt] at hclose hnearest
  refine floor_add_half (abs_lt.2 ?_)
  constructor <;> linarith

/-- Rounded to a whole number, a whole product stays as it is. -/
theorem floor_of_whole {f : Int} (b : Nat) (hf : 0 ≤ f) :
    (⌊(b * 2 ^ f : ℚ) + 1 / 2⌋₊ : ℚ) = b * 2 ^ f := by
  obtain ⟨k, rfl⟩ : ∃ k : Nat, f = k := ⟨f.toNat, by omega⟩
  have hvalue : (b * 2 ^ (k : Int) : ℚ) = (b * 2 ^ k : Nat) := by
    rw [zpow_natCast]
    push_cast
    rfl
  rw [hvalue, floor_add_half]
  rw [sub_self, abs_zero]
  norm_num

/-- A whole number is at least one half away from the middle between two others. -/
theorem half_le_dist (a n : Nat) : (1 / 2 : ℚ) ≤ |(a : ℚ) - (n + 1 / 2)| := by
  obtain hle | hlt := le_or_gt a n
  · have hle' : (a : ℚ) ≤ n := by exact_mod_cast hle
    rw [abs_of_nonpos] <;> linarith
  · have hlt' : (n + 1 : ℚ) ≤ a := by exact_mod_cast hlt
    rw [abs_of_nonneg] <;> linarith

/-- What is half a unit off has a last place below the point. -/
theorem place_neg_of_half (hhalf : (b * 2 ^ f : ℚ) = n + 1 / 2) : f < 0 := by
  refine Int.not_le.1 fun hf => ?_
  obtain ⟨k, rfl⟩ : ∃ k : Nat, f = k := ⟨f.toNat, by omega⟩
  have hdist := half_le_dist (b * 2 ^ k) n
  rw [zpow_natCast] at hhalf
  push_cast at hdist
  rw [hhalf, sub_self, abs_zero] at hdist
  norm_num at hdist

/-- A product that is less than half a unit away from the count of units is not rounded to it if it
is rounded up to half a unit. -/
theorem not_gains_of_floor (hclose : |(m * 2 ^ e * 10 ^ 10 : ℚ) - n| < 1 / 2)
    (hfloor : ⌊(b * 2 ^ f : ℚ) + 1 / 2⌋₊ = n) : ¬ Gains m e b f := by
  rintro ⟨⟨k, hk⟩, hup⟩
  have hsucc : (k : ℚ) + 1 / 2 + 1 / 2 = (k + 1 : Nat) := by
    push_cast
    ring
  rw [hk, hsucc, Nat.floor_natCast] at hfloor
  rw [hk] at hup
  rw [← hfloor, abs_lt] at hclose
  push_cast at hclose
  linarith

/-- The product has its last place at least thirty-three bits higher than the number. -/
theorem Scaled.place_le (h : Scaled n m e b f) (he : e ≠ -1074) : e + 33 ≤ f := by
  refine Int.not_lt.1 fun hf => ?_
  have hhigh := h.near_product.high
  have hplace : (2 : ℚ) ^ f ≤ 2 ^ e * 2 ^ 32 := by
    rw [← zpow_natCast, ← zpow_add₀ two_ne_zero]
    exact two_zpow_le (by push_cast; omega)
  have hpos := two_zpow_pos e
  have hfull : (2 : ℚ) ^ 52 * 2 ^ e ≤ m * 2 ^ e :=
    mul_le_mul_of_nonneg_right (h.number.le_cast he) hpos.le
  have hb : (b + 1 / 2 : ℚ) ≤ 2 ^ 53 := by
    have := h.product.cast_le
    linarith
  have hup : (b + 1 / 2 : ℚ) * 2 ^ f ≤ 2 ^ 53 * (2 ^ e * 2 ^ 32) :=
    mul_le_mul hb hplace (two_zpow_pos f).le (by positivity)
  linarith

/-! ## Three ranges -/

/-- Where the last place is small, the product lies close to the count of units. -/
theorem Scaled.close_of_fine (h : Scaled n m e b f) (he : e ≤ -35) :
    |(m * 2 ^ e * 10 ^ 10 : ℚ) - n| < 1 / 4 := by
  have hplace := two_zpow_le he
  refine h.dist_le.trans_lt ?_
  norm_num at hplace ⊢
  linarith

/-- Where the last place is large, the number is the nearest to the whole product, too. -/
theorem Scaled.near_of_coarse (h : Scaled n m e b f) (he : -33 ≤ e) :
    Near (b * 2 ^ f / 10 ^ 10) m e := by
  by_cases hm : m = 2 ^ 52
  · -- the product of a power of two is exact
    have hproduct : (m * 2 ^ e * 10 ^ 10 : ℚ) = (5242880000000000 : Nat) * 2 ^ (e + 33) := by
      rw [hm, zpow_add₀ two_ne_zero]
      norm_num
      ring
    have hcanonical : Canonical 5242880000000000 (e + 33) :=
      ⟨by norm_num, by norm_num, by omega, .inl (by norm_num)⟩
    obtain ⟨rfl, rfl⟩ := (hproduct ▸ h.near_product).unique
      (near_self 5242880000000000 (e + 33)) h.product hcanonical
    rw [← hproduct, mul_div_cancel_right₀ _ (by norm_num)]
    exact near_self m e
  · refine h.near.of_dist_le hm ?_
    have hnearest := h.nearest
    have hdiv (v : ℚ) : v / 10 ^ 10 - m * 2 ^ e = (v - m * 2 ^ e * 10 ^ 10) / 10 ^ 10 := by ring
    rw [hdiv, hdiv, abs_div, abs_div, abs_sub_comm, abs_sub_comm (n : ℚ)]
    exact div_le_div_of_nonneg_right hnearest (abs_nonneg _)

/-- In between, the product is the count of units, or half a unit off. -/
theorem Scaled.of_between (h : Scaled n m (-34) b f) :
    (⌊(b * 2 ^ f : ℚ) + 1 / 2⌋₊ = n) ∨ (b * 2 ^ f : ℚ) = n + 1 / 2 ∧ Gains m (-34) b f := by
  have hplace := h.place_le (by omega)
  have hdist := h.dist_le
  have hnearest := h.nearest.trans hdist
  -- the product counts whole and half units
  obtain ⟨k, rfl⟩ : ∃ k : Nat, f = k - 1 := ⟨(f + 1).toNat, by omega⟩
  have hhalves : (b * 2 ^ ((k : Int) - 1) : ℚ) = (b * 2 ^ k : Nat) / 2 := by
    rw [zpow_sub_one₀ two_ne_zero, zpow_natCast]
    push_cast
    ring
  unfold Gains
  rw [hhalves] at hnearest ⊢
  generalize b * 2 ^ k = halves at hnearest ⊢
  generalize (m * 2 ^ (-34 : Int) * 10 ^ 10 : ℚ) = v at hdist hnearest ⊢
  norm_num at hdist hnearest
  rw [abs_le] at hdist hnearest
  have hlow : 2 * (n : Int) - 2 < halves := by
    have : (2 * n - 2 : ℚ) < halves := by linarith
    exact_mod_cast this
  have hhigh : (halves : Int) < 2 * n + 2 := by
    have : (halves : ℚ) < 2 * n + 2 := by linarith
    exact_mod_cast this
  obtain hbelow | hmid | habove : halves + 1 = 2 * n ∨ halves = 2 * n ∨ halves = 2 * n + 1 := by
    omega
  · have hcast : (halves + 1 : ℚ) = 2 * n := by exact_mod_cast hbelow
    have hwhole : (halves / 2 + 1 / 2 : ℚ) = n := by linarith
    rw [hwhole]
    exact .inl (Nat.floor_natCast n)
  · have hcast : (halves : ℚ) = 2 * n := by exact_mod_cast hmid
    have hwhole : (halves / 2 : ℚ) = n := by linarith
    rw [hwhole]
    exact .inl (floor_add_half (by norm_num))
  · have hcast : (halves : ℚ) = 2 * n + 1 := by exact_mod_cast habove
    have hhalf : (halves / 2 : ℚ) = n + 1 / 2 := by linarith
    rw [hhalf]
    exact .inr ⟨rfl, ⟨n, rfl⟩, by linarith⟩

/-- **A unit is gained in between only**, and wherever none is gained the number is the nearest to
the new count of units. -/
theorem Scaled.cases (h : Scaled n m e b f) :
    (e = -34 ∧ Gains m e b f ∧ (b * 2 ^ f : ℚ) = n + 1 / 2) ∨
      (¬ Gains m e b f ∧ Near (⌊(b * 2 ^ f : ℚ) + 1 / 2⌋₊ / 10 ^ 10) m e) := by
  obtain hfine | rfl | hcoarse := lt_trichotomy e (-34)
  · have hclose := h.close_of_fine (by omega)
    have hfloor := h.floor_of_close hclose
    exact .inr ⟨not_gains_of_floor (hclose.trans (by norm_num)) hfloor, hfloor ▸ h.near⟩
  · obtain hfloor | ⟨hhalf, hgains⟩ := h.of_between
    · have hclose : |(m * 2 ^ (-34 : Int) * 10 ^ 10 : ℚ) - n| < 1 / 2 :=
        h.dist_le.trans_lt (by norm_num)
      exact .inr ⟨not_gains_of_floor hclose hfloor, hfloor ▸ h.near⟩
    · exact .inl ⟨rfl, hgains, hhalf⟩
  · have hplace := h.place_le (by omega)
    refine .inr ⟨fun ⟨⟨n, hhalf⟩, _⟩ => ?_, ?_⟩
    · have := place_neg_of_half hhalf
      omega
    rw [floor_of_whole b (by omega)]
    exact h.near_of_coarse (by omega)

/-- **A number that has gained a unit gains no other**, and it is another number than before. -/
theorem Scaled.gained {m' b' : Nat} {e' f' : Int} (h : Scaled n m (-34) b f)
    (hhalf : (b * 2 ^ f : ℚ) = n + 1 / 2) (h' : Scaled (n + 1) m' e' b' f') :
    ⌊(b' * 2 ^ f' : ℚ) + 1 / 2⌋₊ = n + 1 ∧ (m' * 2 ^ e' : ℚ) ≠ m * 2 ^ (-34 : Int) := by
  have hplace := h.place_le (by omega)
  have hdist := h.dist_le
  obtain rfl : f = -1 := by
    have := place_neg_of_half hhalf
    omega
  have hproduct := h.near_product.dist_le
  have hb := h.product.cast_le
  rw [hhalf] at hproduct
  rw [abs_le] at hdist hproduct
  norm_num at hdist hproduct hhalf
  -- the next number is nearer to the next count of units than a quarter of a unit
  have hm : (m : ℚ) + 1 < 2 ^ 53 := by
    norm_num
    linarith
  have hnext : Canonical (m + 1) (-34) :=
    ⟨by omega, by exact_mod_cast hm, by omega,
      .inl (Nat.le_succ_of_le (h.number.full.resolve_right (by omega)))⟩
  have hnextclose : |((n + 1 : Nat) / 10 ^ 10 : ℚ) - (m + 1 : Nat) * 2 ^ (-34 : Int)| ≤
      1 / 5 / 10 ^ 10 := by
    rw [abs_le]
    push_cast
    norm_num
    constructor <;> linarith
  have hclose : |(m' * 2 ^ e' * 10 ^ 10 : ℚ) - (n + 1 : Nat)| < 1 / 4 := by
    have hnearest := (h'.near.nearest h'.number hnext).trans hnextclose
    rw [abs_le] at hnearest
    rw [abs_lt]
    constructor <;> linarith
  refine ⟨h'.floor_of_close hclose, fun heq => ?_⟩
  rw [heq, abs_lt] at hclose
  push_cast at hclose
  norm_num at hclose
  linarith

end Scaled

end ChatBot.Number
