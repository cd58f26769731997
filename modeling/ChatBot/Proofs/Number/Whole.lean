import ChatBot.Proofs.Number.Writing

/-!
# Whole numbers are added without loss

A whole number of up to fifty-three bits has a place of its own in double precision, so that sums of
such numbers are not rounded unless they are larger. Up to fifteen digits they are also written in
full and read back as they were. So a number of up to fifteen digits that a whole number is added to
and taken away from again is written as it was before. Main statement:
`format_add_sub_of_wholeSum`.
-/

set_option autoImplicit false

namespace ChatBot.Number

open Float.Model Float.Model.UnpackedFloat

/-- The number is the whole number `n`, in full precision unless it is zero. -/
def Whole (n : Int) : UnpackedFloat → Prop
  | .zero _ => n = 0
  | .finite s m e _ => e ≤ 0 ∧ 2 ^ 52 ≤ m ∧ m < 2 ^ 53 ∧ s.apply m = n * 2 ^ (-e).toNat
  | .infinity _ => False
  | .notANumber => False

/-! ## Rounding a whole number -/

/-- Shifting to the right what was shifted to the left loses nothing. -/
theorem ofMantissa_shiftRight (a k : Nat) :
    ExtendedMantissa.ofMantissaAndAccuracy (a * 2 ^ k) .exact >>> k = ⟨a, false, false⟩ := by
  change k.repeat ExtendedMantissa.shiftRightOne _ = _
  induction k generalizing a with
  | zero => simp [Nat.repeat, ExtendedMantissa.ofMantissaAndAccuracy]
  | succ k ih =>
    have hshift : a * 2 ^ (k + 1) = a * 2 * 2 ^ k := by rw [Nat.pow_succ', Nat.mul_assoc]
    rw [hshift, Nat.repeat, ih]
    simp [ExtendedMantissa.shiftRightOne]

/-- A shifted number has so many more bits. -/
theorem log2_mul_two_pow {a : Nat} (ha : 0 < a) (k : Nat) : (a * 2 ^ k).log2 = a.log2 + k := by
  have hpos : a * 2 ^ k ≠ 0 := Nat.ne_of_gt (Nat.mul_pos ha (Nat.two_pow_pos k))
  rw [Nat.log2_eq_iff hpos, Nat.add_right_comm, Nat.pow_add, Nat.pow_add]
  exact ⟨Nat.mul_le_mul_right _ (Nat.log2_self_le (Nat.ne_of_gt ha)),
    Nat.mul_lt_mul_of_pos_right Nat.lt_log2_self (Nat.two_pow_pos k)⟩

/-- The place of the last bit of a whole number in full precision. -/
def lastPlace (a : Nat) : Nat :=
  52 - a.log2

variable {a : Nat}

/-- A number below `2 ^ 53` has at most fifty-three bits. -/
theorem log2_le_of_lt (ha : a < 2 ^ 53) : a.log2 ≤ 52 := by
  have := log2_lt_of_lt (by omega) ha
  omega

/-- The last place of a whole number in full precision does not depend on how it is given. -/
theorem targetExponent_whole (ha : 0 < a) (ha' : a < 2 ^ 53) (k : Nat) :
    Format.binary64.targetExponent (totalExponent (a * 2 ^ k) (-k)) = -lastPlace a := by
  have hlog := log2_le_of_lt ha'
  rw [targetExponent_binary64, totalExponent, log2_mul_two_pow ha, lastPlace]
  omega

/-- Shifted to its last place, a whole number has all bits of a mantissa. -/
theorem lastPlace_bounds (ha : 0 < a) (ha' : a < 2 ^ 53) :
    2 ^ 52 ≤ a * 2 ^ lastPlace a ∧ a * 2 ^ lastPlace a < 2 ^ 53 :=
  significand_bounds (Nat.ne_of_gt ha) ha'

/-- Shifting a whole number to its last place loses nothing. -/
theorem shiftToTarget_whole (ha : 0 < a) (ha' : a < 2 ^ 53) {k : Nat} (hk : lastPlace a ≤ k) :
    shiftToTargetExponent .binary64 (a * 2 ^ k) (-k) .exact =
      (⟨a * 2 ^ lastPlace a, false, false⟩, -(lastPlace a : Int)) := by
  have hshift : (-(lastPlace a : Int) - -k).toNat = k - lastPlace a := by omega
  have hsplit : a * 2 ^ k = a * 2 ^ lastPlace a * 2 ^ (k - lastPlace a) := by
    rw [Nat.mul_assoc, ← Nat.pow_add, Nat.add_sub_cancel' hk]
  simp only [shiftToTargetExponent, shiftToExponent, targetExponent_whole ha ha', hshift]
  rw [hsplit, ofMantissa_shiftRight]
  congr 1
  omega

/-- A whole number of fifty-three bits keeps its value when it is rounded. -/
theorem whole_roundWithAccuracy (ha : 0 < a) (ha' : a < 2 ^ 53) {k : Nat} (hk : lastPlace a ≤ k)
    (s : Sign) : Whole (s.apply a) (roundWithAccuracy .binary64 s (a * 2 ^ k) (-k) .exact) := by
  obtain ⟨hlow, hhigh⟩ := lastPlace_bounds ha ha'
  have hfirst := shiftToTarget_whole ha ha' hk
  have hsecond := shiftToTarget_whole ha ha' (Nat.le_refl (lastPlace a))
  have hrounded : ExtendedMantissa.roundedMantissa ⟨a * 2 ^ lastPlace a, false, false⟩ =
      a * 2 ^ lastPlace a := rfl
  simp only [roundWithAccuracy, hfirst, hrounded, hsecond]
  rw [dif_neg (by omega)]
  refine ⟨by omega, hlow, hhigh, ?_⟩
  rw [Int.neg_neg, Int.toNat_natCast]
  cases s <;> simp [Sign.apply]

/-- A whole number that fits is rounded to itself. -/
theorem whole_round (ha : 0 < a) (ha' : a < 2 ^ 53) (k : Nat) (s : Sign) :
    Whole (s.apply a) (UnpackedFloat.round .binary64 s (a * 2 ^ k) (-k)) := by
  have hshift : (-(k : Int) - -lastPlace a).toNat = lastPlace a - k := by omega
  have hexponent : -(k : Int) - ((lastPlace a - k : Nat) : Int) =
      -((k + (lastPlace a - k) : Nat) : Int) := by
    omega
  simp only [UnpackedFloat.round, decreaseExponent, targetExponent_whole ha ha', hshift, hexponent]
  rw [Nat.shiftLeft_eq, Nat.mul_assoc, ← Nat.pow_add]
  exact whole_roundWithAccuracy ha ha' (by omega) s

/-- A whole number of fifty-three bits keeps its value when it is normalised. -/
theorem whole_normalize {n : Int} (hn : n.natAbs < 2 ^ 53) (k : Nat) (z : Sign) :
    Whole n (UnpackedFloat.normalize .binary64 (n * 2 ^ k) (-k) z) := by
  have hpow : (0 : Int) < 2 ^ k := by positivity
  have hcast (a : Nat) : ((a : Int) * 2 ^ k).toNat = a * 2 ^ k := by
    rw [← Int.toNat_natCast (a * 2 ^ k)]
    push_cast
    rfl
  unfold UnpackedFloat.normalize
  split
  · have hneg : n < 0 := by
      have := Int.compare_eq_lt.1 ‹_›
      exact neg_of_mul_neg_left this hpow.le
    obtain ⟨a, rfl⟩ : ∃ a : Nat, n = -a := ⟨n.natAbs, by omega⟩
    rw [Int.neg_mul, Int.neg_neg, hcast]
    exact whole_round (by omega) (by omega) k .negative
  · have := Int.compare_eq_eq.1 ‹_›
    exact (mul_eq_zero.1 this).resolve_right hpow.ne'
  · have hpos : 0 < n := by
      have := Int.compare_eq_gt.1 ‹_›
      exact pos_of_mul_pos_left this hpow.le
    obtain ⟨a, rfl⟩ : ∃ a : Nat, n = a := ⟨n.natAbs, by omega⟩
    rw [hcast]
    exact whole_round (by omega) (by omega) k .positive

/-! ## Sums -/

section Sums

variable {n n' : Int} {u v : UnpackedFloat}

/-- The size of a whole number other than zero, and its last place. -/
theorem Whole.exists_size {s : Sign} {m : Nat} {e : Int} {hm : 0 < m}
    (h : Whole n (.finite s m e hm)) :
    ∃ a k : Nat, 0 < a ∧ a < 2 ^ 53 ∧ n = s.apply a ∧ m = a * 2 ^ k ∧ e = -k ∧ k ≤ 52 := by
  obtain ⟨he, hlow, hhigh, hvalue⟩ := h
  obtain ⟨k, rfl⟩ : ∃ k : Nat, e = -k := ⟨(-e).toNat, by omega⟩
  rw [Int.neg_neg, Int.toNat_natCast] at hvalue
  have hsize : m = n.natAbs * 2 ^ k := by
    have := congrArg Int.natAbs hvalue
    rw [Int.natAbs_mul, Int.natAbs_pow] at this
    cases s <;> simpa [Sign.apply] using this
  have hpos : 0 < n.natAbs := Nat.pos_of_mul_pos_right (hsize ▸ hm)
  have hpow : 0 < 2 ^ k := Nat.two_pow_pos k
  refine ⟨n.natAbs, k, hpos, ?_, ?_, hsize, rfl, ?_⟩
  · exact Nat.lt_of_le_of_lt (Nat.le_mul_of_pos_right _ hpow) (hsize ▸ hhigh)
  · have hpow' : (0 : Int) < 2 ^ k := by positivity
    cases s with
    | positive =>
      have : 0 < n := pos_of_mul_pos_left (hvalue ▸ Int.natCast_pos.2 hm) hpow'.le
      simp [Sign.apply, abs_of_pos this]
    | negative =>
      have hneg : -(m : Int) < 0 := Int.neg_neg_of_pos (Int.natCast_pos.2 hm)
      have : n < 0 := neg_of_mul_neg_left (hvalue ▸ hneg) hpow'.le
      simp [Sign.apply, abs_of_neg this]
  · have hlt : 2 ^ k < 2 ^ 53 :=
      Nat.lt_of_le_of_lt (Nat.le_mul_of_pos_left _ hpos) (hsize ▸ hhigh)
    have := (Nat.pow_lt_pow_iff_right (by omega)).1 hlt
    omega

/-- The other sign gives the negative number. -/
theorem apply_neg (s : Sign) (m : Int) : (-s).apply m = -s.apply m := by
  cases s <;> simp [Sign.apply]

/-- The negative of a whole number is the whole number with the other sign. -/
theorem Whole.neg (h : Whole n u) : Whole (-n) u.neg := by
  match u, h with
  | .zero s, h => exact Int.neg_eq_zero.2 h
  | .finite s m e hm, ⟨he, hlow, hhigh, hvalue⟩ =>
    exact ⟨he, hlow, hhigh, by rw [apply_neg, hvalue, Int.neg_mul]⟩

/-- With its last place moved down, a whole number keeps its value. -/
theorem Whole.apply_shiftLeft {s : Sign} {m k : Nat} {e : Int} {hm : 0 < m}
    (h : Whole n (.finite s m e hm)) (hk : -k ≤ e) :
    s.apply ((m <<< (e - -(k : Int)).toNat : Nat) : Int) = n * 2 ^ k := by
  obtain ⟨he, -, -, hvalue⟩ := h
  have hsplit : (2 : Int) ^ k = 2 ^ (-e).toNat * 2 ^ (e - -(k : Int)).toNat := by
    rw [← pow_add]
    congr 1
    omega
  rw [hsplit, ← Int.mul_assoc, ← hvalue, Nat.shiftLeft_eq]
  cases s <;> simp [Sign.apply]

/-- The sum of whole numbers is exact as long as it fits. -/
theorem Whole.add (hu : Whole n u) (hv : Whole n' v) (h : (n + n').natAbs < 2 ^ 53) :
    Whole (n + n') (UnpackedFloat.add .binary64 u v) := by
  match u, v, hu, hv with
  | .zero s, .zero s', hu, hv =>
    change n = 0 at hu
    change n' = 0 at hv
    simp only [UnpackedFloat.add]
    split <;> simp [Whole, hu, hv]
  | .zero s, .finite s' m' e' hm', hu, hv =>
    change n = 0 at hu
    rwa [hu, Int.zero_add]
  | .finite s m e hm, .zero s', hu, hv =>
    change n' = 0 at hv
    rwa [hv, Int.add_zero]
  | .finite s m e hm, .finite s' m' e' hm', hu, hv =>
    -- both numbers are taken to the lower of their last places
    obtain ⟨k, hk⟩ : ∃ k : Nat, min e e' = -k := ⟨(-min e e').toNat, by
      have := hu.1
      have := hv.1
      omega⟩
    have hvalue := hu.apply_shiftLeft (k := k) (by omega)
    have hvalue' := hv.apply_shiftLeft (k := k) (by omega)
    simp only [UnpackedFloat.add, decreaseExponent, hk, hvalue, hvalue', ← Int.add_mul]
    exact whole_normalize h k .positive

/-- Subtracting is adding the negative. -/
theorem sub_eq_add_neg (u v : UnpackedFloat) :
    UnpackedFloat.sub .binary64 u v = UnpackedFloat.add .binary64 u v.neg := by
  match u, v with
  | .finite s m e hm, .finite s' m' e' hm' =>
    simp only [UnpackedFloat.sub, UnpackedFloat.add, UnpackedFloat.neg, apply_neg,
      ← Int.sub_eq_add_neg]
  | .notANumber, _ => rfl
  | .infinity s, .notANumber | .zero s, .notANumber | .finite s m e hm, .notANumber => rfl
  | .infinity s, .infinity s' | .infinity s, .zero s' | .infinity s, .finite s' m' e' hm' => rfl
  | .zero s, .infinity s' | .zero s, .zero s' | .zero s, .finite s' m' e' hm' => rfl
  | .finite s m e hm, .infinity s' | .finite s m e hm, .zero s' => rfl

/-- The difference of whole numbers is exact as long as it fits. -/
theorem Whole.sub (hu : Whole n u) (hv : Whole n' v) (h : (n - n').natAbs < 2 ^ 53) :
    Whole (n - n') (UnpackedFloat.sub .binary64 u v) := by
  rw [sub_eq_add_neg]
  exact hu.add hv.neg h

/-- A whole number is not changed by multiplying it by one. -/
theorem Whole.mul_one (h : Whole n u) :
    Whole n (UnpackedFloat.mul .binary64 u (.finite .positive (2 ^ 52) (-52) (by decide))) := by
  match u, h with
  | .zero s, h => exact h
  | .finite s m e hm, h =>
    obtain ⟨a, k, ha, ha', rfl, rfl, rfl, -⟩ := h.exists_size
    have hlast : lastPlace a ≤ k + 52 := Nat.le_trans (Nat.sub_le _ _) (Nat.le_add_left _ _)
    have hsign : s * .positive = s := by cases s <;> rfl
    have hexponent : -(k : Int) + -52 = -((k + 52 : Nat) : Int) := by omega
    simp only [UnpackedFloat.mul, hsign, hexponent, Nat.mul_assoc, ← pow_add]
    generalize k + 52 = j at hlast ⊢
    exact whole_roundWithAccuracy ha ha' hlast s

end Sums

/-! ## Packing -/

/-- Packing keeps a whole number as it is. -/
theorem Whole.unpack_pack {n : Int} {u : UnpackedFloat} (h : Whole n u) :
    UnpackedFloat.unpack .binary64 (UnpackedFloat.pack .binary64 u) = u := by
  match u, h with
  | .zero s, h => exact unpack_packedZero
  | .finite s m e hm, h =>
    obtain ⟨he, hlow, hhigh, -⟩ := id h
    obtain ⟨-, k, -, -, -, -, rfl, hk⟩ := h.exists_size
    exact Canonical.unpack_pack ⟨hm, hhigh, by omega, .inl hlow⟩ (by omega) s

/-! ## Whole numbers in double precision -/

/-- The number is the whole number `n`. -/
def Denotes (x : Float) (n : Int) : Prop :=
  Whole n x.toModel.unpack

section Denotes

variable {x y : Float} {n n' : Int}

/-- A whole number denotes itself when it is packed. -/
theorem denotes_pack {u : UnpackedFloat} (h : Whole n u) : Denotes (.ofModel (.pack u)) n := by
  unfold Denotes
  change Whole n (UnpackedFloat.unpack .binary64 (UnpackedFloat.pack .binary64 u))
  rwa [h.unpack_pack]

/-- The negative of a number denotes the negative whole number. -/
theorem Denotes.neg (h : Denotes x n) : Denotes (-x) (-n) :=
  denotes_pack (Whole.neg h)

/-- The sum of numbers that denote whole ones denotes their sum, as long as it fits. -/
theorem Denotes.add (hx : Denotes x n) (hy : Denotes y n') (h : (n + n').natAbs < 2 ^ 53) :
    Denotes (x + y) (n + n') :=
  denotes_pack (Whole.add hx hy h)

/-- The difference of numbers that denote whole ones denotes their difference, as long
as it fits. -/
theorem Denotes.sub (hx : Denotes x n) (hy : Denotes y n') (h : (n - n').natAbs < 2 ^ 53) :
    Denotes (x - y) (n - n') :=
  denotes_pack (Whole.sub hx hy h)

/-- A product with one, as reading a number without an exponent makes it. -/
theorem Denotes.mul_one (hx : Denotes x n) : Denotes (x * 1.0) n := by
  have hone : (1.0 : Float).toModel.unpack = .finite .positive (2 ^ 52) (-52) (by decide) := by
    with_unfolding_all rfl
  have hwhole := Whole.mul_one hx
  rw [← hone] at hwhole
  exact denotes_pack hwhole

/-- A word that fits is converted exactly. -/
theorem denotes_toFloat {d : Nat} (hd : d < 2 ^ 53) : Denotes d.toUInt64.toFloat d := by
  have hword : d.toUInt64.toNat = d := Nat.mod_eq_of_lt (by omega)
  have hwhole : Whole d (UnpackedFloat.ofUInt64 .binary64 d.toUInt64) := by
    have := whole_normalize (n := d) (by omega) 0 .positive
    rw [pow_zero, Int.mul_one] at this
    rwa [UnpackedFloat.ofUInt64, hword]
  exact denotes_pack hwhole

/-- A literal that fits is converted exactly. -/
theorem denotes_ofNat {d : Nat} (hd : d < 2 ^ 53) : Denotes (Float.ofScientific d false 0) d := by
  rw [Float.ofScientific, dif_pos ⟨hd, by omega⟩]
  exact (denotes_toFloat hd).mul_one

/-- The digits of a whole number are read without loss. -/
theorem denotes_ofDecimal {d : Nat} (hd : d < 2 ^ 53) : Denotes (ofDecimal d 0) d := by
  unfold ofDecimal
  split
  · rename_i hzero
    rw [beq_iff_eq] at hzero
    exact congrArg Nat.cast hzero
  · rename_i hzero
    have hlength : (Nat.toDigits 10 d).length ≤ 16 :=
      (Nat.length_toDigits_le_iff (by omega) (by omega)).2 (by omega)
    dsimp only [Int.ofNat_eq_natCast]
    rw [if_neg (by omega), if_neg (by omega), if_neg (by omega)]
    exact denotes_ofNat hd

/-! ### The parts of a whole number -/

/-- The sign of a number is its highest bit. -/
theorem toNat_unpackSign (b : BitVec Format.binary64.numBits) :
    (unpackSign b).toNat = b.toNat / 2 ^ 63 := by
  have hlt : b.toNat < 2 ^ 64 := b.isLt
  have hbit : (unpackSign b).toNat = b.toNat / 2 ^ 63 % 2 := by
    simp [unpackSign, Nat.shiftRight_eq_div_pow]
  omega

/-- A number is negative if its highest bit is set. -/
theorem isNegative_eq (b : BitVec Format.binary64.numBits) :
    (b.toNat / 2 ^ 63 == 1) = (Sign.ofBitVec (unpackSign b) == .negative) := by
  rw [← toNat_unpackSign, Sign.ofBitVec]
  generalize unpackSign b = c
  revert c
  decide

/-- The parts of a finite number are the ones that arithmetic works on. -/
theorem ofFloat_of_finite {s : Sign} {m : Nat} {e : Int} {hm : 0 < m}
    (h : x.toModel.unpack = .finite s m e hm) :
    Binary.ofFloat x = .finite (s == .negative) m e := by
  have hread := reads_unpack (bitsOf x)
  change Reads _ _ _ x.toModel.unpack at hread
  rw [h] at hread
  obtain ⟨rfl, hfinite, rfl, rfl⟩ := hread
  rw [ofFloat_eq]
  dsimp only
  rw [if_neg hfinite, isNegative_eq]
  split
  · rename_i hzero
    rw [hzero]
    rfl
  · rename_i hpos
    rw [Nat.max_eq_left (by omega)]

/-- The parts of a zero have no mantissa. -/
theorem ofFloat_of_zero {s : Sign} (h : x.toModel.unpack = .zero s) :
    ∃ k : Nat, Binary.ofFloat x = .finite (s == .negative) 0 (-k) := by
  have hread := reads_unpack (bitsOf x)
  change Reads _ _ _ x.toModel.unpack at hread
  rw [h] at hread
  obtain ⟨rfl, hscale, hfraction⟩ := hread
  refine ⟨1074, ?_⟩
  rw [ofFloat_eq]
  dsimp only
  rw [if_neg (by omega), if_pos hscale, hfraction, isNegative_eq]
  rfl

/-- What is not finite is not whole. -/
theorem not_isWhole_of_not_finite (h : ¬ isFinite x) : ¬ isWhole x := by
  intro hwhole
  unfold isWhole at hwhole
  unfold isFinite at h
  split at hwhole <;> simp_all

/-- The whole part of a number whose parts are those of a whole number. -/
theorem whole_of_ofFloat {negative : Bool} {a k : Nat}
    (h : Binary.ofFloat x = .finite negative (a * 2 ^ k) (-k)) :
    isWhole x ∧ wholePart? x = some (if negative then -Int.ofNat a else Int.ofNat a) := by
  rw [isWhole, wholePart?, h]
  simp only [Int.neg_neg, Int.toNat_natCast, Int.toNat_neg_natCast, Nat.pow_eq, Nat.pow_zero,
    Nat.mul_one, Nat.mul_mod_left, Nat.mul_div_cancel _ (Nat.two_pow_pos k), beq_self_eq_true,
    Bool.or_true, and_self]

/-- A whole number is zero, or in full precision. -/
theorem Denotes.zero_or_finite (h : Denotes x n) :
    (∃ s, x.toModel.unpack = .zero s ∧ n = 0) ∨
      ∃ (s : Sign) (a k : Nat) (hm : 0 < a * 2 ^ k),
        x.toModel.unpack = .finite s (a * 2 ^ k) (-k) hm ∧ n = s.apply a ∧
          2 ^ 52 ≤ a * 2 ^ k := by
  unfold Denotes at h
  cases hparts : x.toModel.unpack with
  | zero s => exact .inl ⟨s, rfl, (hparts ▸ h : Whole n (.zero s))⟩
  | finite s m e hm =>
    rw [hparts] at h
    obtain ⟨-, hlow, -, -⟩ := id h
    obtain ⟨a, k, -, -, rfl, rfl, rfl, -⟩ := h.exists_size
    exact .inr ⟨s, a, k, hm, rfl, rfl, hlow⟩
  | infinity s => exact (hparts ▸ h : Whole n (.infinity s)).elim
  | notANumber => exact (hparts ▸ h : Whole n .notANumber).elim

/-- A number that denotes a whole one is whole, and this is its whole part. -/
theorem Denotes.parts (h : Denotes x n) : isWhole x ∧ wholePart? x = some n := by
  obtain ⟨s, hparts, rfl⟩ | ⟨s, a, k, hm, hparts, rfl, -⟩ := h.zero_or_finite
  · obtain ⟨k, hk⟩ := ofFloat_of_zero hparts
    simpa using whole_of_ofFloat (a := 0) (k := k) (by rw [hk, Nat.zero_mul])
  · have hwhole := whole_of_ofFloat (ofFloat_of_finite hparts)
    cases s <;> exact hwhole

/-- The last place of a number is no higher than one if its whole part is of fifty-three bits. -/
theorem exponent_nonpos {m : Nat} {e : Int} (hlow : 2 ^ 52 ≤ m ∨ e = -1074)
    (h : m * 2 ^ e.toNat / 2 ^ (-e).toNat < 2 ^ 53) : e ≤ 0 := by
  refine Int.not_lt.1 fun hpos => ?_
  have hzero : (-e).toNat = 0 := by omega
  have hpow : 2 ^ 1 ≤ 2 ^ e.toNat := Nat.pow_le_pow_right (by omega) (by omega)
  have hlarge : 2 ^ 52 * 2 ^ 1 ≤ m * 2 ^ e.toNat := Nat.mul_le_mul (by omega) hpow
  rw [hzero, Nat.pow_zero, Nat.div_one] at h
  omega

/-- A mantissa that is a multiple of its unit is in full precision. -/
theorem full_of_dvd {a k : Nat} (hpos : 0 < a * 2 ^ k) (hhigh : a * 2 ^ k < 2 ^ 53)
    (hlow : 2 ^ 52 ≤ a * 2 ^ k ∨ -(k : Int) = -1074) : 2 ^ 52 ≤ a * 2 ^ k := by
  refine hlow.resolve_right fun hk => ?_
  have hpow : 2 ^ 53 ≤ 2 ^ k := Nat.pow_le_pow_right (by omega) (by omega)
  have := Nat.le_mul_of_pos_left (2 ^ k) (Nat.pos_of_mul_pos_right hpos)
  omega

/-- A number without a fraction is the whole number that its whole part is. -/
theorem denotes_of_isWhole (hwhole : isWhole x) (hpart : wholePart? x = some n)
    (hn : n.natAbs < 2 ^ 53) : Denotes x n := by
  have hfinite : Within 971 x.toModel.unpack :=
    (isFinite_iff x).1 (not_not.1 fun h => not_isWhole_of_not_finite h hwhole)
  unfold Denotes
  cases hparts : x.toModel.unpack with
  | zero s =>
    obtain ⟨k, hk⟩ := ofFloat_of_zero hparts
    have hzero := (whole_of_ofFloat (a := 0) (k := k) (by rw [hk, Nat.zero_mul])).2
    rw [hpart] at hzero
    change n = 0
    simpa using hzero
  | finite s m e hm =>
    obtain ⟨-, hhigh, -, hlow⟩ := canonical_unpack hparts
    rw [wholePart?, ofFloat_of_finite hparts] at hpart
    rw [isWhole, ofFloat_of_finite hparts] at hwhole
    simp only [Nat.pow_eq, Option.some.injEq] at hpart hwhole
    have hsize : m * 2 ^ e.toNat / 2 ^ (-e).toNat < 2 ^ 53 := by
      generalize m * 2 ^ e.toNat / 2 ^ (-e).toNat = size at hpart ⊢
      cases s <;> simp at hpart <;> omega
    have hexponent := exponent_nonpos hlow hsize
    obtain ⟨k, rfl⟩ : ∃ k : Nat, e = -k := ⟨(-e).toNat, by omega⟩
    simp only [Int.neg_neg, Int.toNat_natCast, Int.toNat_neg_natCast, Nat.pow_zero, Nat.mul_one]
      at hpart hwhole
    have hdvd : 2 ^ k ∣ m := by
      rw [Bool.or_eq_true, beq_iff_eq, decide_eq_true_eq] at hwhole
      obtain hk | hmod := hwhole
      · obtain rfl : k = 0 := by omega
        exact Nat.one_dvd m
      · exact Nat.dvd_of_mod_eq_zero hmod
    obtain ⟨a, rfl⟩ := exists_eq_mul_left_of_dvd hdvd
    rw [Nat.mul_div_cancel _ (Nat.two_pow_pos k)] at hpart
    refine ⟨by omega, full_of_dvd hm hhigh hlow, hhigh, ?_⟩
    rw [← hpart, Int.neg_neg, Int.toNat_natCast]
    cases s <;> simp [Sign.apply]
  | infinity s => exact (hparts ▸ hfinite : Within 971 (.infinity s)).elim
  | notANumber => exact (hparts ▸ hfinite : Within 971 .notANumber).elim

/-! ### Whole numbers as text -/

/-- A number that denotes a whole one is finite. -/
theorem Denotes.isFinite (h : Denotes x n) : isFinite x :=
  not_not.1 fun hfinite => not_isWhole_of_not_finite hfinite h.parts.1

/-- A text without blanks that is read as a whole number is parsed as one. -/
theorem parse?_of_readFloat? {cs : List Char} (hblank : ∀ c ∈ cs, Text.isBlank c = false)
    (hread : readFloat? (String.ofList cs) = some x) (h : Denotes x n) :
    ∃ x, parse? (String.ofList cs) = some x ∧ Denotes x n := by
  refine ⟨x, ?_, h⟩
  rw [parse?, trim_of_no_blank hblank, hread]
  exact Option.filter_some_pos h.isFinite

/-- The text of a whole number is read without loss. -/
theorem exists_parse?_wholeText (hn : n.natAbs < 2 ^ 53) :
    ∃ x, parse? (wholeText n) = some x ∧ Denotes x n := by
  cases n with
  | ofNat d =>
    have hplain := plain_decimalDigits d
    exact parse?_of_readFloat? hplain.not_blank (readFloat?_of_plain hplain).1
      (denotes_ofDecimal hn)
  | negSucc d =>
    have hplain := plain_decimalDigits (d + 1)
    exact parse?_of_readFloat? (List.forall_mem_cons.2 ⟨rfl, hplain.not_blank⟩)
      (readFloat?_of_plain hplain).2 (denotes_ofDecimal hn).neg

/-- A whole number of fifteen digits is below the size from which numbers are written in full. -/
theorem Denotes.lt_fullSize (h : Denotes x n) (hn : n.natAbs < 10 ^ 15) : ¬ x.abs ≥ fullSize := by
  obtain ⟨s, hparts, -⟩ | ⟨s, a, k, hm, hparts, rfl, -⟩ := h.zero_or_finite
  · exact lt_fullSize_of_zero hparts
  · have hsize : a < 10 ^ 15 := by cases s <;> simpa [Sign.apply] using hn
    rw [fullSize_le_iff hparts, shifted_value, not_le]
    exact_mod_cast hsize

/-- A whole number of fifteen digits is written in full. -/
theorem Denotes.format (h : Denotes x n) (hn : n.natAbs < 10 ^ 15) : format x = wholeText n := by
  obtain ⟨hwhole, hpart⟩ := h.parts
  rw [Number.format, if_neg (h.lt_fullSize hn), if_pos hwhole, hpart]

end Denotes

/-! ## Sums of texts -/

/-- A text and an addend are whole numbers, and both the number that the text writes and the sum
have at most fifteen digits. -/
def WholeSum (text : String) (delta : Float) : Prop :=
  ∃ n m : Int, text = wholeText n ∧ isWhole delta ∧ wholePart? delta = some m ∧
    n.natAbs < 10 ^ 15 ∧ (n + m).natAbs < 10 ^ 15

/-- When a whole number is added to a whole number and taken away again, the text of the number is
what it was before. -/
theorem format_add_sub_of_wholeSum {text : String} {current delta : Float}
    (h : WholeSum text delta) (hcurrent : parse? text = some current) :
    format (current + delta - delta) = text := by
  obtain ⟨n, m, rfl, hwhole, hpart, hn, hsum⟩ := h
  obtain ⟨x, hx, hdenotes⟩ := exists_parse?_wholeText (n := n) (by omega)
  obtain rfl : x = current := Option.some.inj (hx.symm.trans hcurrent)
  have hdelta := denotes_of_isWhole hwhole hpart (by omega)
  have hback := (hdenotes.add hdelta (by omega)).sub hdelta (by omega)
  rw [Int.add_sub_cancel] at hback
  exact hback.format hn

end ChatBot.Number
