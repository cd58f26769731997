import ChatBot.Number.Plain
import ChatBot.Proofs.Number.Neighbours
import ChatBot.Proofs.Number.Rounding

/-!
# Numbers and their bits

A number is packed into a sign, a scale of eleven bits and a fraction of fifty-two. Here the three
fields are related to the parts that arithmetic works on (`reads_unpack`). From that follows what
packing keeps of a number, and that a number is finite if and only if its last place is worth at
most `2 ^ 971` (`isFinite_iff`).
-/

set_option autoImplicit false

namespace ChatBot.Number

open Float.Model Float.Model.UnpackedFloat

/-- A number as its fields give it: the scale `2047` is kept for what is not finite, and the scale
`0` for numbers whose mantissa has no bit in front of the fraction. -/
def Reads (s : Sign) (scale fraction : Nat) : UnpackedFloat → Prop
  | .zero s' => s' = s ∧ scale = 0 ∧ fraction = 0
  | .finite s' m e _ => s' = s ∧ scale ≠ 2047 ∧
      m = (if scale = 0 then fraction else 2 ^ 52 + fraction) ∧ e = max scale 1 - 1075
  | .infinity _ => scale = 2047
  | .notANumber => scale = 2047

/-- The fraction of a number stands in its lowest bits. -/
theorem toNat_unpackMantissa (b : BitVec Format.binary64.numBits) :
    (unpackMantissa b).toNat = b.toNat % 2 ^ 52 := by
  simp [unpackMantissa]

/-- The scale of a number stands above its fraction. -/
theorem toNat_unpackExponent (b : BitVec Format.binary64.numBits) :
    (unpackExponent b).toNat = b.toNat / 2 ^ 52 % 2048 := by
  simp [unpackExponent, Nat.shiftRight_eq_div_pow]

/-- Unpacking reads the fields. -/
theorem reads_unpack (b : BitVec Format.binary64.numBits) :
    Reads (Sign.ofBitVec (unpackSign b)) (unpackExponent b).toNat (unpackMantissa b).toNat
      (UnpackedFloat.unpack .binary64 b) := by
  have hones : unpackExponent b = -1#_ ↔ (unpackExponent b).toNat = 2047 := by
    rw [← BitVec.toNat_inj]
    rfl
  have hzeros : unpackExponent b = 0#_ ↔ (unpackExponent b).toNat = 0 := by
    rw [← BitVec.toNat_inj]
    rfl
  have hfraction : unpackMantissa b = 0#_ ↔ (unpackMantissa b).toNat = 0 := by
    rw [← BitVec.toNat_inj]
    rfl
  have himplicit : (1#1 ++ unpackMantissa b).toNat = 2 ^ 52 + (unpackMantissa b).toNat := by
    rw [BitVec.toNat_append, ← Nat.shiftLeft_add_eq_or_of_lt (unpackMantissa b).isLt]
    rfl
  have hbias : ((Format.binary64.exponentBias : Nat) : Int) +
      (Format.binary64.mantissaBitsWithoutImplicit : Nat) = 1075 := rfl
  unfold UnpackedFloat.unpack
  dsimp only
  split
  · split <;> exact hones.1 ‹_›
  · have hscale : (unpackExponent b).toNat ≠ 2047 := mt hones.2 ‹_›
    split
    · have hzero : (unpackExponent b).toNat = 0 := hzeros.1 ‹_›
      split
      · exact ⟨rfl, hzero, hfraction.1 ‹_›⟩
      · exact ⟨rfl, hscale, by rw [if_pos hzero], by rw [hbias]; omega⟩
    · have hpos : (unpackExponent b).toNat ≠ 0 := mt hzeros.2 ‹_›
      exact ⟨rfl, hscale, by rw [if_neg hpos, himplicit], by rw [hbias]; omega⟩

/-! ## What the fields say -/

section Reads

variable {s : Sign} {scale fraction : Nat} {u : UnpackedFloat}

/-- A mantissa that is read off the fields has no more than its bits. -/
theorem Reads.mantissa_lt (h : Reads s scale fraction u) (hfraction : fraction < 2 ^ 52) :
    mantissa u < 2 ^ 53 := by
  match u, h with
  | .finite _ m _ _, ⟨_, _, hm, _⟩ =>
    change m < 2 ^ 53
    rw [hm]
    split <;> omega
  | .zero _, _ | .infinity _, _ | .notANumber, _ => exact Nat.two_pow_pos 53

/-- The last place of a number is worth what the scale says. -/
theorem Reads.within_iff (h : Reads s scale fraction u) {l : Int} (hl : -1074 ≤ l) (hl' : l ≤ 971)
    (hscale : scale < 2048) :
    Within l u ↔ scale ≤ l + 1075 ∨ (scale = 0 ∧ fraction = 0) := by
  match u, h with
  | .zero _, ⟨_, hzero, hfraction⟩ => exact iff_of_true trivial (.inr ⟨hzero, hfraction⟩)
  | .finite _ _ e hpos, ⟨_, _, hm, he⟩ =>
    change e ≤ l ↔ _
    split at hm <;> omega
  | .infinity _, h | .notANumber, h =>
    refine iff_of_false (fun h => h) ?_
    change scale = 2047 at h
    omega

/-- The fields give the parts of a number of double precision. -/
theorem Reads.canonical {s' : Sign} {m : Nat} {e : Int} {hm : 0 < m}
    (h : Reads s scale fraction (.finite s' m e hm)) (hfraction : fraction < 2 ^ 52) :
    Canonical m e := by
  obtain ⟨-, -, hmantissa, he⟩ := h
  refine ⟨hm, ?_, by omega, ?_⟩ <;> split at hmantissa <;> omega

/-- The fields fix a finite number. -/
theorem Reads.unique {v : UnpackedFloat} (hu : Reads s scale fraction u)
    (hv : Reads s scale fraction v) (hscale : scale ≠ 2047) : u = v := by
  match u, v, hu, hv with
  | .zero _, .zero _, ⟨rfl, _, _⟩, ⟨rfl, _, _⟩ => rfl
  | .finite _ _ _ _, .finite _ _ _ _, ⟨rfl, _, rfl, rfl⟩, ⟨rfl, _, rfl, rfl⟩ => rfl
  | .zero _, .finite _ m _ hm, ⟨_, hzero, hfraction⟩, ⟨_, _, hm', _⟩ =>
    rw [if_pos hzero] at hm'
    omega
  | .finite _ m _ hm, .zero _, ⟨_, _, hm', _⟩, ⟨_, hzero, hfraction⟩ =>
    rw [if_pos hzero] at hm'
    omega
  | .infinity _, _, h, _ | .notANumber, _, h, _ => exact absurd h hscale
  | _, .infinity _, _, h | _, .notANumber, _, h => exact absurd h hscale

end Reads

/-! ## What packing keeps -/

/-- Packing does not make a number larger that is small enough to be packed. -/
theorem Within.unpack_pack {l : Int} {u : UnpackedFloat} (h : Within l u) (hl : -1074 ≤ l)
    (hl' : l ≤ 971) :
    Within l (UnpackedFloat.unpack .binary64 (UnpackedFloat.pack .binary64 u)) := by
  -- the scale that is packed belongs to the last place, or is zero
  have hscale : (unpackExponent (UnpackedFloat.pack .binary64 u)).toNat ≤ (l + 1075).toNat := by
    match u, h with
    | .zero s, _ => simp [UnpackedFloat.pack, packedZero]
    | .finite s m e hm, h =>
      have he : e ≤ l := h
      have hbias : e + ((Format.binary64.exponentBias : Nat) : Int) +
          (Format.binary64.mantissaBitsWithoutImplicit : Nat) = e + 1075 := by
        change e + 1023 + 52 = _
        omega
      simp only [UnpackedFloat.pack, hbias]
      split
      · have : 2 ^ 11 ≤ (e + 1075).toNat + 1 := ‹_›
        omega
      split
      · rw [unpackExponent_packComponents, BitVec.toNat_ofNat]
        exact Nat.le_trans (Nat.mod_le _ _) (by omega)
      · simp
  have hreads := reads_unpack (UnpackedFloat.pack .binary64 u)
  rw [hreads.within_iff hl hl' (BitVec.isLt _)]
  omega

/-- Packing keeps a number of double precision as it is, if it is not too large. -/
theorem Canonical.unpack_pack {m : Nat} {e : Int} (h : Canonical m e) (he : e ≤ 971) (s : Sign) :
    unpack .binary64 (pack .binary64 (.finite s m e h.pos)) = .finite s m e h.pos := by
  have hlt := h.lt
  have hlowest := h.lowest
  have hbias : (e + ((Format.binary64.exponentBias : Nat) : Int) +
      (Format.binary64.mantissaBitsWithoutImplicit : Nat)).toNat = (e + 1075).toNat := by
    change (e + 1023 + 52).toNat = _
    omega
  -- the fields are the scale, which is zero where the mantissa is not full, and the lower bits
  have hread (scale fraction : Nat) (hscale : scale < 2047)
      (hfraction : BitVec.ofNat 52 m = BitVec.ofNat 52 fraction) (hfraction' : fraction < 2 ^ 52)
      (hparts : Reads s scale fraction (.finite s m e h.pos)) :
      unpack .binary64 (packComponents .binary64 s (BitVec.ofNat 11 scale) (BitVec.ofNat 52 m)) =
        .finite s m e h.pos := by
    have hunpack := reads_unpack (packComponents .binary64 s (BitVec.ofNat 11 scale)
      (BitVec.ofNat 52 m))
    rw [unpackSign_packComponents, unpackExponent_packComponents, unpackMantissa_packComponents,
      Sign.ofBitVec_toBitVec, hfraction] at hunpack
    change Reads s (BitVec.ofNat 11 scale).toNat (BitVec.ofNat 52 fraction).toNat _ at hunpack
    rw [BitVec.toNat_ofNat, BitVec.toNat_ofNat, Nat.mod_eq_of_lt (by omega),
      Nat.mod_eq_of_lt hfraction'] at hunpack
    rw [← hfraction] at hunpack
    exact hunpack.unique hparts (by omega)
  simp only [UnpackedFloat.pack, hbias]
  rw [if_neg (by omega)]
  change unpack .binary64 (if m.log2 + 1 = 53 then _ else _) = _
  split
  · rename_i hlog
    have hfull : 2 ^ 52 ≤ m := (Nat.le_log2 h.pos.ne').1 (by omega)
    refine hread (e + 1075).toNat (m - 2 ^ 52) (by omega) ?_ (by omega)
      ⟨rfl, by omega, by rw [if_neg] <;> omega, by omega⟩
    rw [← BitVec.toNat_inj, BitVec.toNat_ofNat, BitVec.toNat_ofNat]
    omega
  · rename_i hlog
    have hsmall : m < 2 ^ 52 := by
      refine Nat.not_le.1 fun hfull => hlog ?_
      rw [(Nat.log2_eq_iff h.pos.ne').2 ⟨hfull, hlt⟩]
    have hplace : e = -1074 := h.full.resolve_left (by omega)
    exact hread 0 m (by omega) rfl hsmall ⟨rfl, by omega, by rw [if_pos rfl], by omega⟩

/-- The sign of a number has a field of its own. -/
theorem fields_pack (f : Format) (s s' : Sign) {m : Nat} {e : Int} (hm : 0 < m) :
    unpackExponent (pack f (.finite s m e hm)) = unpackExponent (pack f (.finite s' m e hm)) ∧
    unpackMantissa (pack f (.finite s m e hm)) = unpackMantissa (pack f (.finite s' m e hm)) ∧
    unpackSign (pack f (.finite s m e hm)) = s.toBitVec := by
  unfold UnpackedFloat.pack packedInfinity
  dsimp only
  split
  · simp
  · split <;> simp

/-- A number that has been unpacked is packed again without loss, also under another sign. -/
theorem unpack_pack_of_unpack {b : BitVec Format.binary64.numBits}
    (hvalid : Format.binary64.Valid b) {s : Sign} {m : Nat} {e : Int} {hm : 0 < m}
    (h : unpack .binary64 b = .finite s m e hm) (s' : Sign) :
    unpack .binary64 (pack .binary64 (.finite s' m e hm)) = .finite s' m e hm := by
  have hpack : pack .binary64 (.finite s m e hm) = b := h ▸ pack_unpack_of_valid hvalid
  obtain ⟨hscale, hfraction, hsign⟩ := fields_pack .binary64 s' s (e := e) hm
  have hread := reads_unpack b
  have hpacked := reads_unpack (pack .binary64 (.finite s' m e hm))
  rw [h] at hread
  rw [hsign, Sign.ofBitVec_toBitVec, hscale, hfraction, hpack] at hpacked
  obtain ⟨-, hne, hm', he⟩ := hread
  exact hpacked.unique ⟨rfl, hne, hm', he⟩ hne

/-! ## Numbers -/

/-- The bits of a number. -/
def bitsOf (x : Float) : BitVec Format.binary64.numBits :=
  x.toModel.toBits.toBitVec

/-- The number is finite, and its last place is worth at most `2 ^ l`. -/
def Fits (l : Int) (x : Float) : Prop :=
  Within l x.toModel.unpack

/-- Whether the last place of a number is worth so little can be read off its fields. -/
theorem fits_iff {l : Int} (hl : -1074 ≤ l) (hl' : l ≤ 971) (x : Float) :
    Fits l x ↔ (unpackExponent (bitsOf x)).toNat ≤ l + 1075 ∨
      ((unpackExponent (bitsOf x)).toNat = 0 ∧ (unpackMantissa (bitsOf x)).toNat = 0) :=
  (reads_unpack (bitsOf x)).within_iff hl hl' (BitVec.isLt _)

/-- The parts of a finite number other than zero. -/
theorem canonical_unpack {x : Float} {s : Sign} {m : Nat} {e : Int} {hm : 0 < m}
    (h : x.toModel.unpack = .finite s m e hm) : Canonical m e := by
  have hread := reads_unpack (bitsOf x)
  change Reads _ _ _ x.toModel.unpack at hread
  rw [h] at hread
  exact hread.canonical (BitVec.isLt _)

/-- The mantissa of a number has no more than its bits. -/
theorem mantissa_unpack_lt (x : Float) : mantissa x.toModel.unpack < 2 ^ 53 :=
  (reads_unpack (bitsOf x)).mantissa_lt (BitVec.isLt _)

/-- The parts of a number are those that its fields give. -/
theorem ofFloat_eq (x : Float) :
    let scale := (unpackExponent (bitsOf x)).toNat
    let fraction := (unpackMantissa (bitsOf x)).toNat
    let negative := (bitsOf x).toNat / 2 ^ 63 == 1
    Binary.ofFloat x =
      if scale = 2047 then (if fraction = 0 then .infinite negative else .undefined)
      else if scale = 0 then .finite negative fraction (-1074)
      else .finite negative (2 ^ 52 + fraction) (scale - 1075) := by
  simp only [toNat_unpackExponent, toNat_unpackMantissa, Binary.ofFloat, beq_iff_eq]
  rfl

/-- A number is finite unless its scale is the greatest there is. -/
theorem isFinite_iff_scale (x : Float) :
    isFinite x ↔ (unpackExponent (bitsOf x)).toNat ≠ 2047 := by
  rw [isFinite, ofFloat_eq]
  by_cases hscale : (unpackExponent (bitsOf x)).toNat = 2047
  · by_cases hfraction : (unpackMantissa (bitsOf x)).toNat = 0 <;> simp [hscale, hfraction]
  · by_cases hzero : (unpackExponent (bitsOf x)).toNat = 0 <;> simp [hscale, hzero]

/-- A number is finite if and only if its last place is worth at most `2 ^ 971`. -/
theorem isFinite_iff (x : Float) : isFinite x ↔ Fits 971 x := by
  have hlt : (unpackExponent (bitsOf x)).toNat < 2048 := BitVec.isLt _
  rw [isFinite_iff_scale, fits_iff (by omega) (by omega)]
  omega

/-- The parts of a finite number. -/
theorem ofFloat_of_isFinite {x : Float} (h : isFinite x) :
    ∃ negative m e, Binary.ofFloat x = .finite negative m e ∧ m < 2 ^ 53 ∧ -1074 ≤ e ∧ e ≤ 971 := by
  have hlt : (unpackExponent (bitsOf x)).toNat < 2048 := BitVec.isLt _
  have hfraction : (unpackMantissa (bitsOf x)).toNat < 2 ^ 52 := BitVec.isLt _
  have hscale := (isFinite_iff_scale x).1 h
  rw [ofFloat_eq]
  dsimp only
  rw [if_neg hscale]
  split
  · exact ⟨_, _, _, rfl, by omega, by omega, by omega⟩
  · exact ⟨_, _, _, rfl, by omega, by omega, by omega⟩

/-! ## Arithmetic -/

section Arithmetic

variable {l l' : Int} {x y : Float}

/-- A number that fits below a place fits below any higher one. -/
theorem Fits.mono (h : Fits l x) (hl : l ≤ l') : Fits l' x :=
  Within.mono h hl

/-- A number whose last place is not too high is finite. -/
theorem Fits.isFinite (h : Fits l x) (hl : l ≤ 971) : isFinite x :=
  (isFinite_iff x).2 (h.mono hl)

/-- A number fits when it is packed if it was within the place before. -/
theorem fits_pack {u : UnpackedFloat} (h : Within l u) (hl : -1074 ≤ l) (hl' : l ≤ 971) :
    Fits l (.ofModel (.pack u)) :=
  h.unpack_pack hl hl'

/-- A number fits with the other sign, too. -/
theorem Fits.neg (h : Fits l x) (hl : -1074 ≤ l) (hl' : l ≤ 971) : Fits l (-x) :=
  fits_pack (Within.neg h) hl hl'

/-- A product fits where the places of its factors add up to it. -/
theorem Fits.mul (hx : Fits l x) (hy : Fits l' y) (hl : -1074 ≤ l + l' + 53)
    (hl' : l + l' + 53 ≤ 971) : Fits (l + l' + 53) (x * y) :=
  fits_pack (within_mul hx hy (mantissa_unpack_lt x) (mantissa_unpack_lt y) hl) hl hl'

/-- Bits that are no infinity and not the undefined are a number's own. -/
theorem unpack_ofBits {b : UInt64} (h : b.toNat / 2 ^ 52 % 2048 ≠ 2047) :
    (Float.ofBits b).toModel.unpack = UnpackedFloat.unpack .binary64 b.toBitVec := by
  change UnpackedFloat.unpack .binary64 (UnpackedFloat.pack .binary64
    (UnpackedFloat.unpack .binary64 b.toBitVec)) = _
  have hscale : (@unpackExponent .binary64 b.toBitVec).toNat ≠ 2047 := by
    rw [toNat_unpackExponent]
    exact h
  have hlt : (@unpackExponent .binary64 b.toBitVec).toNat < 2048 := BitVec.isLt _
  have hread := reads_unpack b.toBitVec
  cases hparts : UnpackedFloat.unpack .binary64 b.toBitVec with
  | zero s => exact unpack_packedZero
  | finite s m e hm =>
    rw [hparts] at hread
    have he : e ≤ 971 := by
      obtain ⟨-, -, -, he⟩ := hread
      omega
    exact (hread.canonical (BitVec.isLt _)).unpack_pack he s
  | infinity s =>
    rw [hparts] at hread
    exact absurd hread hscale
  | notANumber =>
    rw [hparts] at hread
    exact absurd hread hscale

/-- Bits stand for a finite number unless their scale is the greatest there is. -/
theorem isFinite_ofBits {b : UInt64} (h : b.toNat / 2 ^ 52 % 2048 ≠ 2047) :
    isFinite (Float.ofBits b) := by
  have hscale : (@unpackExponent .binary64 b.toBitVec).toNat ≤ 2046 := by
    rw [toNat_unpackExponent]
    change b.toNat / 2 ^ 52 % 2048 ≤ 2046
    omega
  have hwithin := (reads_unpack b.toBitVec).within_iff (l := 971) (by omega) (by omega) (by omega)
  exact (fits_pack (hwithin.2 (.inl (by omega))) (by omega) (by omega)).isFinite (by omega)

/-- Dividing by a number that is at least one makes no number larger. -/
theorem Fits.div (hx : Fits l x) (hy : AtLeastOne y.toModel.unpack) (hl : -1074 ≤ l)
    (hl' : l ≤ 971) : Fits l (x / y) :=
  fits_pack (within_div_of_atLeastOne hl hx (mantissa_unpack_lt x) hy) hl hl'

end Arithmetic

end ChatBot.Number
