import Furikup.Capture
import Furikup.Media
import Furikup.Lib.Quantizer

/-!
# What the two laws keep of a sample

Both laws cut the magnitude of a sample into cells that get wider with it, and read a cell back as
its middle.

* `ulawCells` and `alawCells` — the cells.  Mu-law cuts the magnitude plus a bias, A-law has equal
  cells below 256.
* `ulawToS16_s16ToUlaw` and `alawToS16_s16ToAlaw` — a sample there and back is the level of its
  cell.
* `scaleFn_encodeSample_mono`, `scaleFn_encodeSample_error`, `encodeSample_scaleFn_iff` — **what
  the two ends of a call make of a sample**, with whatever payload they have agreed on: louder
  stays louder, the error is a small part of the magnitude, and a byte that has been decoded is
  encoded to itself, but for one zero of mu-law.  `iterate_relay` — passing a call on changes
  nothing any more.
* `decoded_audioSendBuffer` — **the bound on the error for the frames of a whole run** of
  `rtpAudioSend`.
-/

set_option autoImplicit false

namespace Furikup

open CText Quantizer

/-! ## Cells -/

/-- The lower end of a cell that is stored as a segment and four bits. -/
def segmentLow (c : Nat) : Nat :=
  (16 + c % 16) * 2 ^ (c / 16 + 3)

theorem segmentLow_succ (c : Nat) : segmentLow (c + 1) = segmentLow c + 2 ^ (c / 16 + 3) := by
  rw [segmentLow, segmentLow]
  by_cases hlast : c % 16 = 15
  · have hmod : (c + 1) % 16 = 0 := by omega
    have hdiv : (c + 1) / 16 = c / 16 + 1 := by omega
    rw [hmod, hdiv, hlast, Nat.add_right_comm, Nat.pow_succ]
    omega
  · have hmod : (c + 1) % 16 = c % 16 + 1 := by omega
    have hdiv : (c + 1) / 16 = c / 16 := by omega
    rw [hmod, hdiv, ← Nat.add_assoc, Nat.add_mul, Nat.one_mul]

theorem two_mul_half (c : Nat) : 2 * 2 ^ (c / 16 + 2) = 2 ^ (c / 16 + 3) := by
  rw [Nat.pow_succ 2 (c / 16 + 2), Nat.mul_comm]

/-- The cells of mu-law, on magnitudes with the bias. -/
def ulawCells : Quantizer where
  low := segmentLow
  level c := segmentLow c + 2 ^ (c / 16 + 2)
  low_le_level c := Nat.le_add_right _ _
  level_lt c := by
    have hhalf := two_mul_half c
    have hpos : 0 < 2 ^ (c / 16 + 2) := Nat.two_pow_pos _
    rw [segmentLow_succ]
    omega

/-- The cells of A-law. -/
def alawCells : Quantizer where
  low c := if c < 16 then 16 * c else segmentLow c
  level c := if c < 16 then 16 * c + 8 else segmentLow c + 2 ^ (c / 16 + 2)
  low_le_level c := by
    by_cases hc : c < 16
    · rw [if_pos hc, if_pos hc]
      exact Nat.le_add_right _ _
    · rw [if_neg hc, if_neg hc]
      exact Nat.le_add_right _ _
  level_lt c := by
    by_cases hc : c < 16
    · by_cases hlast : c = 15
      · subst hlast
        decide
      · rw [if_pos hc, if_pos (by omega)]
        omega
    · have hhalf := two_mul_half c
      have hpos : 0 < 2 ^ (c / 16 + 2) := Nat.two_pow_pos _
      rw [if_neg hc, if_neg (by omega), segmentLow_succ]
      omega

/-! ## Codes -/

/-- Seven bits of a magnitude go away, and the rest has a leading one. -/
theorem valSeg_spec {v : Nat} (hmin : 128 ≤ v) (hmax : v < 32768) :
    2 ^ (valSeg v + 7) ≤ v ∧ v < 2 ^ (valSeg v + 8) ∧ valSeg v < 8 := by
  have hbits : ∀ n < 256, 0 < n → 2 ^ valSeg (n * 128) ≤ n ∧ n < 2 ^ (valSeg (n * 128) + 1) ∧
      valSeg (n * 128) < 8 := by decide +kernel
  have hseg : valSeg (v / 128 * 128) = valSeg v := by
    have hshift : (v / 128 * 128) >>> 7 = v >>> 7 := by
      rw [Nat.shiftRight_eq_div_pow, Nat.shiftRight_eq_div_pow]
      omega
    rw [valSeg, valSeg, hshift]
  have hpos : 0 < v / 128 := by omega
  obtain ⟨hlow, hhigh, hlt⟩ := hbits (v / 128) (by omega) hpos
  rw [hseg] at hlow hhigh hlt
  have hlead : 2 ^ (valSeg v + 7) = 2 ^ valSeg v * 128 := Nat.pow_add 2 _ 7
  have hnext : 2 ^ (valSeg v + 8) = 2 ^ (valSeg v + 1) * 128 := Nat.pow_add 2 (valSeg v + 1) 7
  refine ⟨?_, ?_, hlt⟩
  · rw [hlead]
    omega
  · rw [hnext]
    omega

theorem toNat_segmentCode {v : Nat} (hmin : 128 ≤ v) (hmax : v < 32768) :
    (segmentCode v).toNat = 16 * valSeg v + v / 2 ^ (valSeg v + 3) % 16 := by
  obtain ⟨-, -, hlt⟩ := valSeg_spec hmin hmax
  have hlow : (v >>> (valSeg v + 3)) &&& 0x0f = v / 2 ^ (valSeg v + 3) % 16 := by
    rw [Nat.shiftRight_eq_div_pow]
    exact Nat.and_two_pow_sub_one_eq_mod _ 4
  have hq : v / 2 ^ (valSeg v + 3) % 16 < 2 ^ 4 := Nat.mod_lt _ (by decide)
  rw [segmentCode, hlow, ← Nat.shiftLeft_add_eq_or_of_lt hq, Nat.shiftLeft_eq,
    UInt8.toNat_ofNat_of_lt' (by rw [UInt8.size]; omega), Nat.mul_comm]

/-- **The code of a magnitude is the number of its cell.** -/
theorem isCode_segmentCode {v : Nat} (hmin : 128 ≤ v) (hmax : v < 32768) :
    ulawCells.IsCode v (segmentCode v).toNat := by
  obtain ⟨hlead, hnext, -⟩ := valSeg_spec hmin hmax
  rw [toNat_segmentCode hmin hmax]
  have hwidth : 0 < 2 ^ (valSeg v + 3) := Nat.two_pow_pos _
  have hlow : 16 ≤ v / 2 ^ (valSeg v + 3) := by
    rw [Nat.le_div_iff_mul_le hwidth, ← Nat.pow_add 2 4, Nat.add_comm]
    exact hlead
  have hhigh : v / 2 ^ (valSeg v + 3) < 32 := by
    rw [Nat.div_lt_iff_lt_mul hwidth, ← Nat.pow_add 2 5, Nat.add_comm]
    exact hnext
  have hlowEq : segmentLow (16 * valSeg v + v / 2 ^ (valSeg v + 3) % 16) =
      v / 2 ^ (valSeg v + 3) * 2 ^ (valSeg v + 3) := by
    have hmod : (16 * valSeg v + v / 2 ^ (valSeg v + 3) % 16) % 16 =
        v / 2 ^ (valSeg v + 3) - 16 := by omega
    have hdiv : (16 * valSeg v + v / 2 ^ (valSeg v + 3) % 16) / 16 = valSeg v := by omega
    rw [segmentLow, hmod, hdiv, Nat.add_sub_cancel' hlow]
  have hdiv : (16 * valSeg v + v / 2 ^ (valSeg v + 3) % 16) / 16 = valSeg v := by omega
  have hsplit := Nat.div_add_mod' v (2 ^ (valSeg v + 3))
  have hrest := Nat.mod_lt v hwidth
  constructor
  · show segmentLow _ ≤ v
    omega
  · show v < segmentLow (_ + 1)
    rw [segmentLow_succ, hdiv]
    omega

theorem segmentCode_lt {v : Nat} (hmin : 128 ≤ v) (hmax : v < 32768) :
    (segmentCode v).toNat < 128 := by
  obtain ⟨-, -, hlt⟩ := valSeg_spec hmin hmax
  rw [toNat_segmentCode hmin hmax]
  omega

/-- The byte A-law has for a magnitude, before the mask. -/
def alawCode (v : Nat) : UInt8 :=
  if v < 256 then UInt8.ofNat (v >>> 4) else segmentCode v

theorem isCode_alawCode {v : Nat} (hmax : v < 32768) : alawCells.IsCode v (alawCode v).toNat := by
  rw [alawCode]
  by_cases hv : v < 256
  · have hcode : (UInt8.ofNat (v >>> 4)).toNat = v / 16 := by
      rw [UInt8.toNat_ofNat_of_lt' (by rw [Nat.shiftRight_eq_div_pow, UInt8.size]; omega),
        Nat.shiftRight_eq_div_pow]
    rw [if_pos hv, hcode]
    constructor
    · show (if v / 16 < 16 then 16 * (v / 16) else _) ≤ v
      rw [if_pos (by omega)]
      omega
    · show v < if v / 16 + 1 < 16 then 16 * (v / 16 + 1) else segmentLow (v / 16 + 1)
      split
      · omega
      · have hlast : v / 16 = 15 := by omega
        rw [hlast]
        exact hv
  · rw [if_neg hv]
    have hcode := isCode_segmentCode (by omega) hmax
    have hseg : 16 ≤ (segmentCode v).toNat := by
      by_contra hlt
      have hmono : segmentLow ((segmentCode v).toNat + 1) ≤ segmentLow 16 :=
        ulawCells.strictMono_low.monotone (by omega)
      have hend : segmentLow 16 = 256 := rfl
      exact hv (Nat.lt_of_lt_of_le hcode.lt_low (hend ▸ hmono))
    constructor
    · show (if _ < 16 then _ else segmentLow _) ≤ v
      rw [if_neg (by omega)]
      exact hcode.low_le
    · show v < if _ < 16 then _ else segmentLow _
      rw [if_neg (by omega)]
      exact hcode.lt_low

theorem alawCode_lt {v : Nat} (hmax : v < 32768) : (alawCode v).toNat < 128 := by
  rw [alawCode]
  split
  · rw [UInt8.toNat_ofNat_of_lt' (by rw [Nat.shiftRight_eq_div_pow, UInt8.size]; omega),
      Nat.shiftRight_eq_div_pow]
    omega
  · exact segmentCode_lt (by omega) hmax

/-! ## There and back -/

/-- What the decoders make of a code under each of the masks: the level, with or without a sign. -/
theorem ulawToS16_mask {c : UInt8} (hc : c.toNat < 128) :
    ulawToS16 (c ^^^ 0xff) = ulawCells.level c.toNat - 0x84 ∧
      ulawToS16 (c ^^^ 0x7f) = 0x84 - ulawCells.level c.toNat := by
  have hall : ∀ n < 128, ulawToS16 (UInt8.ofNat n ^^^ 0xff) = ulawCells.level n - 0x84 ∧
      ulawToS16 (UInt8.ofNat n ^^^ 0x7f) = 0x84 - ulawCells.level n := by decide +kernel
  have := hall c.toNat hc
  rwa [UInt8.ofNat_toNat] at this

theorem alawToS16_mask {c : UInt8} (hc : c.toNat < 128) :
    alawToS16 (c ^^^ 0xD5) = alawCells.level c.toNat ∧
      alawToS16 (c ^^^ 0x55) = -alawCells.level c.toNat := by
  have hall : ∀ n < 128, alawToS16 (UInt8.ofNat n ^^^ 0xD5) = alawCells.level n ∧
      alawToS16 (UInt8.ofNat n ^^^ 0x55) = -alawCells.level n := by decide +kernel
  have := hall c.toNat hc
  rwa [UInt8.ofNat_toNat] at this

/-- What mu-law makes of a magnitude. -/
def ulawRead (v : Nat) : Nat :=
  ulawCells.level (segmentCode (min (v + 0x84) 0x7fff)).toNat - 0x84

/-- What A-law makes of a magnitude. -/
def alawRead (v : Nat) : Nat :=
  alawCells.level (alawCode (min v 0x7fff)).toNat

/-- The bias is the level of the first cell. -/
theorem bias_le_level (c : Nat) : 0x84 ≤ ulawCells.level c :=
  ulawCells.level_mono (Nat.zero_le c)

/-- **A sample that has been through mu-law is the level of its magnitude.** -/
theorem ulawToS16_s16ToUlaw (x : Int) : ulawToS16 (s16ToUlaw x) = mirror ulawRead x := by
  rw [s16ToUlaw, mirror]
  unfold ulawRead
  by_cases hx : x < 0
  · have hval : (0x84 - x).toNat = x.natAbs + 0x84 := by omega
    have hlt := segmentCode_lt (v := min (x.natAbs + 0x84) 0x7fff) (by omega) (by omega)
    simp only [if_pos hx, hval]
    rw [(ulawToS16_mask hlt).2, Nat.cast_sub (bias_le_level _)]
    omega
  · have hval : (x + 0x84).toNat = x.natAbs + 0x84 := by omega
    have hlt := segmentCode_lt (v := min (x.natAbs + 0x84) 0x7fff) (by omega) (by omega)
    simp only [if_neg hx, hval]
    rw [(ulawToS16_mask hlt).1, Nat.cast_sub (bias_le_level _)]
    rfl

/-- **A sample that has been through A-law is the level of its magnitude.**  Positive numbers are
not clipped, so this takes one that a sample can be. -/
theorem alawToS16_s16ToAlaw {x : Int} (hx : x ≤ 0x7fff) :
    alawToS16 (s16ToAlaw x) = mirror alawRead x := by
  rw [s16ToAlaw, mirror, alawRead]
  have hlt := alawCode_lt (v := min x.natAbs 0x7fff) (by omega)
  by_cases hneg : x < 0
  · have hval : min (-x).toNat 0x7fff = min x.natAbs 0x7fff := by omega
    simp only [if_neg (Int.not_le.2 hneg), hval, if_pos hneg]
    exact (alawToS16_mask hlt).2
  · have hval : x.toNat = min x.natAbs 0x7fff := by omega
    simp only [if_pos (Int.not_lt.1 hneg), hval, if_neg hneg]
    exact (alawToS16_mask hlt).1

theorem ulawRead_mono : Monotone ulawRead := by
  intro v w h
  have hv := isCode_segmentCode (v := min (v + 0x84) 0x7fff) (by omega) (by omega)
  have hw := isCode_segmentCode (v := min (w + 0x84) 0x7fff) (by omega) (by omega)
  exact Nat.sub_le_sub_right (ulawCells.level_mono (hv.mono hw (by omega))) 0x84

theorem alawRead_mono : Monotone alawRead := by
  intro v w h
  have hv := isCode_alawCode (v := min v 0x7fff) (by omega)
  have hw := isCode_alawCode (v := min w 0x7fff) (by omega)
  exact alawCells.level_mono (hv.mono hw (by omega))

/-- Half of a cell is a thirty-second part of its lower end at most. -/
theorem half_le_segmentLow (c : Nat) : 32 * 2 ^ (c / 16 + 2) ≤ segmentLow c := by
  have hhalf := two_mul_half c
  have hle : 16 * 2 ^ (c / 16 + 3) ≤ (16 + c % 16) * 2 ^ (c / 16 + 3) :=
    Nat.mul_le_mul_right _ (Nat.le_add_right _ _)
  rw [segmentLow]
  omega

theorem segmentLow_succ_half (c : Nat) :
    segmentLow (c + 1) = segmentLow c + 2 * 2 ^ (c / 16 + 2) := by
  rw [segmentLow_succ, two_mul_half]

/-- The error of a cell whose level is in the middle. -/
theorem error_le {q : Quantizer} {v c : Nat} (hcode : q.IsCode v c) (hlow : q.low c = segmentLow c)
    (hsucc : q.low (c + 1) = segmentLow (c + 1))
    (hlevel : q.level c = segmentLow c + 2 ^ (c / 16 + 2)) : 32 * |(q.level c : Int) - v| ≤ v := by
  have herror := hcode.abs_sub_le (r := 2 ^ (c / 16 + 2)) (hlow ▸ hlevel)
    (by rw [hsucc, hlow, segmentLow_succ_half])
  have hhalf := half_le_segmentLow c
  have hle := hcode.low_le
  rw [hlow] at hle
  omega

/-- Mu-law is at most a thirty-second part of the magnitude and the bias off. -/
theorem ulawRead_error {v : Nat} (hv : v ≤ 0x8000) : 32 * |(ulawRead v : Int) - v| ≤ v + 0x84 := by
  have hbias := bias_le_level (segmentCode (min (v + 0x84) 0x7fff)).toNat
  unfold ulawRead
  rw [Nat.cast_sub hbias]
  by_cases hclip : v + 0x84 ≤ 0x7fff
  · rw [Nat.min_eq_left hclip]
    have herror := error_le (isCode_segmentCode (v := v + 0x84) (by omega) (by omega)) rfl rfl rfl
    have hshift : (ulawCells.level (segmentCode (v + 0x84)).toNat : Int) - 0x84 - v =
        ulawCells.level (segmentCode (v + 0x84)).toNat - (v + 0x84 : Nat) := by
      omega
    rw [show ((0x84 : Nat) : Int) = 0x84 from rfl, hshift]
    exact herror
  · have hlast : ulawCells.level (segmentCode 0x7fff).toNat = 32256 := by decide
    rw [Nat.min_eq_right (by omega), hlast, abs_of_neg (by omega)]
    omega

/-- A-law is at most a thirty-second part of the magnitude off, or half of one of the small
cells. -/
theorem alawRead_error {v : Nat} (hv : v ≤ 0x8000) :
    32 * |(alawRead v : Int) - v| ≤ max v 256 := by
  rw [alawRead]
  by_cases hclip : v ≤ 0x7fff
  · rw [Nat.min_eq_left hclip]
    have hcode := isCode_alawCode (v := v) (by omega)
    by_cases hsmall : (alawCode v).toNat < 16
    · have hlevel : alawCells.level (alawCode v).toNat = alawCells.low (alawCode v).toNat + 8 := by
        simp only [alawCells, if_pos hsmall]
      have hnext : alawCells.low ((alawCode v).toNat + 1) =
          alawCells.low (alawCode v).toNat + 2 * 8 := by
        by_cases hlast : (alawCode v).toNat = 15
        · rw [hlast]
          rfl
        · simp only [alawCells, if_pos hsmall,
            if_pos (show (alawCode v).toNat + 1 < 16 by omega)]
          omega
      have herror := hcode.abs_sub_le hlevel hnext
      omega
    · have herror := error_le hcode (if_neg hsmall) (if_neg (by omega)) (if_neg hsmall)
      omega
  · have hlast : alawCells.level (alawCode 0x7fff).toNat = 32256 := by decide
    rw [Nat.min_eq_right (by omega), hlast, abs_of_neg (by omega)]
    omega

/-! ## The two ends of a call -/

/-- A number that a 16-bit sample can be. -/
structure IsSample (x : Int) : Prop where
  min_le : -0x8000 ≤ x
  le_max : x ≤ 0x7fff

/-- With either law a sample is read back as the level of its magnitude. -/
theorem scaleFn_encodeSample (p : Int) {x : Int} (hx : IsSample x) :
    scaleFn p (encodeSample p x) = mirror (if p = 0 then ulawRead else alawRead) x := by
  rw [scaleFn, encodeSample]
  by_cases hp : p = 0
  · rw [if_pos hp, if_pos hp, if_pos hp, ulawToS16_s16ToUlaw]
  · rw [if_neg hp, if_neg hp, if_neg hp, alawToS16_s16ToAlaw hx.le_max]

/-- **What is louder stays louder**, on a call with either payload. -/
theorem scaleFn_encodeSample_mono (p : Int) {x y : Int} (hx : IsSample x) (hy : IsSample y)
    (h : x ≤ y) : scaleFn p (encodeSample p x) ≤ scaleFn p (encodeSample p y) := by
  rw [scaleFn_encodeSample p hx, scaleFn_encodeSample p hy]
  refine mirror_mono ?_ h
  split
  · exact ulawRead_mono
  · exact alawRead_mono

theorem scaleFn_encodeSample_mono_quiet :
    scaleFn 8 (encodeSample 8 (-300)) ≤ scaleFn 8 (encodeSample 8 (-299)) :=
  scaleFn_encodeSample_mono 8 ⟨by decide, by decide⟩ ⟨by decide, by decide⟩ (by decide)

/-- **A sample is changed by a thirty-second part at most**, and a little more if it is small. -/
theorem scaleFn_encodeSample_error (p : Int) {x : Int} (hx : IsSample x) :
    32 * |scaleFn p (encodeSample p x) - x| ≤ |x| + 256 := by
  have hmin := hx.min_le
  have hmax := hx.le_max
  rw [scaleFn_encodeSample p hx, abs_mirror_sub, Int.abs_eq_natAbs x]
  split
  · exact (ulawRead_error (by omega)).trans (by omega)
  · exact (alawRead_error (by omega)).trans (by omega)

/-! ## Bytes -/

/-- A byte is a code under one of two masks that differ in the sign. -/
theorem exists_mask (mask b : UInt8) :
    ∃ c : UInt8, c.toNat < 128 ∧ (b = c ^^^ mask ∨ b = c ^^^ (mask ^^^ 0x80)) := by
  have hbit : ∀ n < 256, (UInt8.ofNat n &&& 0x7f).toNat < 128 ∧
      (UInt8.ofNat n = UInt8.ofNat n &&& 0x7f ∨
        UInt8.ofNat n = (UInt8.ofNat n &&& 0x7f) ^^^ 0x80) := by decide +kernel
  obtain ⟨hlt, heq⟩ := hbit (b ^^^ mask).toNat (b ^^^ mask).toNat_lt
  rw [UInt8.ofNat_toNat] at hlt heq
  refine ⟨(b ^^^ mask) &&& 0x7f, hlt, heq.imp (fun h => ?_) fun h => ?_⟩
  · rw [← h, UInt8.xor_assoc, UInt8.xor_self, UInt8.xor_zero]
  · rw [UInt8.xor_comm mask, ← UInt8.xor_assoc, ← h, UInt8.xor_assoc, UInt8.xor_self,
      UInt8.xor_zero]

theorem ulawCells_level_le {c : UInt8} (hc : c.toNat < 128) : ulawCells.level c.toNat ≤ 32256 :=
  ulawCells.level_mono (Nat.lt_succ_iff.1 hc)

theorem segmentCode_level {c : UInt8} (hc : c.toNat < 128) :
    segmentCode (ulawCells.level c.toNat) = c := by
  have hmin := bias_le_level c.toNat
  have hmax := ulawCells_level_le hc
  exact UInt8.toNat_inj.1 ((isCode_segmentCode (by omega) (by omega)).unique (isCode_level _))

theorem alawCode_level {c : UInt8} (hc : c.toNat < 128) :
    alawCode (alawCells.level c.toNat) = c := by
  have hmax : alawCells.level c.toNat ≤ 32256 :=
    alawCells.level_mono (Nat.lt_succ_iff.1 hc)
  exact UInt8.toNat_inj.1 ((isCode_alawCode (by omega)).unique (isCode_level _))

theorem level_eq_bias_iff {c : UInt8} (hc : c.toNat < 128) :
    ulawCells.level c.toNat = 0x84 ↔ c = 0 := by
  constructor
  · intro h
    rw [← segmentCode_level hc, h]
    rfl
  · rintro rfl
    rfl

/-- Mu-law has two zeros, and encodes both of them as the first. -/
theorem s16ToUlaw_ulawToS16_iff (b : UInt8) : s16ToUlaw (ulawToS16 b) = b ↔ b ≠ 0x7f := by
  obtain ⟨c, hc, rfl | hb⟩ := exists_mask 0xff b
  · have hmin := bias_le_level c.toNat
    have hmax := ulawCells_level_le hc
    have hval : ((ulawCells.level c.toNat : Int) - 0x84 + 0x84).toNat = ulawCells.level c.toNat := by
      omega
    have hread : s16ToUlaw (ulawToS16 (c ^^^ 0xff)) = c ^^^ 0xff := by
      rw [(ulawToS16_mask hc).1, s16ToUlaw, if_neg (by omega)]
      simp only [hval]
      rw [Nat.min_eq_left (by omega), segmentCode_level hc]
    refine iff_of_true hread fun heq => ?_
    have hcode : c = 0x80 := by
      rw [show c = (c ^^^ 0xff) ^^^ 0xff by rw [UInt8.xor_assoc, UInt8.xor_self, UInt8.xor_zero],
        heq]
      rfl
    rw [hcode] at hc
    exact absurd hc (by decide)
  · have hmask : b = c ^^^ 0x7f := hb
    have hmin := bias_le_level c.toNat
    have hmax := ulawCells_level_le hc
    subst hmask
    rw [(ulawToS16_mask hc).2, s16ToUlaw]
    by_cases hzero : c = 0
    · subst hzero
      decide
    · have hlevel := mt (level_eq_bias_iff hc).1 hzero
      have hval : ((0x84 : Int) - (0x84 - ulawCells.level c.toNat)).toNat =
          ulawCells.level c.toNat := by
        omega
      rw [if_pos (by omega)]
      simp only [hval]
      rw [Nat.min_eq_left (by omega), segmentCode_level hc]
      refine iff_of_true rfl fun heq => hzero ?_
      rw [show c = (c ^^^ 0x7f) ^^^ 0x7f by rw [UInt8.xor_assoc, UInt8.xor_self, UInt8.xor_zero],
        heq]
      rfl

theorem s16ToAlaw_alawToS16 (b : UInt8) : s16ToAlaw (alawToS16 b) = b := by
  obtain ⟨c, hc, rfl | hb⟩ := exists_mask 0xD5 b
  · have hval : (alawCells.level c.toNat : Int).toNat = alawCells.level c.toNat := rfl
    rw [(alawToS16_mask hc).1, s16ToAlaw, if_pos (Int.natCast_nonneg _)]
    simp only [hval]
    exact congrArg (· ^^^ _) (alawCode_level hc)
  · have hmask : b = c ^^^ 0x55 := hb
    have hpos : 8 ≤ alawCells.level c.toNat := alawCells.level_mono (Nat.zero_le _)
    have hmax : alawCells.level c.toNat ≤ 32256 := alawCells.level_mono (Nat.lt_succ_iff.1 hc)
    have hval : (- -(alawCells.level c.toNat : Int)).toNat = alawCells.level c.toNat := by
      omega
    subst hmask
    rw [(alawToS16_mask hc).2, s16ToAlaw, if_neg (by omega)]
    simp only [hval]
    rw [Nat.min_eq_left (by omega)]
    exact congrArg (· ^^^ _) (alawCode_level hc)

theorem encodeSample_scaleFn {p : Int} {b : UInt8} (h : ¬(p = 0 ∧ b = 0x7f)) :
    encodeSample p (scaleFn p b) = b := by
  rw [scaleFn, encodeSample]
  by_cases hp : p = 0
  · rw [if_pos hp, if_pos hp, s16ToUlaw_ulawToS16_iff]
    exact fun hb => h ⟨hp, hb⟩
  · rw [if_neg hp, if_neg hp, s16ToAlaw_alawToS16]

/-- **A byte that has been decoded is encoded to itself**, but for one zero of mu-law. -/
theorem encodeSample_scaleFn_iff (p : Int) (b : UInt8) :
    encodeSample p (scaleFn p b) = b ↔ ¬(p = 0 ∧ b = 0x7f) := by
  refine ⟨?_, encodeSample_scaleFn⟩
  rintro heq ⟨rfl, hb⟩
  rw [scaleFn, encodeSample, if_pos rfl, if_pos rfl, s16ToUlaw_ulawToS16_iff] at heq
  exact heq hb

theorem encodeSample_zero (p : Int) :
    scaleFn p (encodeSample p (scaleFn p 0x7f)) = scaleFn p 0x7f := by
  by_cases hp : p = 0
  · subst hp
    decide
  · rw [encodeSample_scaleFn fun h => hp h.1]

/-- A sample is the same after any number of calls that pass it on. -/
theorem iterate_relay (p x : Int) (n : Nat) :
    (fun y => scaleFn p (encodeSample p y))^[n + 1] x = scaleFn p (encodeSample p x) := by
  induction n with
  | zero => rfl
  | succ n ih =>
    rw [Function.iterate_succ_apply', ih]
    by_cases h : p = 0 ∧ encodeSample p x = 0x7f
    · rw [h.2, encodeSample_zero]
    · rw [encodeSample_scaleFn h]

/-! ## Frames -/

/-- The value that a byte of a frame is made of. -/
def frameValue (samples : List Int16) : Int :=
  (samples.map Int16.toInt).sum.tdiv 5

/-- A byte is decoded to a number close to a value. -/
def CloseTo (rtpPayload : Int) (b : UInt8) (value : Int) : Prop :=
  32 * |scaleFn rtpPayload b - value| ≤ |value| + 256

theorem isSample_frameValue {samples : List Int16} (hlen : samples.length = 5) :
    IsSample (frameValue samples) := by
  have hsum : ∀ l : List Int16, -0x8000 * (l.length : Int) ≤ (l.map Int16.toInt).sum ∧
      (l.map Int16.toInt).sum ≤ 0x7fff * (l.length : Int) := by
    intro l
    induction l with
    | nil => exact ⟨le_rfl, le_rfl⟩
    | cons s l ih =>
      have hmin := s.le_toInt
      have hmax := s.toInt_lt
      rw [List.map_cons, List.sum_cons, List.length_cons]
      omega
  obtain ⟨hmin, hmax⟩ := hsum samples
  rw [hlen] at hmin hmax
  constructor
  · exact Int.le_tdiv_of_mul_le (by decide) hmin
  · exact Int.tdiv_le_tdiv (c := 5) (b := 0x7fff * 5) (by decide) hmax

/-- A frame that stays in the buffer has 160 values of five samples. -/
theorem exists_samples {α : Type} (buffer : Nat → α) {sent : Int32} (h : IndicesStay sent) :
    ∃ frame : List (List α), frameTaps buffer sent = frame.map (List.map some) ∧
      frame.length = 160 ∧ ∀ samples ∈ frame, samples.length = 5 := by
  refine ⟨(List.range 160).map fun i => (List.range 5).map fun j =>
    buffer (tapIndex sent i j).toInt.toNat, ?_, ?_, ?_⟩
  · rw [frameTaps, List.map_map]
    refine List.map_congr_left fun i hi => ?_
    rw [Function.comp_apply, List.map_map]
    refine List.map_congr_left fun j hj => ?_
    rw [readBuffer, if_pos (h i (List.mem_range.1 hi) j (List.mem_range.1 hj)),
      Function.comp_apply]
  · rw [List.length_map, List.length_range]
  · intro samples hmem
    obtain ⟨i, -, rfl⟩ := List.mem_map.1 hmem
    rw [List.length_map, List.length_range]

/-- The frames of a run are read out of the buffer. -/
theorem exists_frameTaps {α : Type} [Zero α] (vars : ConfigVars) (inputFile : Int32)
    (ds : List (Device α)) (s : SendLoop α) :
    ∀ f ∈ frames vars inputFile ds s, ∃ buffer, f.taps = frameTaps buffer f.sent := by
  induction ds generalizing s with
  | nil => exact fun f hf => absurd hf List.not_mem_nil
  | cons d ds ih =>
    intro f hf
    rw [frames] at hf
    rcases List.mem_append.1 hf with hf | hf
    · rw [Option.mem_toList] at hf
      simp only [sendTurn] at hf
      split at hf
      · obtain rfl := Option.some.inj hf
        exact ⟨_, rfl⟩
      · exact absurd hf (Option.some_ne_none f).symm
    · exact ih _ f hf

/-- **What the other end hears of a run.**  Whatever the settings are and the devices deliver, as
long as a run has no more than 2434788 frames, each of them is 160 bytes, and each byte is decoded
to a number close to the mean of the five samples it is made of. -/
theorem decoded_audioSendBuffer (p : Int) (vars : ConfigVars) (inputFile : Int32)
    (ds : List (Device Int16)) (buffer : Nat → Int16)
    (hrun : (frames vars inputFile ds { buffer }).length ≤ 2434788) :
    ∀ f ∈ frames vars inputFile ds { buffer }, ∃ frame : List (List Int16),
      f.taps = frame.map (List.map some) ∧ frame.length = 160 ∧
        List.Forall₂ (CloseTo p) (audioSendBuffer p (frame.map (List.map Int16.toInt)))
          (frame.map frameValue) := by
  intro f hf
  have hrange := (captureInRange_frames vars inputFile ds buffer).2 hrun
  have hstay : IndicesStay f.sent := hrange.indices f.sent (List.mem_map_of_mem hf)
  obtain ⟨read, htaps⟩ := exists_frameTaps vars inputFile ds _ f hf
  obtain ⟨frame, hframe, hlen, hfive⟩ := exists_samples read hstay
  refine ⟨frame, htaps.trans hframe, hlen, ?_⟩
  rw [audioSendBuffer, List.map_map, List.forall₂_map_left_iff, List.forall₂_map_right_iff,
    List.forall₂_same]
  exact fun samples hmem => scaleFn_encodeSample_error p (isSample_frameValue (hfive samples hmem))

theorem decoded_audioSendBuffer_silence :
    ∀ f ∈ frames { useInputFile := true } (-1) [(⟨0, 0, fun _ => 0⟩ : Device Int16)]
        { buffer := fun _ => 0 },
      ∃ frame : List (List Int16), f.taps = frame.map (List.map some) ∧ frame.length = 160 ∧
        List.Forall₂ (CloseTo 8) (audioSendBuffer 8 (frame.map (List.map Int16.toInt)))
          (frame.map frameValue) :=
  decoded_audioSendBuffer 8 _ _ _ _ (by
    rw [length_frames_file _ _ rfl rfl rfl]
    decide)

end Furikup
