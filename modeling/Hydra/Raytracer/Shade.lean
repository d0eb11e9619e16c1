import Hydra.Lib.Rounding
import Hydra.Raytracer.Trace

/-!
# shade_pixel

The lighting of `apps/raytracer/raytracer.c` computes with the type `float`: the conversions between
`float` and `fixed_t`, and an intensity of 255 times the cosine of the light. All of it could have
been done in integers: `shade_pixel` computes exactly `litChannel` (`shade_pixel_exact`), and
the quotients from which `render_scene` makes its rays are converted like integer quotients
(`floatToFixed_quotient`).

A `float` is a rational number, rounded to 24 digits after every operation. The numbers here are far
from the limits of the exponents.
-/

namespace Hydra.Raytracer
open Rounding

/-! ## The code -/

/-- The `float` nearest to a number. -/
def toFloat (x : ℚ) : ℚ := roundTo 24 x

/-- `FLOAT_TO_FIXED(f)` -/
def floatToFixed (f : ℚ) : Int32 := Int32.ofInt (truncate (toFloat (f * 65536)))

/-- `FIXED_TO_FLOAT(f)` -/
def fixedToFloat (f : Int32) : ℚ := toFloat (toFloat f.toInt / 65536)

/-- `c = (c * intensity) / 255; c += 30; if (c > 255) c = 255;` -/
def shadeChannel (c intensity : Int32) : Int32 :=
  let c := c * intensity / 255
  let c := c + 30
  if c > 255 then 255 else c

/-- The `intensity` of `shade_pixel`, before it is limited to 255. -/
def intensity (dotProduct : Int32) : Int32 :=
  Int32.ofInt (truncate (toFloat (fixedToFloat dotProduct * 255)))

/-- C `shade_pixel`. -/
def shadePixel (hit : Hit) (lightDir : Vec3) : Int32 :=
  if hit.hit = 0 then 0x00202040
  else
    let dotProduct := vec3Dot hit.normal lightDir
    let dotProduct := if dotProduct < 0 then 0 else dotProduct
    let r := (hit.color >>> 16) &&& 0xFF
    let g := (hit.color >>> 8) &&& 0xFF
    let b := hit.color &&& 0xFF
    let intensity := intensity dotProduct
    let intensity := if intensity > 255 then 255 else intensity
    let r := shadeChannel r intensity
    let g := shadeChannel g intensity
    let b := shadeChannel b intensity
    (r <<< 16) ||| (g <<< 8) ||| b

/-- `(color >> k) & 0xFF`, stored in a byte. -/
def channel (color k : Int32) : UInt8 := ((color >>> k) &&& 0xFF).toUInt32.toUInt8

/-- The bytes of a color, red first. -/
def rgb (color : Int32) : List UInt8 := [channel color 16, channel color 8, channel color 0]

/-! ## Conversions -/

/-- The quotient of small numbers, converted to a `float` and then to a `fixed_t`. -/
lemma truncate_quotient {a b : Nat} (ha : a < 256) (hb : 0 < b) :
    truncate (toFloat (toFloat (a / b : ℚ) * 65536)) = (a * 65536 / b : Nat) := by
  have hb' : (0 : ℚ) < b := by exact_mod_cast hb
  have hq : (0 : ℚ) ≤ a / b := by positivity
  have hfloat : toFloat (toFloat (a / b : ℚ) * 65536) = toFloat (a / b : ℚ) * 65536 := by
    have hrep := (representable_roundTo (p := 24) (by decide) (a / b : ℚ)).mul_zpow 16
    rw [show ((2 : ℚ) ^ (16 : ℤ)) = 65536 by norm_num] at hrep
    exact roundTo_eq_self hrep
  have herr := abs_roundTo_sub_le 24 (a / b : ℚ)
  rw [abs_of_nonneg hq, ← toFloat] at herr
  obtain ⟨hlo, hhi⟩ := abs_le.mp herr
  have hdiv := Nat.div_add_mod (a * 65536) b
  have hmod := Nat.mod_lt (a * 65536) hb
  generalize hN : a * 65536 / b = N at hdiv
  generalize a * 65536 % b = r at hdiv hmod
  -- `65536 a = b N + r`
  have hexact : (a / b : ℚ) * 65536 = N + r / b := by
    rw [div_mul_eq_mul_div, div_eq_iff hb'.ne', add_mul, div_mul_cancel₀ _ hb'.ne']
    have hcast : ((b * N + r : Nat) : ℚ) = ((a * 65536 : Nat) : ℚ) := by rw [hdiv]
    push_cast at hcast
    linarith
  have hsmall : (a / b : ℚ) * 65536 / 2 ^ 24 < 1 / b := by
    have ha' : (a : ℚ) < 256 := by exact_mod_cast ha
    rw [div_mul_eq_mul_div, div_div, div_lt_div_iff₀ (by positivity) hb']
    nlinarith
  have hr : (r : ℚ) / b ≤ 1 - 1 / b := by
    rw [le_sub_iff_add_le, ← add_div, div_le_one hb']
    exact_mod_cast hmod
  have hscaled : toFloat (a / b : ℚ) * 65536 ≤ N + r / b + (a / b : ℚ) * 65536 / 2 ^ 24 ∧
      N + r / b - (a / b : ℚ) * 65536 / 2 ^ 24 ≤ toFloat (a / b : ℚ) * 65536 := by
    constructor <;> linarith
  rw [hfloat]
  refine truncate_eq (by positivity) ?_ ?_
  · rcases Nat.eq_zero_or_pos r with rfl | hpos
    · -- the quotient is a number of the format
      have hN' : N < 2 ^ 24 := by
        have hle : N ≤ a * 65536 := hN ▸ Nat.div_le_self _ _
        omega
      have hrep : Representable 24 (a / b : ℚ) := by
        have hint : Representable 24 ((N : ℤ) : ℚ) := by
          refine representable_intCast ?_
          rw [abs_of_nonneg (by positivity)]
          exact_mod_cast hN'
        have hmul := hint.mul_zpow (-16)
        have heq : ((N : ℤ) : ℚ) * 2 ^ (-16 : ℤ) = a / b := by
          rw [show ((2 : ℚ) ^ (-16 : ℤ)) = 1 / 65536 by norm_num]
          rw [Nat.cast_zero, zero_div, add_zero] at hexact
          push_cast
          linarith
        rwa [heq] at hmul
      rw [toFloat, roundTo_eq_self hrep, hexact]
      simp
    · have hrpos : (1 : ℚ) / b ≤ r / b := by
        gcongr
        exact_mod_cast hpos
      push_cast
      linarith [hscaled.2]
  · push_cast
    linarith [hscaled.1]

/-- A quotient of small numbers is converted to a `fixed_t` as if it were computed in integers. -/
lemma floatToFixed_quotient {a : Int} {b : Nat} (ha : |a| < 256) (hb : 0 < b) :
    floatToFixed (toFloat (a / b : ℚ)) = Int32.ofInt ((a * 65536).tdiv b) := by
  unfold floatToFixed
  congr 1
  obtain ⟨n, rfl | rfl⟩ := Int.eq_nat_or_neg a
  · rw [Nat.abs_cast] at ha
    have hnat := truncate_quotient (a := n) (by omega) hb
    push_cast
    rw [hnat, Int.tdiv_eq_ediv_of_nonneg (by positivity)]
    push_cast
    rfl
  · rw [abs_neg, Nat.abs_cast] at ha
    have hnat := truncate_quotient (a := n) (by omega) hb
    have hneg : toFloat (toFloat (((-n : Int) : ℚ) / b) * 65536) =
        -toFloat (toFloat (n / b : ℚ) * 65536) := by
      unfold toFloat
      push_cast
      rw [neg_div, roundTo_neg, neg_mul, roundTo_neg]
    rw [hneg, truncate_neg, hnat, neg_mul, Int.neg_tdiv, Int.tdiv_eq_ediv_of_nonneg (by positivity)]
    push_cast
    rfl

/-! ## The intensity -/

/-- Powers of two only move the point. -/
lemma representable_div {p : Nat} {x : ℚ} (h : Representable p x) :
    Representable p (x / 65536) := by
  have hmul := h.mul_zpow (-16)
  rwa [show x * (2 : ℚ) ^ (-16 : ℤ) = x / 65536 by norm_num [div_eq_mul_inv]] at hmul

lemma toFloat_bounds {x lo hi : ℚ} (h0 : 0 ≤ lo) (hlo : lo ≤ x) (hhi : x ≤ hi) :
    lo * (1 - 1 / 2 ^ 24) ≤ toFloat x ∧ toFloat x ≤ hi * (1 + 1 / 2 ^ 24) := by
  have herr := abs_roundTo_sub_le 24 x
  rw [abs_of_nonneg (h0.trans hlo), ← toFloat] at herr
  obtain ⟨h1, h2⟩ := abs_le.mp herr
  constructor <;> linarith

section Intensity

variable {d : Nat}

/-- Where the product with 255 has 24 digits at most, nothing is rounded. -/
lemma truncate_small (h : 255 * d < 2 ^ 24) :
    truncate (toFloat (toFloat (toFloat (d : ℚ) / 65536) * 255)) = (255 * d / 65536 : Nat) := by
  have hrep : ∀ n : Nat, n < 2 ^ 24 → Representable 24 (n : ℚ) := by
    intro n hn
    have hint := representable_intCast (p := 24) (m := n) (by rw [Nat.abs_cast]; omega)
    rwa [Int.cast_natCast] at hint
  have heq : (d : ℚ) / 65536 * 255 = ((255 * d : Nat) : ℚ) / 65536 := by
    push_cast
    ring
  have hexact :
      toFloat (toFloat (toFloat (d : ℚ) / 65536) * 255) = ((255 * d : Nat) : ℚ) / 65536 := by
    unfold toFloat
    rw [roundTo_eq_self (hrep d (by omega)),
      roundTo_eq_self (representable_div (hrep d (by omega))), heq,
      roundTo_eq_self (representable_div (hrep _ h))]
  have hdiv := Nat.div_add_mod (255 * d) 65536
  have hmod := Nat.mod_lt (255 * d) (show 0 < 65536 by decide)
  rw [hexact]
  generalize 255 * d / 65536 = q at *
  generalize 255 * d % 65536 = r at *
  have hcast : ((255 * d : Nat) : ℚ) = 65536 * q + r := by exact_mod_cast hdiv.symm
  have hr : (r : ℚ) < 65536 := by exact_mod_cast hmod
  have hr0 : (0 : ℚ) ≤ r := by positivity
  refine truncate_eq (by positivity) ?_ ?_
  · rw [hcast, le_div_iff₀ (by norm_num)]
    push_cast
    linarith
  · rw [hcast, div_lt_iff₀ (by norm_num)]
    push_cast
    linarith

/-- Elsewhere each of the three roundings loses less than the excess over 255. -/
lemma truncate_large (h : 2 ^ 24 ≤ 255 * d) (hd : d < 2 ^ 31) :
    255 ≤ truncate (toFloat (toFloat (toFloat (d : ℚ) / 65536) * 255)) ∧
      truncate (toFloat (toFloat (toFloat (d : ℚ) / 65536) * 255)) < 2 ^ 31 := by
  have hlo : (2 ^ 24 / 255 : ℚ) ≤ d := by
    rw [div_le_iff₀ (by norm_num)]
    exact_mod_cast (by omega : 2 ^ 24 ≤ d * 255)
  have hhi : (d : ℚ) ≤ 2 ^ 31 := by exact_mod_cast hd.le
  obtain ⟨h1, h1'⟩ := toFloat_bounds (by norm_num) hlo hhi
  have hlo2 : 2 ^ 24 / 255 * (1 - 1 / 2 ^ 24) / 65536 ≤ toFloat (d : ℚ) / 65536 := by linarith
  have hhi2 : toFloat (d : ℚ) / 65536 ≤ 2 ^ 31 * (1 + 1 / 2 ^ 24) / 65536 := by linarith
  obtain ⟨h2, h2'⟩ := toFloat_bounds (by norm_num) hlo2 hhi2
  have hlo3 : 2 ^ 24 / 255 * (1 - 1 / 2 ^ 24) / 65536 * (1 - 1 / 2 ^ 24) * 255 ≤
      toFloat (toFloat (d : ℚ) / 65536) * 255 := by linarith
  have hhi3 : toFloat (toFloat (d : ℚ) / 65536) * 255 ≤
      2 ^ 31 * (1 + 1 / 2 ^ 24) / 65536 * (1 + 1 / 2 ^ 24) * 255 := by linarith
  obtain ⟨h3, h3'⟩ := toFloat_bounds (by norm_num) hlo3 hhi3
  generalize toFloat (toFloat (toFloat (d : ℚ) / 65536) * 255) = f at *
  have hf : (255 : ℚ) ≤ f := le_trans (by norm_num) h3
  have hf' : f < 2 ^ 31 := h3'.trans_lt (by norm_num)
  rw [truncate_of_nonneg (by linarith)]
  exact ⟨Int.le_floor.mpr (by exact_mod_cast hf), Int.floor_lt.mpr (by exact_mod_cast hf')⟩

/-- The limited intensity, without rounding. -/
lemma intensity_eq {dotProduct : Int32} (hd : dotProduct.toInt = d) :
    (if intensity dotProduct > 255 then 255 else intensity dotProduct).toInt =
      (min 255 (255 * d / 65536) : Nat) := by
  have hrange := dotProduct.toInt_lt
  rw [hd] at hrange
  obtain ⟨v, hv, hmin, htrunc⟩ : ∃ v : Nat, v < 2 ^ 31 ∧ min 255 v = min 255 (255 * d / 65536) ∧
      truncate (toFloat (fixedToFloat dotProduct * 255)) = v := by
    unfold fixedToFloat
    rw [hd, Int.cast_natCast]
    rcases Nat.lt_or_ge (255 * d) (2 ^ 24) with hsmall | hlarge
    · exact ⟨_, by omega, rfl, truncate_small hsmall⟩
    · obtain ⟨hlo, hhi⟩ := truncate_large hlarge (by omega)
      obtain ⟨v, hv⟩ := Int.eq_ofNat_of_zero_le ((show (0 : Int) ≤ 255 by decide).trans hlo)
      exact ⟨v, by omega, by omega, hv⟩
  have hint : (intensity dotProduct).toInt = v := by
    unfold intensity
    rw [htrunc]
    exact Int32.toInt_ofInt_of_le (by omega) (by omega)
  have hlimit : (255 : Int32).toInt = 255 := by decide
  rw [← hmin]
  split
  · next hgt =>
    rw [gt_iff_lt, Int32.lt_iff_toInt_lt, hlimit, hint] at hgt
    rw [hlimit]
    omega
  · next hle =>
    rw [gt_iff_lt, Int32.lt_iff_toInt_lt, hlimit, hint] at hle
    rw [hint]
    omega

end Intensity

/-! ## Channels -/

lemma and_byte (x : Int32) : (x &&& 0xFF).toBitVec.toNat = x.toBitVec.toNat % 256 := by
  rw [Int32.toBitVec_and, BitVec.toNat_and]
  exact Nat.and_two_pow_sub_one_eq_mod _ 8

lemma and_byte_toInt (x : Int32) : (x &&& 0xFF).toInt = (x.toBitVec.toNat % 256 : Nat) := by
  rw [← Int32.toInt_toBitVec, BitVec.toInt_eq_toNat_of_lt, and_byte]
  rw [and_byte]
  omega

lemma channel_toNat (color k : Int32) :
    (channel color k).toNat = (color >>> k).toBitVec.toNat % 256 := by
  have h : (channel color k).toNat = ((color >>> k) &&& 0xFF).toBitVec.toNat % 2 ^ 8 := rfl
  rw [h, and_byte]
  omega

/-- A lighted channel is a byte again. -/
lemma shadeChannel_toInt {c i : Int32} {n m : Nat} (hc : c.toInt = n) (hi : i.toInt = m)
    (hn : n < 256) (hm : m ≤ 255) :
    (shadeChannel c i).toInt = (min 255 (n * m / 255 + 30) : Nat) := by
  have hprod : n * m ≤ 255 * 255 := Nat.mul_le_mul (by omega) hm
  have hmul : (c * i).toInt = (n * m : Nat) := by
    rw [Int32.toInt_mul, hc, hi, ← Nat.cast_mul]
    exact Int.bmod_eq_of_le (by omega) (by omega)
  have hdiv : (c * i / 255).toInt = (n * m / 255 : Nat) := by
    rw [Int32.toInt_div_of_ne_right _ _ (by decide), hmul]
    rfl
  have hquot : n * m / 255 ≤ 255 := by omega
  have hadd : (c * i / 255 + 30).toInt = (n * m / 255 + 30 : Nat) := by
    have hthirty : (30 : Int32).toInt = 30 := by decide
    rw [Int32.toInt_add, hdiv, hthirty]
    exact Int.bmod_eq_of_le (by omega) (by omega)
  have hlimit : (255 : Int32).toInt = 255 := by decide
  unfold shadeChannel
  simp only
  split
  · next hgt =>
    rw [gt_iff_lt, Int32.lt_iff_toInt_lt, hlimit, hadd] at hgt
    rw [hlimit]
    omega
  · next hle =>
    rw [gt_iff_lt, Int32.lt_iff_toInt_lt, hlimit, hadd] at hle
    rw [hadd]
    omega

/-- Three bytes in one number. -/
lemma pack_toNat {r g b : Int32} {n m k : Nat} (hr : r.toInt = n) (hg : g.toInt = m)
    (hb : b.toInt = k) (hn : n < 256) (hm : m < 256) (hk : k < 256) :
    ((r <<< 16) ||| (g <<< 8) ||| b).toBitVec.toNat = n * 2 ^ 16 + m * 2 ^ 8 + k := by
  have hword : ∀ {a : Int32} {l : Nat}, a.toInt = l → l < 256 → a.toBitVec.toNat = l := by
    intro a l ha hl
    rw [← Int32.toInt_toBitVec, BitVec.toInt_eq_toNat_cond] at ha
    have hlt := a.toBitVec.isLt
    split at ha <;> omega
  have h16 : (16 : Int32).toBitVec.smod 32 = 16#32 := by decide
  have h8 : (8 : Int32).toBitVec.smod 32 = 8#32 := by decide
  rw [Int32.toBitVec_or, Int32.toBitVec_or, Int32.toBitVec_shiftLeft, Int32.toBitVec_shiftLeft, h16,
    h8, BitVec.toNat_or, BitVec.toNat_or, BitVec.shiftLeft_eq', BitVec.shiftLeft_eq',
    BitVec.toNat_shiftLeft, BitVec.toNat_shiftLeft, hword hr hn, hword hg hm, hword hb hk]
  have e16 : n <<< (16#32).toNat % 2 ^ 32 = n <<< 16 :=
    Nat.mod_eq_of_lt (show n <<< 16 < 2 ^ 32 by rw [Nat.shiftLeft_eq]; omega)
  have e8 : m <<< (8#32).toNat % 2 ^ 32 = m <<< 8 :=
    Nat.mod_eq_of_lt (show m <<< 8 < 2 ^ 32 by rw [Nat.shiftLeft_eq]; omega)
  rw [e16, e8, ← Nat.shiftLeft_add_eq_or_of_lt (by rw [Nat.shiftLeft_eq]; omega), Nat.shiftLeft_eq,
    Nat.shiftLeft_eq]
  have hlast := Nat.shiftLeft_add_eq_or_of_lt (show k < 2 ^ 8 from hk) (n * 2 ^ 8 + m)
  rw [Nat.shiftLeft_eq] at hlast
  have hsum : (n * 2 ^ 8 + m) * 2 ^ 8 = n * 2 ^ 16 + m * 2 ^ 8 := by ring
  rw [hsum] at hlast
  exact hlast.symm

/-- A channel of a number that is not negative. -/
lemma channel_of_nat {color : Int32} {c : Nat} (hc : color.toBitVec.toNat = c) (hlt : c < 2 ^ 31)
    {k : Int32} {i : Nat} (hk : k.toBitVec.smod 32 = BitVec.ofNat 32 i) (hi : i < 32) :
    channel color k = UInt8.ofNat (c / 2 ^ i) := by
  have hmsb : color.toBitVec.msb = false := by
    rw [BitVec.msb_eq_false_iff_two_mul_lt, hc]
    omega
  have hshift : (color >>> k).toBitVec.toNat = c / 2 ^ i := by
    rw [Int32.toBitVec_shiftRight, hk, BitVec.sshiftRight', BitVec.sshiftRight_eq_of_msb_false hmsb,
      BitVec.toNat_ushiftRight, hc, Nat.shiftRight_eq_div_pow, BitVec.toNat_ofNat,
      Nat.mod_eq_of_lt (by omega)]
  apply UInt8.toNat_inj.mp
  rw [channel_toNat, hshift, UInt8.toNat_ofNat']

/-- The channels of a packed color. -/
lemma rgb_pack {r g b : Int32} {n m k : Nat} (hr : r.toInt = n) (hg : g.toInt = m)
    (hb : b.toInt = k) (hn : n < 256) (hm : m < 256) (hk : k < 256) :
    rgb ((r <<< 16) ||| (g <<< 8) ||| b) = [UInt8.ofNat n, UInt8.ofNat m, UInt8.ofNat k] := by
  have hpack := pack_toNat hr hg hb hn hm hk
  have hsmall : n * 2 ^ 16 + m * 2 ^ 8 + k < 2 ^ 31 := by omega
  unfold rgb
  rw [channel_of_nat hpack hsmall (i := 16) (by decide) (by decide),
    channel_of_nat hpack hsmall (i := 8) (by decide) (by decide),
    channel_of_nat hpack hsmall (i := 0) (by decide) (by decide)]
  have hbyte : ∀ {a c : Nat}, a % 256 = c % 256 → UInt8.ofNat a = UInt8.ofNat c := by
    intro a c hac
    apply UInt8.toNat_inj.mp
    rw [UInt8.toNat_ofNat', UInt8.toNat_ofNat']
    exact hac
  rw [hbyte (show (n * 2 ^ 16 + m * 2 ^ 8 + k) / 2 ^ 16 % 256 = n % 256 by omega),
    hbyte (show (n * 2 ^ 16 + m * 2 ^ 8 + k) / 2 ^ 8 % 256 = m % 256 by omega),
    hbyte (show (n * 2 ^ 16 + m * 2 ^ 8 + k) / 2 ^ 0 % 256 = k % 256 by omega)]

/-- What is left of a channel whose surface has the cosine `d / 65536` to the light. -/
def litChannel (d : Nat) (c : UInt8) : UInt8 :=
  UInt8.ofNat (min 255 (c.toNat * min 255 (255 * d / 65536) / 255 + 30))

/-- `shade_pixel` computes in `float`, but does what integers would have done: each channel is
multiplied by the cosine if that is positive, 30 is added, and nothing exceeds 255. A miss has the
color of the sky. -/
theorem shade_pixel_exact (hit : Hit) (lightDir : Vec3) :
    rgb (shadePixel hit lightDir) =
      if hit.hit = 0 then [0x20, 0x20, 0x40]
      else (rgb hit.color).map (litChannel (vec3Dot hit.normal lightDir).toInt.toNat) := by
  unfold shadePixel
  split
  · decide
  · simp only
    have hdot : (if vec3Dot hit.normal lightDir < 0 then 0 else vec3Dot hit.normal lightDir).toInt =
        (vec3Dot hit.normal lightDir).toInt.toNat := by
      have hzero : (0 : Int32).toInt = 0 := by decide
      split
      · next hneg =>
        rw [Int32.lt_iff_toInt_lt, hzero] at hneg
        omega
      · next hpos =>
        rw [Int32.lt_iff_toInt_lt, hzero] at hpos
        omega
    have hint := intensity_eq hdot
    have hmax : min 255 (255 * (vec3Dot hit.normal lightDir).toInt.toNat / 65536) ≤ 255 :=
      Nat.min_le_left _ _
    have hbyte : ∀ x : Int32, x.toBitVec.toNat % 256 < 256 := fun x => Nat.mod_lt _ (by decide)
    have hchannel := fun x : Int32 =>
      shadeChannel_toInt (and_byte_toInt x) hint (hbyte x) hmax
    have hless : ∀ a : Nat, min 255 a < 256 := fun a => by omega
    rw [rgb_pack (hchannel _) (hchannel _) (hchannel _) (hless _) (hless _) (hless _)]
    have hshift0 : hit.color >>> 0 = hit.color := by
      apply Int32.toBitVec_inj.mp
      rw [Int32.toBitVec_shiftRight]
      simp
    simp only [rgb, List.map_cons, List.map_nil, litChannel, channel_toNat, hshift0]

end Hydra.Raytracer
