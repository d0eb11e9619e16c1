import Mathlib

/-!
# Rounding

Binary floating point with `p` digits, as exact arithmetic followed by rounding to the nearest
number of the format, to the even one of two. Exponents have no bounds: overflow and subnormal
numbers are left out. Numbers of the format are kept (`roundTo_eq_self`), and the relative error of
the others is `2 ^ -p` at most (`abs_roundTo_sub_le`).
-/

namespace Rounding

/-- The nearest integer, the even one of two. -/
def nearest (x : ℚ) : ℤ :=
  if Int.fract x < 1 / 2 then ⌊x⌋
  else if 1 / 2 < Int.fract x then ⌊x⌋ + 1
  else ⌊x⌋ + ⌊x⌋ % 2

/-- The exponent of the last of `p` digits. -/
def lastExponent (p : ℕ) (x : ℚ) : ℤ := Int.log 2 |x| - (p - 1)

/-- `x` rounded to `p` digits. -/
def roundTo (p : ℕ) (x : ℚ) : ℚ := nearest (x / 2 ^ lastExponent p x) * 2 ^ lastExponent p x

/-- Conversion to an integer cuts off the fraction. -/
def truncate (x : ℚ) : ℤ := x.num.tdiv x.den

/-- `x` has `p` binary digits at most. -/
def Representable (p : ℕ) (x : ℚ) : Prop := ∃ m e : ℤ, |m| < 2 ^ p ∧ x = m * 2 ^ e

/-! ## Integers -/

lemma nearest_intCast (k : ℤ) : nearest k = k := by
  simp [nearest]

lemma abs_nearest_sub_le (x : ℚ) : |nearest x - x| ≤ 1 / 2 := by
  have hx := Int.floor_add_fract x
  have hnonneg := Int.fract_nonneg x
  have hlt := Int.fract_lt_one x
  unfold nearest
  rw [abs_le]
  split
  · constructor <;> linarith
  · split
    · push_cast
      constructor <;> linarith
    · -- half way between two integers
      rcases Int.emod_two_eq_zero_or_one ⌊x⌋ with heven | hodd
      · rw [heven, add_zero]
        constructor <;> linarith
      · rw [hodd]
        push_cast
        constructor <;> linarith

/-- Both signs are treated alike. -/
lemma nearest_neg (x : ℚ) : nearest (-x) = -nearest x := by
  rcases eq_or_ne (Int.fract x) 0 with h0 | hne
  · obtain ⟨k, rfl⟩ : ∃ k : ℤ, x = k := ⟨⌊x⌋, (Int.fract_eq_zero_iff.mp h0).elim fun k hk => by
      rw [← hk, Int.floor_intCast]⟩
    rw [← Int.cast_neg, nearest_intCast, nearest_intCast]
  · have hfract : Int.fract (-x) = 1 - Int.fract x := Int.fract_neg hne
    have hfloor : ⌊-x⌋ = -⌊x⌋ - 1 := by
      have hx := Int.floor_add_fract x
      have hx' := Int.floor_add_fract (-x)
      have hsum : ((⌊-x⌋ + ⌊x⌋ : ℤ) : ℚ) = ((-1 : ℤ) : ℚ) := by
        push_cast
        linarith
      have hint := Int.cast_injective hsum
      omega
    unfold nearest
    rw [hfract, hfloor]
    rcases lt_trichotomy (Int.fract x) (1 / 2) with hlt | heq | hgt
    · rw [if_neg (by linarith), if_pos (by linarith), if_pos hlt]
      ring
    · rw [if_neg (by linarith), if_neg (by linarith), if_neg (by linarith), if_neg (by linarith)]
      omega
    · rw [if_pos (by linarith), if_neg (by linarith), if_pos hgt]
      ring

lemma truncate_of_nonneg {x : ℚ} (h : 0 ≤ x) : truncate x = ⌊x⌋ := by
  rw [truncate, Int.tdiv_eq_ediv_of_nonneg (Rat.num_nonneg.mpr h), Rat.floor_def']

lemma truncate_neg (x : ℚ) : truncate (-x) = -truncate x := by
  rw [truncate, truncate, Rat.neg_num, Rat.neg_den, Int.neg_tdiv]

/-- The number next to zero, of those that differ by less than one. -/
lemma truncate_eq {x : ℚ} {k : ℤ} (hk : 0 ≤ k) (hlo : k ≤ x) (hhi : x < k + 1) :
    truncate x = k := by
  rw [truncate_of_nonneg ((Int.cast_nonneg hk).trans hlo)]
  exact Int.floor_eq_iff.mpr ⟨hlo, hhi⟩

/-! ## Numbers of the format -/

section Format

variable {p : ℕ} {x : ℚ}

lemma representable_intCast {m : ℤ} (h : |m| < 2 ^ p) : Representable p (m : ℚ) :=
  ⟨m, 0, h, by rw [zpow_zero, mul_one]⟩

/-- Powers of two only move the point. -/
lemma Representable.mul_zpow (h : Representable p x) (e : ℤ) : Representable p (x * 2 ^ e) := by
  obtain ⟨m, e', hm, rfl⟩ := h
  exact ⟨m, e' + e, hm, by rw [mul_assoc, zpow_add₀ two_ne_zero]⟩

/-- The digits of a number of the format end at the exponent of its last digit. -/
lemma Representable.exists_int (h : Representable p x) (hx : x ≠ 0) :
    ∃ k : ℤ, x = k * 2 ^ lastExponent p x := by
  obtain ⟨m, e, hm, rfl⟩ := h
  have hm0 : m ≠ 0 := by
    rintro rfl
    exact hx (by simp)
  have htwo : ((2 : ℕ) : ℚ) = 2 := by norm_num
  -- the leading digit of `m * 2 ^ e` stands at `e + p - 1` at most
  have habs : |(m * 2 ^ e : ℚ)| < 2 ^ (p + e : ℤ) := by
    rw [abs_mul, abs_of_pos (zpow_pos (two_pos : (0 : ℚ) < 2) e), zpow_add₀ two_ne_zero,
      zpow_natCast]
    refine mul_lt_mul_of_pos_right ?_ (zpow_pos two_pos e)
    exact_mod_cast hm
  have hlog : Int.log 2 |(m * 2 ^ e : ℚ)| < p + e := by
    refine (Int.lt_zpow_iff_log_lt one_lt_two (abs_pos.mpr hx)).mp ?_
    rwa [htwo]
  have hle : lastExponent p (m * 2 ^ e) ≤ e := by
    unfold lastExponent
    omega
  obtain ⟨d, hd⟩ := Int.le.dest hle
  refine ⟨m * 2 ^ d, ?_⟩
  conv_lhs => rw [← hd]
  rw [zpow_add₀ two_ne_zero, zpow_natCast]
  push_cast
  ring

/-- Rounding keeps the numbers of the format. -/
theorem roundTo_eq_self (h : Representable p x) : roundTo p x = x := by
  rcases eq_or_ne x 0 with rfl | hx
  · simp [roundTo, nearest]
  · obtain ⟨k, hk⟩ := h.exists_int hx
    have hpow : (2 : ℚ) ^ lastExponent p x ≠ 0 := zpow_ne_zero _ two_ne_zero
    unfold roundTo
    conv_rhs => rw [hk]
    rw [show x / 2 ^ lastExponent p x = k by rw [div_eq_iff hpow]; exact hk, nearest_intCast]

lemma roundTo_neg (p : ℕ) (x : ℚ) : roundTo p (-x) = -roundTo p x := by
  have hexp : lastExponent p (-x) = lastExponent p x := by
    unfold lastExponent
    rw [abs_neg]
  unfold roundTo
  rw [hexp, neg_div, nearest_neg, Int.cast_neg, neg_mul]

/-- What is rounded is a number of the format. -/
theorem representable_roundTo (hp : 0 < p) (x : ℚ) : Representable p (roundTo p x) := by
  rcases eq_or_ne x 0 with rfl | hx
  · exact ⟨0, 0, by simp, by simp [roundTo, nearest]⟩
  · have hpow : (0 : ℚ) < 2 ^ lastExponent p x := zpow_pos two_pos _
    have hlt : |x / 2 ^ lastExponent p x| < 2 ^ p := by
      have hlog := Int.lt_zpow_succ_log_self (R := ℚ) one_lt_two |x|
      rw [abs_div, abs_of_pos hpow, div_lt_iff₀ hpow, ← zpow_natCast, ← zpow_add₀ two_ne_zero]
      refine hlog.trans_eq ?_
      unfold lastExponent
      rw [Nat.cast_ofNat]
      congr 1
      ring
    have hle : |nearest (x / 2 ^ lastExponent p x)| ≤ 2 ^ p := by
      have herr := abs_le.mp (abs_nearest_sub_le (x / 2 ^ lastExponent p x))
      obtain ⟨hlo, hhi⟩ := abs_lt.mp hlt
      have hint : ((|nearest (x / 2 ^ lastExponent p x)| : ℤ) : ℚ) < ((2 ^ p + 1 : ℤ) : ℚ) := by
        push_cast
        rw [abs_lt]
        constructor <;> linarith
      have hcast := Int.cast_lt.mp hint
      omega
    unfold roundTo
    rcases hle.lt_or_eq with hless | heq
    · exact ⟨_, _, hless, rfl⟩
    · -- the digits carried over to the next power of two
      obtain ⟨k, rfl⟩ : ∃ k, p = k + 1 := ⟨p - 1, by omega⟩
      have hhalf : |(2 : ℤ) ^ k| < 2 ^ (k + 1) := by
        rw [abs_of_pos (by positivity), pow_succ]
        have hk : (0 : ℤ) < 2 ^ k := by positivity
        omega
      rcases abs_eq (by positivity) |>.mp heq with h | h
      · refine ⟨2 ^ k, lastExponent (k + 1) x + 1, hhalf, ?_⟩
        rw [h, zpow_add₀ two_ne_zero, zpow_one]
        push_cast
        ring
      · refine ⟨-2 ^ k, lastExponent (k + 1) x + 1, by rwa [abs_neg], ?_⟩
        rw [h, zpow_add₀ two_ne_zero, zpow_one]
        push_cast
        ring

/-- The error is half of the last digit at most. -/
theorem abs_roundTo_sub_le (p : ℕ) (x : ℚ) : |roundTo p x - x| ≤ |x| / 2 ^ p := by
  rcases eq_or_ne x 0 with rfl | hx
  · simp [roundTo, nearest]
  · have hpow : (0 : ℚ) < 2 ^ lastExponent p x := zpow_pos two_pos _
    have hlead : (2 : ℚ) ^ Int.log 2 |x| ≤ |x| := by
      have hle := Int.zpow_log_le_self (R := ℚ) one_lt_two (abs_pos.mpr hx)
      exact_mod_cast hle
    have herr := mul_le_mul_of_nonneg_right (abs_nearest_sub_le (x / 2 ^ lastExponent p x)) hpow.le
    rw [← abs_of_pos hpow, ← abs_mul, abs_of_pos hpow, sub_mul, div_mul_cancel₀ _ hpow.ne'] at herr
    calc |roundTo p x - x| ≤ 1 / 2 * 2 ^ lastExponent p x := herr
      _ = 2 ^ Int.log 2 |x| / 2 ^ p := by
        have hexp : Int.log 2 |x| = lastExponent p x + p - 1 := by
          unfold lastExponent
          ring
        rw [hexp, zpow_sub₀ two_ne_zero, zpow_add₀ two_ne_zero, zpow_natCast, zpow_one]
        field_simp
      _ ≤ |x| / 2 ^ p := by gcongr

end Format

end Rounding
