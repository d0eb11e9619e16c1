import Mathlib

/-!
# Newton's method for square roots

The steps of Newton's method for the integer square root. Whatever it starts from, one step does not
lead below the root (`sqrt_le_step`), and from there on the quotient of a step is at most a little
above the root (`div_le`), so nothing grows any more.

How many steps are needed depends on the start. `basin x k` is the largest number from which `k`
steps lead to the root or to one more (`iterate_le_iff`). Without the roundings every step squares
the `place` of the number as seen from the root; this bounds the steps from both sides
(`iterate_le_of_place`, `lt_iterate_of_place`).
-/

namespace Newton

/-- One step towards the root of `x`. -/
def step (x r : Nat) : Nat := (r + x / r) / 2

variable {x r : Nat}

lemma sqrt_le_step (hr : 0 < r) : Nat.sqrt x ≤ step x r := by
  have hle : Nat.sqrt x * Nat.sqrt x ≤ x := Nat.sqrt_le x
  have hlt : x < r * (x / r + 1) := by
    rw [Nat.mul_add, Nat.mul_one]
    exact Nat.lt_mul_div_succ x hr
  -- the arithmetic mean of `r` and `x / r + 1` is above their geometric mean
  have hmean : 2 * Nat.sqrt x < r + (x / r + 1) := by
    refine lt_of_pow_lt_pow_left₀ 2 (Nat.zero_le _) ?_
    calc (2 * Nat.sqrt x) ^ 2 = 4 * (Nat.sqrt x * Nat.sqrt x) := by ring
      _ ≤ 4 * x := Nat.mul_le_mul_left 4 hle
      _ < 4 * (r * (x / r + 1)) := Nat.mul_lt_mul_of_pos_left hlt (by decide)
      _ = 4 * r * (x / r + 1) := (Nat.mul_assoc 4 r _).symm
      _ ≤ (r + (x / r + 1)) ^ 2 := four_mul_le_sq_add r (x / r + 1)
  unfold step
  omega

lemma div_le (hr : Nat.sqrt x ≤ r) (hpos : 0 < Nat.sqrt x) : x / r ≤ Nat.sqrt x + 2 := by
  have hlt : x < (Nat.sqrt x + 1) * (Nat.sqrt x + 1) := Nat.lt_succ_sqrt x
  calc x / r ≤ x / Nat.sqrt x := Nat.div_le_div_left hr hpos
    _ ≤ Nat.sqrt x + 2 := by
      refine Nat.lt_succ_iff.mp ((Nat.div_lt_iff_lt_mul hpos).mpr ?_)
      nlinarith

/-! ## How far a number of steps reaches -/

/-- The largest number from which `k` steps lead to the root of `x` or to one more. -/
def basin (x : Nat) : Nat → Nat
  | 0 => Nat.sqrt x + 1
  | k + 1 => basin x k + 1 + Nat.sqrt ((basin x k + 1) ^ 2 - (x + 1))

lemma sqrt_lt_basin (x k : Nat) : Nat.sqrt x < basin x k := by
  induction k with
  | zero => exact Nat.lt_succ_self _
  | succ k ih => exact ih.trans_le ((Nat.le_add_right _ 1).trans (Nat.le_add_right _ _))

/-- One step from `r` stays below `b` when the parabola `r * (2 * b + 2 - r)` is above `x`. -/
lemma step_le_iff_lt_mul {b : Nat} (hr : 0 < r) : step x r ≤ b ↔ x < (2 * b + 2 - r) * r := by
  rw [← Nat.div_lt_iff_lt_mul hr]
  unfold step
  generalize x / r = d
  omega

lemma step_le_iff {b : Nat} (hpos : 0 < Nat.sqrt x) (hr : Nat.sqrt x ≤ r) (hb : Nat.sqrt x < b) :
    step x r ≤ b ↔ r ≤ b + 1 + Nat.sqrt ((b + 1) ^ 2 - (x + 1)) := by
  have hlt : x < (Nat.sqrt x + 1) * (Nat.sqrt x + 1) := Nat.lt_succ_sqrt x
  generalize Nat.sqrt x = m at *
  have hroom : x + 1 ≤ (b + 1) ^ 2 := by nlinarith
  rw [step_le_iff_lt_mul (hpos.trans_le hr)]
  -- the top of the parabola is at `b + 1`, its value there `(b + 1) ^ 2`
  rcases Nat.lt_or_ge (b + 1) r with hlarge | hsmall
  · obtain ⟨d, rfl⟩ := Nat.exists_eq_add_of_le hlarge.le
    have hroot : d ≤ Nat.sqrt ((b + 1) ^ 2 - (x + 1)) ↔ d * d + (x + 1) ≤ (b + 1) ^ 2 := by
      rw [Nat.le_sqrt, Nat.le_sub_iff_add_le hroom]
    rw [Nat.add_le_add_iff_left, hroot]
    rcases Nat.le_total d (b + 1) with hd | hd
    · obtain ⟨e, he⟩ := Nat.exists_eq_add_of_le hd
      have hsub : 2 * b + 2 - (b + 1 + d) = e := by omega
      rw [hsub, he]
      constructor
      · intro h
        nlinarith
      · intro h
        nlinarith
    · have hsub : 2 * b + 2 - (b + 1 + d) = 0 := by omega
      rw [hsub, Nat.zero_mul]
      refine iff_of_false (Nat.not_lt_zero x) ?_
      nlinarith
  -- on this side it is above its value at the root, which is above `x`
  · refine iff_of_true ?_ (hsmall.trans (Nat.le_add_right _ _))
    obtain ⟨e, he⟩ := Nat.exists_eq_add_of_le (hsmall.trans (by omega : b + 1 ≤ 2 * b + 2))
    have hsub : 2 * b + 2 - r = e := by omega
    rw [hsub]
    nlinarith

/-- `k` steps reach the root or one more exactly from the numbers up to `basin`. -/
theorem iterate_le_iff (hpos : 0 < Nat.sqrt x) (k : Nat) (hr : Nat.sqrt x ≤ r) :
    (step x)^[k] r ≤ Nat.sqrt x + 1 ↔ r ≤ basin x k := by
  induction k generalizing r with
  | zero => exact Iff.rfl
  | succ k ih =>
    rw [Function.iterate_succ_apply, ih (sqrt_le_step (hpos.trans_le hr)),
      step_le_iff hpos hr (sqrt_lt_basin x k)]
    rfl

/-! ## How fast it converges

Where `r` is seen from `M`: 0 at `M` itself, near 1 far above it and near -1 far below it. A step of
Newton's method for the root of `M ^ 2` squares this number. -/

/-- The place of `r` as seen from `M`. -/
def place (M r : ℚ) : ℚ := (r - M) / (r + M)

variable {M : ℚ}

lemma place_eq {r : ℚ} (h : r + M ≠ 0) : place M r = 1 - 2 * M / (r + M) := by
  unfold place
  field_simp
  ring

lemma place_le_place {r r' : ℚ} (hM : 0 ≤ M) (hpos : 0 < r + M) (hle : r ≤ r') :
    place M r ≤ place M r' := by
  rw [place_eq hpos.ne', place_eq (by linarith)]
  gcongr

lemma place_nonneg {r : ℚ} (hM : 0 ≤ M) (hle : M ≤ r) : 0 ≤ place M r :=
  div_nonneg (sub_nonneg.mpr hle) (by linarith)

lemma place_nonpos {r : ℚ} (hM : 0 ≤ M) (hr : 0 ≤ r) (hle : r ≤ M) : place M r ≤ 0 :=
  div_nonpos_of_nonpos_of_nonneg (sub_nonpos.mpr hle) (by linarith)

/-- The exact step squares the place. -/
lemma place_mean {r : ℚ} (hr : 0 < r) (hM : 0 ≤ M) :
    place M ((r + M ^ 2 / r) / 2) = place M r ^ 2 := by
  have hsum : r + M ≠ 0 := by positivity
  have hsq : (r + M ^ 2 / r) / 2 + M ≠ 0 := by positivity
  have hsq' : r * r + M ^ 2 + M * 2 * r ≠ 0 := by positivity
  unfold place
  field_simp
  ring

lemma step_le_mean (x r : Nat) : (step x r : ℚ) ≤ (r + (x : ℚ) / r) / 2 := by
  have hhalf : ((step x r : Nat) : ℚ) ≤ ((r + x / r : Nat) : ℚ) / (2 : Nat) := Nat.cast_div_le
  have hquot : ((x / r : Nat) : ℚ) ≤ (x : ℚ) / r := Nat.cast_div_le
  push_cast at hhalf
  linarith

/-- A step with `x` up to `M ^ 2` leads at most to the square of the place. -/
lemma place_step_le (hr : 0 < r) (hM : 0 < M) (hx : x ≤ M ^ 2) :
    place M (step x r) ≤ place M r ^ 2 := by
  have hpos : (0 : ℚ) < r := by exact_mod_cast hr
  have hmean : (step x r : ℚ) ≤ (r + M ^ 2 / r) / 2 := by
    refine (step_le_mean x r).trans ?_
    gcongr
  rw [← place_mean hpos hM.le]
  exact place_le_place hM.le (by positivity) hmean

/-- The root and one more are not left again. -/
lemma step_le_of_le (hpos : 0 < Nat.sqrt x) (hr : Nat.sqrt x ≤ r) (hle : r ≤ Nat.sqrt x + 1) :
    step x r ≤ Nat.sqrt x + 1 := by
  rw [step_le_iff hpos hr (Nat.lt_succ_self _), Nat.add_assoc]
  exact hle.trans (Nat.le_add_right _ _)

lemma sqrt_le_iterate (hpos : 0 < Nat.sqrt x) (hr : 0 < r) (k : Nat) :
    Nat.sqrt x ≤ (step x)^[k + 1] r ∧ 0 < (step x)^[k] r := by
  induction k with
  | zero => exact ⟨sqrt_le_step hr, hr⟩
  | succ k ih =>
    have hnext := hpos.trans_le ih.1
    refine ⟨?_, hnext⟩
    rw [Function.iterate_succ_apply']
    exact sqrt_le_step hnext

lemma place_iterate_le (hpos : 0 < Nat.sqrt x) (hr : 0 < r) (k : Nat) :
    place (Nat.sqrt x + 1) ((step x)^[k] r : Nat) ≤ place (Nat.sqrt x + 1) r ^ 2 ^ k := by
  have hM : (0 : ℚ) < Nat.sqrt x + 1 := by positivity
  have hx : (x : ℚ) ≤ (Nat.sqrt x + 1) ^ 2 := by exact_mod_cast (Nat.lt_succ_sqrt' x).le
  induction k with
  | zero => exact (pow_one _).ge
  | succ k ih =>
    have hs := sqrt_le_iterate hpos hr k
    have hstep := place_step_le hs.2 hM hx
    rw [Function.iterate_succ_apply', pow_succ, pow_mul]
    rcases Nat.lt_or_ge ((step x)^[k] r) (Nat.sqrt x + 1) with hlt | hge
    · cases k with
      | zero => simpa using hstep
      | succ k =>
        have hroot := step_le_of_le hpos (sqrt_le_iterate hpos hr k).1 hlt.le
        refine (place_nonpos hM.le (Nat.cast_nonneg _) (by exact_mod_cast hroot)).trans ?_
        positivity
    · exact hstep.trans (pow_le_pow_left₀ (place_nonneg hM.le (by exact_mod_cast hge)) ih 2)

/-- Enough steps lead to the root or one more. -/
theorem iterate_le_of_place {k : Nat} (hpos : 0 < Nat.sqrt x) (hr : 0 < r)
    (hk : place (Nat.sqrt x + 1) r ^ 2 ^ k * (2 * Nat.sqrt x + 3) < 1) :
    (step x)^[k] r ≤ Nat.sqrt x + 1 := by
  by_contra hlt
  have hM : (0 : ℚ) ≤ Nat.sqrt x + 1 := by positivity
  have hfar : ((Nat.sqrt x : ℚ) + 2) ≤ ((step x)^[k] r : Nat) := by exact_mod_cast not_le.mp hlt
  have hplace : 1 / (2 * (Nat.sqrt x : ℚ) + 3) ≤ place (Nat.sqrt x + 1) ((step x)^[k] r : Nat) := by
    refine le_of_eq_of_le ?_ (place_le_place hM (by positivity) hfar)
    unfold place
    ring
  have hle := hplace.trans (place_iterate_le hpos hr k)
  rw [div_le_iff₀ (by positivity)] at hle
  exact absurd hk (not_lt.mpr hle)

/-! The other direction: the roundings of the steps take something away each time. -/

lemma mean_le_step (hr : 0 < r) : (r + (x : ℚ) / r) / 2 - 1 ≤ step x r := by
  have hpos : (0 : ℚ) < r := by exact_mod_cast hr
  have hquot : (x : ℚ) / r ≤ (x / r : Nat) + 1 := by
    rw [div_le_iff₀ hpos]
    exact_mod_cast (Nat.lt_mul_of_div_lt (Nat.lt_succ_self (x / r)) hr).le
  have hhalf : ((r + x / r : Nat) : ℚ) ≤ 2 * (step x r : Nat) + 1 := by
    have hnat : r + x / r ≤ 2 * step x r + 1 := by
      unfold step
      omega
    exact_mod_cast hnat
  push_cast at hhalf
  linarith

lemma le_place_step (hpos : 0 < Nat.sqrt x) (hr : Nat.sqrt x ≤ r) :
    place (Nat.sqrt x) r ^ 2 - 1 / (2 * Nat.sqrt x - 1) ≤ place (Nat.sqrt x) (step x r) := by
  have hx : (Nat.sqrt x : ℚ) ^ 2 ≤ x := by exact_mod_cast Nat.sqrt_le' x
  have hm : (1 : ℚ) ≤ Nat.sqrt x := by exact_mod_cast hpos
  have hrm : (Nat.sqrt x : ℚ) ≤ r := by exact_mod_cast hr
  have hr0 : (0 : ℚ) < r := by linarith
  have hstep := mean_le_step (x := x) (hpos.trans_le hr)
  generalize (Nat.sqrt x : ℚ) = m at *
  have hmean : m ≤ (r + m ^ 2 / r) / 2 := by
    have hdiff : (r + m ^ 2 / r) / 2 - m = (r - m) ^ 2 / (2 * r) := by
      field_simp
      ring
    have hsq : 0 ≤ (r - m) ^ 2 / (2 * r) := by positivity
    linarith
  have hle : (r + m ^ 2 / r) / 2 - 1 ≤ step x r := by
    refine le_trans ?_ hstep
    gcongr
  rw [← place_mean hr0 (by linarith)]
  refine le_trans ?_ (place_le_place (by linarith) (by linarith) hle)
  generalize (r + m ^ 2 / r) / 2 = y at *
  rw [place_eq (by linarith), place_eq (by linarith)]
  have hloss : 2 * m / (y - 1 + m) - 2 * m / (y + m) ≤ 1 / (2 * m - 1) := by
    have hpos' : (0 : ℚ) < y + m := by linarith
    have hpos'' : (0 : ℚ) < y - 1 + m := by linarith
    calc 2 * m / (y - 1 + m) - 2 * m / (y + m) = 2 * m / (y + m) * (1 / (y - 1 + m)) := by
          field_simp
          ring
      _ ≤ 1 * (1 / (2 * m - 1)) := by
          refine mul_le_mul ?_ ?_ (by positivity) zero_le_one
          · rw [div_le_one hpos']
            linarith
          · exact one_div_le_one_div_of_le (by linarith) (by linarith)
      _ = 1 / (2 * m - 1) := one_mul _
  linarith

lemma le_place_iterate (hpos : 0 < Nat.sqrt x) (hr : Nat.sqrt x ≤ r) (k : Nat) :
    place (Nat.sqrt x) r ^ 2 ^ k - (2 ^ k - 1) / (2 * Nat.sqrt x - 1) ≤
      place (Nat.sqrt x) ((step x)^[k] r : Nat) := by
  have hm : (1 : ℚ) ≤ Nat.sqrt x := by exact_mod_cast hpos
  have hroot : ∀ k, Nat.sqrt x ≤ (step x)^[k] r := by
    intro k
    cases k with
    | zero => exact hr
    | succ k => exact (sqrt_le_iterate hpos (hpos.trans_le hr) k).1
  have hnonneg : ∀ s : Nat, Nat.sqrt x ≤ s → 0 ≤ place (Nat.sqrt x) s := fun s hs =>
    place_nonneg (by linarith) (by exact_mod_cast hs)
  have hone : place (Nat.sqrt x) r ≤ 1 := by
    unfold place
    rw [div_le_one (by positivity)]
    linarith
  induction k with
  | zero => simp
  | succ k ih =>
    have hstep := le_place_step hpos (hroot k)
    have hp0 := pow_nonneg (hnonneg r hr) (2 ^ k)
    have hp1 := pow_le_one₀ (n := 2 ^ k) (hnonneg r hr) hone
    have hs0 := hnonneg _ (hroot k)
    rw [Function.iterate_succ_apply', pow_succ, pow_mul]
    generalize place (Nat.sqrt x) r ^ 2 ^ k = p at *
    generalize place (Nat.sqrt x) ((step x)^[k] r : Nat) = s at *
    have hsplit : ((2 : ℚ) ^ (k + 1) - 1) / (2 * Nat.sqrt x - 1) =
        2 * ((2 ^ k - 1) / (2 * Nat.sqrt x - 1)) + 1 / (2 * Nat.sqrt x - 1) := by ring
    have hloss : (0 : ℚ) ≤ (2 ^ k - 1) / (2 * Nat.sqrt x - 1) :=
      div_nonneg (sub_nonneg.mpr (one_le_pow₀ one_le_two)) (by linarith)
    rw [hsplit]
    generalize ((2 : ℚ) ^ k - 1) / (2 * Nat.sqrt x - 1) = e at *
    have hsq : p ^ 2 - 2 * e ≤ s ^ 2 := by
      rcases le_total p e with hpe | hpe
      · nlinarith
      · nlinarith
    linarith

/-- From where this is the place, a step leads neither to the root nor to one more. -/
lemma lt_step_of_place (hr : 0 < r) (hfar : 1 ≤ place (Nat.sqrt x) r ^ 2 * (Nat.sqrt x + 1))
    (hpos : 0 < Nat.sqrt x) : Nat.sqrt x + 1 < step x r := by
  have hx : Nat.sqrt x ^ 2 ≤ x := Nat.sqrt_le' x
  by_contra hle
  have hlt := (step_le_iff_lt_mul hr).mp (not_lt.mp hle)
  have hsmall : r ≤ 2 * (Nat.sqrt x + 1) + 2 := by
    by_contra hlarge
    rw [Nat.sub_eq_zero_of_le (not_le.mp hlarge).le, Nat.zero_mul] at hlt
    exact Nat.not_lt_zero x hlt
  generalize Nat.sqrt x = m at *
  have hlt' : (m : ℚ) ^ 2 < (2 * (m + 1) + 2 - r) * r := by
    have hcast : ((m ^ 2 : Nat) : ℚ) < ((2 * (m + 1) + 2 - r : Nat) * r : Nat) := by
      exact_mod_cast hx.trans_lt hlt
    rw [Nat.cast_mul, Nat.cast_sub hsmall] at hcast
    push_cast at hcast
    exact hcast
  have hm : (0 : ℚ) < m := by exact_mod_cast hpos
  have hr0 : (0 : ℚ) < r := by exact_mod_cast hr
  -- the place says that `(r - m) ^ 2` is at least `4 * r`
  have hsq : (r + m : ℚ) ^ 2 ≤ (r - m) ^ 2 * (m + 1) := by
    unfold place at hfar
    rw [div_pow, div_mul_eq_mul_div, le_div_iff₀ (by positivity), one_mul] at hfar
    exact hfar
  have hdist : (m : ℚ) * (4 * r) ≤ m * (r - m) ^ 2 := by linarith
  have hdist' : (4 : ℚ) * r ≤ (r - m) ^ 2 := le_of_mul_le_mul_left hdist hm
  linarith

/-- From far enough away, `k + 1` steps lead neither to the root nor to one more. -/
theorem lt_iterate_of_place {k : Nat} {p : ℚ} (hpos : 0 < Nat.sqrt x) (hr : Nat.sqrt x ≤ r)
    (hp : 0 ≤ p) (hple : p ≤ place (Nat.sqrt x) r ^ 2 ^ k - (2 ^ k - 1) / (2 * Nat.sqrt x - 1))
    (hfar : 1 ≤ p ^ 2 * (Nat.sqrt x + 1)) : Nat.sqrt x + 1 < (step x)^[k + 1] r := by
  have hplace := hple.trans (le_place_iterate hpos hr k)
  rw [Function.iterate_succ_apply']
  refine lt_step_of_place (sqrt_le_iterate hpos (hpos.trans_le hr) k).2 (hfar.trans ?_) hpos
  gcongr

/-! Places by the ratio of the two numbers. -/

lemma abs_place_le {t r : ℚ} (hM : 0 < M) (hr : 0 < r) (ht : 0 ≤ t) (hle : r ≤ t * M)
    (hge : M ≤ t * r) : |place M r| ≤ (t - 1) / (t + 1) := by
  unfold place
  rw [abs_div, abs_of_pos (add_pos hr hM), div_le_div_iff₀ (add_pos hr hM) (by linarith)]
  rcases abs_cases (r - M) with ⟨habs, _⟩ | ⟨habs, _⟩
  · rw [habs]
    linarith
  · rw [habs]
    linarith

lemma le_place {t r : ℚ} (hM : 0 < M) (ht : 0 ≤ t) (hle : t * M ≤ r) :
    (t - 1) / (t + 1) ≤ place M r := by
  have hr : 0 ≤ r := (mul_nonneg ht hM.le).trans hle
  unfold place
  rw [div_le_div_iff₀ (by linarith) (by linarith)]
  linarith

/-- `k` steps lead to the root or one more if the start and `m + 1` are within a factor of `t` of
each other, and the root is at most `b`, small enough for it. -/
theorem iterate_le_of_ratio {m b k : Nat} {t : ℚ} (hm : Nat.sqrt x = m) (hpos : 0 < m) (hr : 0 < r)
    (ht : 1 ≤ t) (hle : (r : ℚ) ≤ t * (m + 1)) (hge : (m : ℚ) + 1 ≤ t * r) (hb : m ≤ b)
    (hk : ((t - 1) / (t + 1)) ^ 2 ^ k * (2 * b + 3) < 1) : (step x)^[k] r ≤ m + 1 := by
  subst hm
  have hbase : 0 ≤ (t - 1) / (t + 1) := div_nonneg (by linarith) (by linarith)
  have habs := abs_place_le (by positivity) (by exact_mod_cast hr) (by linarith) hle hge
  have hpow : place (Nat.sqrt x + 1) r ^ 2 ^ k ≤ ((t - 1) / (t + 1)) ^ 2 ^ k := by
    refine (le_abs_self _).trans ?_
    rw [abs_pow]
    exact pow_le_pow_left₀ (abs_nonneg _) habs _
  refine iterate_le_of_place hpos hr ?_
  calc place (Nat.sqrt x + 1) r ^ 2 ^ k * (2 * Nat.sqrt x + 3)
      ≤ ((t - 1) / (t + 1)) ^ 2 ^ k * (2 * Nat.sqrt x + 3) :=
        mul_le_mul_of_nonneg_right hpow (by positivity)
    _ ≤ ((t - 1) / (t + 1)) ^ 2 ^ k * (2 * b + 3) := by gcongr
    _ < 1 := hk

/-- `k + 1` steps do not if the start is above `m` by a factor of `t`, and the root is at least `b`,
large enough for it. -/
theorem lt_iterate_of_ratio {m b k : Nat} {t p : ℚ} (hm : Nat.sqrt x = m) (hpos : 0 < b)
    (hb : b ≤ m) (ht : 1 ≤ t) (hle : t * m ≤ r) (hp : 0 ≤ p)
    (hple : p ≤ ((t - 1) / (t + 1)) ^ 2 ^ k - (2 ^ k - 1) / (2 * b - 1))
    (hfar : 1 ≤ p ^ 2 * (b + 1)) : m + 1 < (step x)^[k + 1] r := by
  subst hm
  have hbq : (b : ℚ) ≤ Nat.sqrt x := by exact_mod_cast hb
  have hone : (1 : ℚ) ≤ b := by exact_mod_cast hpos
  have hr : Nat.sqrt x ≤ r := by
    have hcast : (Nat.sqrt x : ℚ) ≤ r := by nlinarith
    exact_mod_cast hcast
  have hbase : 0 ≤ (t - 1) / (t + 1) := div_nonneg (by linarith) (by linarith)
  have hplace := le_place (M := Nat.sqrt x) (by linarith) (by linarith) hle
  have hloss : (2 ^ k - 1) / (2 * (Nat.sqrt x : ℚ) - 1) ≤ (2 ^ k - 1) / (2 * b - 1) :=
    div_le_div_of_nonneg_left (sub_nonneg.mpr (one_le_pow₀ one_le_two)) (by linarith) (by linarith)
  refine lt_iterate_of_place (p := p) (hpos.trans_le hb) hr hp (hple.trans ?_) (hfar.trans ?_)
  · exact sub_le_sub (pow_le_pow_left₀ hbase hplace _) hloss
  · gcongr

end Newton
