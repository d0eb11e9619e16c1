import Hydra.Raytracer.Fixed

/-!
# fixed_sqrt

The loop of `fixed_sqrt` is Newton's method for the root of `x * 65536`, with eight steps at most.
It neither divides by zero nor wraps, and does not come out below the root (`fixed_sqrt_safe`). But
eight steps are not enough for every number: in units of `2 ^ -16`, they are for all from 13 to
`1120 * 2 ^ 16`, and for none below 13 or from `1240 * 2 ^ 16` on (`fixed_sqrt_converges`).
-/

namespace Hydra.Raytracer

/-- The values of `result` at the beginning of the rounds of the loop. -/
def newtonRounds (x : Int32) : Nat → Int32 → List Int32
  | 0, _ => []
  | n + 1, result =>
    result :: match newtonStep x result with
      | none => []
      | some next => if next = result then [] else newtonRounds x n next

/-- The radicand of `fixed_sqrt`, as an integer. -/
def radicand (x : Int32) : Nat := x.toInt.toNat * 2 ^ 16

/-- In a round, the divisor is at least 1 and the number assigned to `result` does not wrap. -/
structure RoundSafe (x result : Int32) : Prop where
  divisor : 1 ≤ result.toInt
  assigned : ∃ next, newtonStep x result = some next ∧
    next.toInt = (result.toInt + x.toInt * 2 ^ 16 / result.toInt) / 2

/-- `fixed_sqrt` returns the root, rounded down, or one more. -/
def Converges (x : Int32) : Prop :=
  ∃ r, fixedSqrt x = some r ∧
    (r.toInt = Nat.sqrt (radicand x) ∨ r.toInt = Nat.sqrt (radicand x) + 1)

lemma radicand_eq {x : Int32} {n : Nat} (hx : x.toInt = n) : radicand x = n * 2 ^ 16 := by
  unfold radicand
  rw [hx, Int.toNat_natCast]

/-! ## The rounds -/

/-- The loop returns what its last round assigns. -/
lemma newtonLoop_rounds (x : Int32) (n : Nat) (result : Int32) :
    newtonLoop x (n + 1) result = (newtonRounds x (n + 1) result).getLast?.bind (newtonStep x) := by
  induction n generalizing result with
  | zero =>
    unfold newtonLoop newtonRounds
    cases hstep : newtonStep x result with
    | none => exact hstep.symm
    | some next =>
      unfold newtonLoop newtonRounds
      simp [hstep]
  | succ n ih =>
    unfold newtonLoop newtonRounds
    cases hstep : newtonStep x result with
    | none => exact hstep.symm
    | some next =>
      rw [Option.bind_some]
      dsimp only
      split
      · exact hstep.symm
      · have hne : newtonRounds x (n + 1) next ≠ [] := List.cons_ne_nil _ _
        rw [ih, List.getLast?_cons_of_ne_nil hne]

section Root

variable {x : Int32} {n : Nat} (hx : x.toInt = n) (hpos : 0 < n)
include hx hpos

lemma newtonRounds_safe (k : Nat) {result : Int32} {r : Nat} (hr : result.toInt = r) (hrpos : 0 < r)
    (hquot : n * 2 ^ 16 / r ≤ 2 ^ 25) : ∀ s ∈ newtonRounds x k result, RoundSafe x s := by
  induction k generalizing result r with
  | zero => exact List.forall_mem_nil _
  | succ k ih =>
    obtain ⟨next, hstep, hnext, hpos', hquot'⟩ := newtonStep_next hx hpos hr hrpos hquot
    unfold newtonRounds
    rw [hstep]
    refine List.forall_mem_cons.mpr ⟨⟨by omega, next, hstep, ?_⟩, ?_⟩
    · rw [hnext, hx, hr]
      unfold Newton.step
      push_cast
      rfl
    · dsimp only
      split
      · exact List.forall_mem_nil _
      · exact ih hnext hpos' hquot'

end Root

/-- For every positive number, no round of `fixed_sqrt` divides by less than 1 or wraps, and what it
returns is at least the root, rounded down. -/
theorem fixed_sqrt_safe {x : Int32} (hx : 0 < x) :
    (∀ result ∈ newtonRounds x 8 x, RoundSafe x result) ∧
      ∃ r, fixedSqrt x = some r ∧ (Nat.sqrt (radicand x) : Int) ≤ r.toInt := by
  have hpos : 0 < x.toInt := Int32.lt_iff_toInt_lt.mp hx
  obtain ⟨n, hn⟩ := Int.eq_ofNat_of_zero_le hpos.le
  have hnpos : 0 < n := by omega
  obtain ⟨hlo, _⟩ := sqrt_range hn hnpos
  refine ⟨newtonRounds_safe hn hnpos 8 hn hnpos (quot_self hnpos), ?_⟩
  obtain ⟨r, hr, hvalue⟩ := fixedSqrt_eq hn hnpos
  refine ⟨r, hr, ?_⟩
  rw [hvalue, radicand_eq hn]
  exact_mod_cast (Newton.sqrt_le_iterate (by omega) hnpos 7).1

/-- The root of 2.0 takes five rounds. -/
theorem fixed_sqrt_safe_two :
    newtonRounds 131072 8 131072 = [131072, 98304, 92842, 92682, 92681] ∧
      (∀ result ∈ newtonRounds 131072 8 131072, RoundSafe 131072 result) ∧
      ∃ r, fixedSqrt 131072 = some r ∧ (Nat.sqrt (radicand 131072) : Int) ≤ r.toInt := by
  obtain ⟨hsafe, hroot⟩ := fixed_sqrt_safe (x := 131072) (by decide)
  exact ⟨by decide +kernel, hsafe, hroot⟩

/-! ## The number of rounds -/

section Rounds

variable {n : Nat}

lemma sqrt_pos (hpos : 0 < n) : 0 < Nat.sqrt (n * 2 ^ 16) := Nat.sqrt_pos.mpr (by omega)

/-- A bound of the root of `n * 65536`. -/
lemma sqrt_le_of_le {b : Nat} (h : n * 2 ^ 16 < (b + 1) ^ 2) : Nat.sqrt (n * 2 ^ 16) ≤ b :=
  Nat.lt_succ_iff.mp (Nat.sqrt_lt'.mpr h)

lemma iterate_least (hpos : 0 < n) (hhi : n < 13) :
    Nat.sqrt (n * 2 ^ 16) + 1 < (Newton.step (n * 2 ^ 16))^[8] n := by
  have hall : ∀ k < 13, 0 < k → k * 2 ^ 16 < ((Newton.step (k * 2 ^ 16))^[8] k - 1) ^ 2 := by
    decide +kernel
  exact Nat.add_lt_of_lt_sub (Nat.sqrt_lt'.mpr (hall n hhi hpos))

lemma iterate_tiny (hlo : 13 ≤ n) (hhi : n < 36) :
    (Newton.step (n * 2 ^ 16))^[8] n ≤ Nat.sqrt (n * 2 ^ 16) + 1 := by
  have hall : ∀ k < 36, 13 ≤ k → ((Newton.step (k * 2 ^ 16))^[8] k - 1) ^ 2 ≤ k * 2 ^ 16 := by
    decide +kernel
  exact Nat.sub_le_iff_le_add.mp (Nat.le_sqrt'.mpr (hall n hhi hlo))

/-- Up to 1.0 the start is below the root, and the factor between them is largest at 36, where it is
256 / 6. -/
lemma iterate_small (hlo : 36 ≤ n) (hhi : n ≤ 2 ^ 16) :
    (Newton.step (n * 2 ^ 16))^[8] n ≤ Nat.sqrt (n * 2 ^ 16) + 1 := by
  have hroot : Nat.sqrt (n * 2 ^ 16) ^ 2 ≤ n * 2 ^ 16 := Nat.sqrt_le' _
  have hself : n ≤ Nat.sqrt (n * 2 ^ 16) := Nat.le_sqrt.mpr (Nat.mul_le_mul_left n hhi)
  have hmax : Nat.sqrt (n * 2 ^ 16) ≤ 2 ^ 16 := sqrt_le_of_le (by omega)
  generalize hm : Nat.sqrt (n * 2 ^ 16) = m at *
  -- otherwise the square of `m` would be above `n * 2 ^ 16`, as `n` is at least 36
  have hratio : 10 * (m + 1) ≤ 427 * n := by
    by_contra hlt
    nlinarith
  have hratioq : 10 * ((m : ℚ) + 1) ≤ 427 * n := by exact_mod_cast hratio
  have hselfq : (n : ℚ) ≤ m := by exact_mod_cast hself
  have hnonneg : (0 : ℚ) ≤ n := Nat.cast_nonneg n
  exact Newton.iterate_le_of_ratio (t := 427 / 10) hm (by omega) (by omega) (by norm_num)
    (by linarith) (by linarith) hmax (by norm_num)

/-- From 1.0 on the start is above the root, by a factor of at most the root of 1120. -/
lemma iterate_middle (hlo : 2 ^ 16 ≤ n) (hhi : n ≤ 1120 * 2 ^ 16) :
    (Newton.step (n * 2 ^ 16))^[8] n ≤ Nat.sqrt (n * 2 ^ 16) + 1 := by
  have hroot : n * 2 ^ 16 < (Nat.sqrt (n * 2 ^ 16) + 1) ^ 2 := Nat.lt_succ_sqrt' _
  have hself : Nat.sqrt (n * 2 ^ 16) ≤ n := sqrt_le_of_le (by nlinarith)
  have hmax : Nat.sqrt (n * 2 ^ 16) ≤ 2193254 := sqrt_le_of_le (by omega)
  generalize hm : Nat.sqrt (n * 2 ^ 16) = m at *
  have hratio : 1000 * n ≤ 33467 * (m + 1) := by
    by_contra hlt
    nlinarith
  have hratioq : 1000 * (n : ℚ) ≤ 33467 * (m + 1) := by exact_mod_cast hratio
  have hselfq : (m : ℚ) ≤ n := by exact_mod_cast hself
  have hone : (1 : ℚ) ≤ n := by exact_mod_cast (by omega : 1 ≤ n)
  exact Newton.iterate_le_of_ratio (t := 33467 / 1000) hm (by nlinarith) (by omega) (by norm_num)
    (by linarith) (by linarith) hmax (by norm_num)

/-- From 1240.0 on the factor is too large: seven steps leave a distance that the last one cannot
make up for. -/
lemma iterate_large (hlo : 1240 * 2 ^ 16 ≤ n) :
    Nat.sqrt (n * 2 ^ 16) + 1 < (Newton.step (n * 2 ^ 16))^[8] n := by
  have hroot : Nat.sqrt (n * 2 ^ 16) ^ 2 ≤ n * 2 ^ 16 := Nat.sqrt_le' _
  have hmin : 2307760 ≤ Nat.sqrt (n * 2 ^ 16) := Nat.le_sqrt.mpr (by omega)
  generalize hm : Nat.sqrt (n * 2 ^ 16) = m at *
  have hratio : 3521 * m ≤ 100 * n := by
    by_contra hlt
    nlinarith
  have hratioq : 3521 * (m : ℚ) ≤ 100 * n := by exact_mod_cast hratio
  exact Newton.lt_iterate_of_ratio (k := 7) (t := 3521 / 100) (p := 666 / 1000000) hm (by decide)
    hmin (by norm_num) (by linarith) (by norm_num) (by norm_num) (by norm_num)

/-- The first step from `n` itself is known, so seven more steps have to be enough. -/
lemma iterate_iff (hpos : 0 < n) : (Newton.step (n * 2 ^ 16))^[8] n ≤ Nat.sqrt (n * 2 ^ 16) + 1 ↔
    (n + 2 ^ 16) / 2 ≤ Newton.basin (n * 2 ^ 16) 7 := by
  have hfirst : Newton.step (n * 2 ^ 16) n = (n + 2 ^ 16) / 2 := by
    unfold Newton.step
    rw [Nat.mul_div_cancel_left _ hpos]
  have hroot := Newton.sqrt_le_step (x := n * 2 ^ 16) hpos
  rw [Function.iterate_succ_apply, Newton.iterate_le_iff (sqrt_pos hpos) 7 hroot, hfirst]

end Rounds

lemma converges_iff {x : Int32} {n : Nat} (hx : x.toInt = n) (hpos : 0 < n) :
    Converges x ↔ (Newton.step (n * 2 ^ 16))^[8] n ≤ Nat.sqrt (n * 2 ^ 16) + 1 := by
  obtain ⟨r, hr, hvalue⟩ := fixedSqrt_eq hx hpos
  have hroot : Nat.sqrt (n * 2 ^ 16) ≤ (Newton.step (n * 2 ^ 16))^[8] n :=
    (Newton.sqrt_le_iterate (sqrt_pos hpos) hpos 7).1
  unfold Converges
  rw [radicand_eq hx]
  constructor
  · rintro ⟨r', hr', hclose⟩
    obtain rfl := Option.some.inj (hr.symm.trans hr')
    omega
  · intro hle
    exact ⟨r, hr, by omega⟩

/-- For every positive number `x`, the eight rounds of `fixed_sqrt` lead to the root, rounded down,
or to one more, exactly if the first of them leads into the basin of the other seven. So it is for
every `x` from 13 on up to 1120.0, and for none below 13 or from 1240.0 on. -/
theorem fixed_sqrt_converges {x : Int32} (hx : 0 < x) :
    (Converges x ↔ (x.toInt.toNat + 2 ^ 16) / 2 ≤ Newton.basin (radicand x) 7) ∧
    (13 ≤ x.toInt → x.toInt ≤ 1120 * 2 ^ 16 → Converges x) ∧
    (x.toInt < 13 ∨ 1240 * 2 ^ 16 ≤ x.toInt → ¬Converges x) := by
  have hpos : 0 < x.toInt := Int32.lt_iff_toInt_lt.mp hx
  obtain ⟨n, hn⟩ := Int.eq_ofNat_of_zero_le hpos.le
  have hnpos : 0 < n := by omega
  rw [converges_iff hn hnpos, radicand_eq hn, hn, Int.toNat_natCast]
  refine ⟨iterate_iff hnpos, fun hlo hhi => ?_, fun hout => not_le.mpr ?_⟩
  · rcases Nat.lt_or_ge n 36 with htiny | hsmall
    · exact iterate_tiny (by omega) htiny
    · rcases Nat.le_total n (2 ^ 16) with hle | hge
      · exact iterate_small hsmall hle
      · exact iterate_middle hge (by omega)
  · rcases hout with hleast | hlarge
    · exact iterate_least hnpos (by omega)
    · exact iterate_large (by omega)

/-- The root of 2.0. -/
theorem fixed_sqrt_converges_two : fixedSqrt 131072 = some 92681 ∧ Converges 131072 :=
  ⟨by decide +kernel, (fixed_sqrt_converges (by decide)).2.1 (by decide) (by decide)⟩

/-- The root of the least positive number is 256, but the eighth round leads to 335. -/
theorem fixed_sqrt_converges_fails :
    0 < (1 : Int32) ∧ Nat.sqrt (radicand 1) = 256 ∧ fixedSqrt 1 = some 335 ∧ ¬Converges 1 := by
  have hroot : Nat.sqrt (radicand 1) = 256 := Nat.sqrt_eq' 256
  have hsqrt : fixedSqrt 1 = some 335 := by decide +kernel
  refine ⟨by decide, hroot, hsqrt, ?_⟩
  rintro ⟨r, hr, hclose⟩
  obtain rfl := Option.some.inj (hsqrt.symm.trans hr)
  rw [hroot] at hclose
  revert hclose
  decide

end Hydra.Raytracer
