import Hydra.Lib.Newton

/-!
# Fixed-point numbers

The 16.16 numbers of `apps/raytracer/raytracer.h`, and `fixed_sqrt`. A product or a quotient is of
64 bits; it is cut down to 32 bits when it is assigned to a `fixed_t`. Nothing is said in C about a
division by zero, so the functions that divide have no result then.
-/

namespace Hydra.Raytracer

/-- `FIXED_MUL(a, b)` -/
def fixedMul (a b : Int64) : Int64 := (a * b) >>> 16

/-- `FIXED_DIV(a, b)`, if `b` is not 0. -/
def fixedDiv (a : Int32) (b : Int64) : Option Int64 :=
  if b = 0 then none else some ((a.toInt64 <<< 16) / b)

/-- `result = (result + FIXED_DIV(x, result)) >> 1` -/
def newtonStep (x result : Int32) : Option Int32 :=
  (fixedDiv x result.toInt64).map fun q => ((result.toInt64 + q) >>> 1).toInt32

/-- The loop of `fixed_sqrt`, for `n` rounds. -/
def newtonLoop (x : Int32) : Nat → Int32 → Option Int32
  | 0, result => some result
  | n + 1, result =>
    (newtonStep x result).bind fun next =>
      if next = result then some next else newtonLoop x n next

/-- C `fixed_sqrt`. -/
def fixedSqrt (x : Int32) : Option Int32 := if x ≤ 0 then some 0 else newtonLoop x 8 x

/-! ## The operations on integers -/

/-- A product of two 32-bit numbers does not wrap. -/
lemma bmod_mul (a b : Int32) : (a.toInt * b.toInt).bmod (2 ^ 64) = a.toInt * b.toInt := by
  have ha := a.le_toInt
  have ha' := a.toInt_lt
  have hb := b.le_toInt
  have hb' := b.toInt_lt
  have habs : |a.toInt * b.toInt| ≤ 2 ^ 31 * 2 ^ 31 := by
    rw [abs_mul]
    refine mul_le_mul (abs_le.mpr ⟨ha, ha'.le⟩) (abs_le.mpr ⟨hb, hb'.le⟩) (abs_nonneg _) ?_
    norm_num
  obtain ⟨hlo, hhi⟩ := abs_le.mp habs
  exact Int.bmod_eq_of_le (by omega) (by omega)

lemma fixedMul_toInt (a b : Int64) :
    (fixedMul a b).toInt = (a.toInt * b.toInt).bmod (2 ^ 64) / 2 ^ 16 := by
  unfold fixedMul
  rw [← Int64.toInt_mul, ← Int64.toInt_toBitVec, Int64.toBitVec_shiftRight,
    BitVec.toInt_sshiftRight', Int.shiftRight_eq_div_pow]
  rfl

/-- The product of two `fixed_t`. -/
@[simp]
lemma fixedMul_fixed (a b : Int32) :
    (fixedMul a.toInt64 b.toInt64).toInt = a.toInt * b.toInt / 2 ^ 16 := by
  rw [fixedMul_toInt, Int32.toInt_toInt64, Int32.toInt_toInt64, bmod_mul]

lemma shiftLeft_toInt (a : Int64) : (a <<< 16).toInt = (a.toInt * 2 ^ 16).bmod (2 ^ 64) := by
  have hcount : (16 : Int64).toBitVec.smod 64 = 16#64 := by decide
  rw [← Int64.toInt_toBitVec, Int64.toBitVec_shiftLeft, hcount, BitVec.shiftLeft_eq',
    BitVec.toInt_shiftLeft, ← Int64.toInt_toBitVec, BitVec.toInt_eq_toNat_bmod, Int.bmod_mul_bmod,
    Nat.shiftLeft_eq, Nat.cast_mul, Nat.cast_pow]
  rfl

lemma shiftLeft_fixed (a : Int32) : (a.toInt64 <<< 16).toInt = a.toInt * 2 ^ 16 := by
  have hlo := a.le_toInt
  have hhi := a.toInt_lt
  rw [shiftLeft_toInt, Int32.toInt_toInt64]
  exact Int.bmod_eq_of_le (by omega) (by omega)

/-- The quotient of positive numbers. -/
lemma fixedDiv_toInt {x r : Nat} {a b : Int32} (ha : a.toInt = x) (hb : b.toInt = r) (hr : 0 < r) :
    ∃ q, fixedDiv a b.toInt64 = some q ∧ q.toInt = (x * 2 ^ 16 / r : Nat) := by
  have hvalue : b.toInt64.toInt = r := (Int32.toInt_toInt64 b).trans hb
  have hne : b.toInt64 ≠ 0 := by
    intro h0
    rw [h0, Int64.toInt_zero] at hvalue
    omega
  have hneg : b.toInt64 ≠ -1 := by
    intro h1
    rw [h1] at hvalue
    have hminus : (-1 : Int64).toInt = -1 := by decide
    omega
  refine ⟨_, if_neg hne, ?_⟩
  rw [Int64.toInt_div_of_ne_right _ _ hneg, shiftLeft_fixed, Int32.toInt_toInt64, ha, hb]
  push_cast
  rfl

/-! ## The square root -/

lemma shiftRight_toInt (a : Int64) : (a >>> 1).toInt = a.toInt / 2 := by
  rw [← Int64.toInt_toBitVec, Int64.toBitVec_shiftRight, BitVec.toInt_sshiftRight',
    Int.shiftRight_eq_div_pow]
  rfl

/-- The quotient of the first round. -/
lemma quot_self {n : Nat} (hpos : 0 < n) : n * 2 ^ 16 / n ≤ 2 ^ 25 := by
  rw [Nat.mul_div_cancel_left _ hpos]
  decide

section Root

variable {x : Int32} {n : Nat} (hx : x.toInt = n)
include hx

/-- A round of the loop is a step of Newton's method, which does not wrap. -/
lemma newtonStep_eq {result : Int32} {r : Nat} (hr : result.toInt = r) (hrpos : 0 < r)
    (hquot : n * 2 ^ 16 / r ≤ 2 ^ 25) :
    ∃ next, newtonStep x result = some next ∧ next.toInt = Newton.step (n * 2 ^ 16) r := by
  obtain ⟨q, hq, hqval⟩ := fixedDiv_toInt hx hr hrpos
  have hlt := result.toInt_lt
  unfold Newton.step
  generalize n * 2 ^ 16 / r = d at *
  have hsum : (result.toInt64 + q).toInt = r + d := by
    rw [Int64.toInt_add, Int32.toInt_toInt64, hr, hqval]
    exact Int.bmod_eq_of_le (by omega) (by omega)
  refine ⟨_, by rw [newtonStep, hq]; rfl, ?_⟩
  rw [Int64.toInt_toInt32, shiftRight_toInt, hsum]
  exact Int.bmod_eq_of_le (by omega) (by omega)

variable (hpos : 0 < n)
include hpos

/-- The root of a positive `fixed_t` is at least that of the least one. -/
lemma sqrt_range : 2 ^ 8 ≤ Nat.sqrt (n * 2 ^ 16) ∧ Nat.sqrt (n * 2 ^ 16) < 2 ^ 24 := by
  have hlt := x.toInt_lt
  refine ⟨Nat.le_sqrt.mpr ?_, Nat.sqrt_lt.mpr ?_⟩
  · omega
  · omega

/-- In the round after it the same holds again. -/
lemma newtonStep_next {result : Int32} {r : Nat} (hr : result.toInt = r) (hrpos : 0 < r)
    (hquot : n * 2 ^ 16 / r ≤ 2 ^ 25) :
    ∃ next, newtonStep x result = some next ∧ next.toInt = Newton.step (n * 2 ^ 16) r ∧
      0 < Newton.step (n * 2 ^ 16) r ∧ n * 2 ^ 16 / Newton.step (n * 2 ^ 16) r ≤ 2 ^ 25 := by
  obtain ⟨hlo, hhi⟩ := sqrt_range hx hpos
  obtain ⟨next, hstep, hnext⟩ := newtonStep_eq hx hr hrpos hquot
  have hroot := Newton.sqrt_le_step (x := n * 2 ^ 16) hrpos
  have hdiv := Newton.div_le hroot (by omega)
  exact ⟨next, hstep, hnext, by omega, by omega⟩

/-- The loop does all of its steps: where it breaks off, they would change nothing any more. -/
lemma newtonLoop_eq (k : Nat) {result : Int32} {r : Nat} (hr : result.toInt = r) (hrpos : 0 < r)
    (hquot : n * 2 ^ 16 / r ≤ 2 ^ 25) :
    ∃ root, newtonLoop x k result = some root ∧
      root.toInt = ((Newton.step (n * 2 ^ 16))^[k] r : Nat) := by
  induction k generalizing result r with
  | zero => exact ⟨result, rfl, hr⟩
  | succ k ih =>
    obtain ⟨next, hstep, hnext, hpos', hquot'⟩ := newtonStep_next hx hpos hr hrpos hquot
    unfold newtonLoop
    rw [hstep, Option.bind_some]
    split
    · next heq =>
      have hfixed : Newton.step (n * 2 ^ 16) r = r := by
        rw [heq, hr] at hnext
        exact_mod_cast hnext.symm
      exact ⟨next, rfl, by rw [Function.iterate_fixed hfixed, heq, hr]⟩
    · rw [Function.iterate_succ_apply]
      exact ih hnext hpos' hquot'

/-- `fixed_sqrt` makes eight steps of Newton's method. -/
lemma fixedSqrt_eq : ∃ root, fixedSqrt x = some root ∧
    root.toInt = ((Newton.step (n * 2 ^ 16))^[8] n : Nat) := by
  have hnot : ¬x ≤ 0 := fun hle => by
    have hle' : x.toInt ≤ 0 := Int32.le_iff_toInt_le.mp hle
    omega
  unfold fixedSqrt
  rw [if_neg hnot]
  exact newtonLoop_eq hx hpos 8 hx hpos (quot_self hpos)

end Root

lemma fixedSqrt_of_nonpos {x : Int32} (h : x.toInt ≤ 0) : fixedSqrt x = some 0 :=
  if_pos (Int32.le_iff_toInt_le.mpr h)

/-- The root of a positive number is positive, and no round divides by zero. -/
lemma fixedSqrt_pos {x : Int32} (h : 0 < x.toInt) :
    ∃ len, fixedSqrt x = some len ∧ 0 < len.toInt := by
  obtain ⟨n, hn⟩ := Int.eq_ofNat_of_zero_le h.le
  have hpos : 0 < n := by omega
  obtain ⟨hlo, _⟩ := sqrt_range hn hpos
  obtain ⟨len, hlen, hvalue⟩ := fixedSqrt_eq hn hpos
  refine ⟨len, hlen, ?_⟩
  rw [hvalue]
  exact_mod_cast (Newton.sqrt_le_iterate (by omega) hpos 8).2

end Hydra.Raytracer
