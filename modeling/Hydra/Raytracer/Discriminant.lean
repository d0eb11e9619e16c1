import Hydra.Raytracer.Vector

/-!
# The discriminant

`intersect_sphere` decides by the sign of `b * b - 4 * a * c`, cut down to 32 bits. As long as `oc`,
`a`, `b` and `c` fit in 32 bits, what is cut down is the untruncated discriminant, so its sign is
kept if it fits too. It need not fit: for a ray of length 1 it is 4 times the difference of the
squares of the radius and of the distance from the center to the ray, and a large sphere like the
ground of the default scene is missed by many of the rays that hit it (`discriminant_sign_fails`).
-/

namespace Hydra.Raytracer
open Exact

/-! ## The untruncated discriminant -/

section Untruncated

variable (ray : Ray) (sphere : Sphere)

/-- `oc`, without wrapping. -/
def exactOc : Exact := ray.origin.exact.sub sphere.center.exact

/-- `a`, without wrapping. -/
def exactA : Int := ray.direction.exact.dot ray.direction.exact

/-- `b`, without wrapping, for a given `oc`. -/
def exactB (oc : Exact) : Int := mul (2 ^ 17) (oc.dot ray.direction.exact)

/-- `c`, without wrapping, for a given `oc`. -/
def exactC (oc : Exact) : Int := oc.dot oc - mul sphere.radius.toInt sphere.radius.toInt

/-- The discriminant for given coefficients. -/
def exactOf (a b c : Int) : Int := mul b b - mul (mul (2 ^ 18) a) c

/-- The discriminant, without any wrapping. -/
def exactDiscriminant : Int :=
  exactOf (exactA ray) (exactB ray (exactOc ray sphere)) (exactC sphere (exactOc ray sphere))

/-- The sign that `intersect_sphere` tests is that of the untruncated discriminant. -/
def SignKept : Prop := (discriminant ray sphere).toInt.sign = (exactDiscriminant ray sphere).sign

end Untruncated

/-- The number fits in 32 bits. -/
def Fits (i : Int) : Prop := -2 ^ 31 ≤ i ∧ i < 2 ^ 31

/-- Nothing but the discriminant overflows. -/
structure Small (ray : Ray) (sphere : Sphere) : Prop where
  x : Fits (exactOc ray sphere).x
  y : Fits (exactOc ray sphere).y
  z : Fits (exactOc ray sphere).z
  a : Fits (exactA ray)
  b : Fits (exactB ray (exactOc ray sphere))
  c : Fits (exactC sphere (exactOc ray sphere))

/-! ## The coefficients of the code -/

section Code

variable (ray : Ray) (sphere : Sphere)

lemma coeffA_modEq : (coeffA ray).toInt ≡ exactA ray [ZMOD 2 ^ 32] := vec3Dot_modEq _ _

lemma coeffB_modEq : (coeffB ray sphere).toInt ≡
    exactB ray (vec3Sub ray.origin sphere.center).exact [ZMOD 2 ^ 32] := by
  have hdouble : ∀ i : Int, mul (2 ^ 17) i = 2 * i := fun i => by
    unfold mul
    omega
  have htwo : two.toInt = 2 ^ 17 := by decide
  unfold coeffB exactB
  refine (toInt32_modEq _).trans ?_
  rw [fixedMul_fixed, htwo]
  show mul (2 ^ 17) _ ≡ _ [ZMOD 2 ^ 32]
  rw [hdouble, hdouble]
  exact Int.ModEq.mul_left 2 (vec3Dot_modEq _ _)

lemma coeffC_modEq : (coeffC ray sphere).toInt ≡
    exactC sphere (vec3Sub ray.origin sphere.center).exact [ZMOD 2 ^ 32] := by
  unfold coeffC exactC
  refine (toInt32_modEq _).trans ((sub_modEq _ _).trans ?_)
  rw [Int32.toInt_toInt64, fixedMul_fixed]
  exact Int.ModEq.sub_right _ (vec3Dot_modEq _ _)

/-- A product of 64 bits may wrap, but not in the bits that are left of it. -/
lemma fixedMul_modEq (a b : Int64) :
    (fixedMul a b).toInt ≡ mul a.toInt b.toInt [ZMOD 2 ^ 32] := by
  have hwrap := Int.bmod_add_bdiv (a.toInt * b.toInt) (2 ^ 64)
  unfold Int.ModEq mul
  rw [fixedMul_toInt]
  omega

/-- The discriminant of the code is that of its coefficients, modulo `2 ^ 32`. -/
lemma discriminant_modEq : (discriminant ray sphere).toInt ≡
    exactOf (coeffA ray).toInt (coeffB ray sphere).toInt (coeffC ray sphere).toInt
      [ZMOD 2 ^ 32] := by
  have hfour : (fixedMul four.toInt64 (coeffA ray).toInt64).toInt =
      mul (2 ^ 18) (coeffA ray).toInt := by
    rw [fixedMul_fixed]
    rfl
  unfold discriminant exactOf
  refine (toInt32_modEq _).trans ((sub_modEq _ _).trans ?_)
  rw [fixedMul_fixed]
  refine Int.ModEq.sub_left _ ((fixedMul_modEq _ _).trans ?_)
  rw [hfour, Int32.toInt_toInt64]

end Code

/-! ## Numbers that fit -/

lemma sub_toInt_of_fits {a b : Int32} (h : Fits (a.toInt - b.toInt)) :
    (a - b).toInt = a.toInt - b.toInt := by
  rw [Int32.toInt_sub]
  exact Int.bmod_eq_of_le h.1 h.2

/-- A number that fits is not cut down. -/
lemma toInt_of_fits {a : Int32} {i : Int} (h : a.toInt ≡ i [ZMOD 2 ^ 32]) (hi : Fits i) :
    a.toInt = i := by
  have hlo := a.le_toInt
  have hhi := a.toInt_lt
  obtain ⟨hlo', hhi'⟩ := hi
  unfold Int.ModEq at h
  omega

/-- The sign of a number of 33 bits is kept exactly if the number fits. -/
lemma sign_eq_iff {a : Int32} {i : Int} (h : a.toInt ≡ i [ZMOD 2 ^ 32]) (hlo : -2 ^ 32 ≤ i)
    (hhi : i < 2 ^ 32) : a.toInt.sign = i.sign ↔ Fits i := by
  refine ⟨fun hsign => ?_, fun hi => by rw [toInt_of_fits h hi]⟩
  have halo := a.le_toInt
  have hahi := a.toInt_lt
  unfold Int.ModEq at h
  unfold Fits
  rcases lt_trichotomy i 0 with hneg | rfl | hpos
  · rw [Int.sign_eq_neg_one_of_neg hneg, Int.sign_eq_neg_one_iff_neg] at hsign
    omega
  · omega
  · rw [Int.sign_eq_one_of_pos hpos, Int.sign_eq_one_iff_pos] at hsign
    omega

/-- Whether it is negative, too. -/
lemma neg_iff_iff {a : Int32} {i : Int} (h : a.toInt ≡ i [ZMOD 2 ^ 32]) (hlo : -2 ^ 32 ≤ i)
    (hhi : i < 2 ^ 32) : (a < 0 ↔ i < 0) ↔ Fits i := by
  have halo := a.le_toInt
  have hahi := a.toInt_lt
  have hzero : a < 0 ↔ a.toInt < 0 := Int32.lt_iff_toInt_lt
  rw [hzero]
  unfold Int.ModEq at h
  unfold Fits
  omega

/-- Without overflows before it, the discriminant is the untruncated one, cut down. -/
lemma Small.discriminant_modEq {ray : Ray} {sphere : Sphere} (h : Small ray sphere) :
    (discriminant ray sphere).toInt ≡ exactDiscriminant ray sphere [ZMOD 2 ^ 32] := by
  have hoc : (vec3Sub ray.origin sphere.center).exact = exactOc ray sphere := by
    unfold vec3Sub Vec3.exact exactOc
    rw [sub_toInt_of_fits h.x, sub_toInt_of_fits h.y, sub_toInt_of_fits h.z]
    rfl
  have ha : (coeffA ray).toInt = exactA ray := toInt_of_fits (coeffA_modEq ray) h.a
  have hb : (coeffB ray sphere).toInt = exactB ray (exactOc ray sphere) :=
    toInt_of_fits (hoc ▸ coeffB_modEq ray sphere) h.b
  have hc : (coeffC ray sphere).toInt = exactC sphere (exactOc ray sphere) :=
    toInt_of_fits (hoc ▸ coeffC_modEq ray sphere) h.c
  have hmod := Raytracer.discriminant_modEq ray sphere
  rw [ha, hb, hc] at hmod
  exact hmod

/-- As long as `oc`, `a`, `b` and `c` fit in 32 bits: if the untruncated discriminant does too,
its sign is kept, and the hit is decided as it decides it. Among the discriminants of 33 bits these
are the only ones of which this is true. -/
theorem discriminant_sign {ray : Ray} {sphere : Sphere} (h : Small ray sphere) :
    (Fits (exactDiscriminant ray sphere) → SignKept ray sphere ∧
      (discriminant ray sphere < 0 ↔ exactDiscriminant ray sphere < 0)) ∧
    (-2 ^ 32 ≤ exactDiscriminant ray sphere → exactDiscriminant ray sphere < 2 ^ 32 →
      (SignKept ray sphere ↔ Fits (exactDiscriminant ray sphere)) ∧
      ((discriminant ray sphere < 0 ↔ exactDiscriminant ray sphere < 0) ↔
        Fits (exactDiscriminant ray sphere))) := by
  have hmod := h.discriminant_modEq
  refine ⟨fun hfits => ?_, fun hlo hhi => ⟨sign_eq_iff hmod hlo hhi, neg_iff_iff hmod hlo hhi⟩⟩
  have hlo : -2 ^ 32 ≤ exactDiscriminant ray sphere := by
    have hlo := hfits.1
    omega
  have hhi : exactDiscriminant ray sphere < 2 ^ 32 := by
    have hhi := hfits.2
    omega
  exact ⟨(sign_eq_iff hmod hlo hhi).mpr hfits, (neg_iff_iff hmod hlo hhi).mpr hfits⟩

/-- The ray forward from the camera and the red sphere of the default scene. -/
theorem discriminant_sign_red :
    let ray : Ray := ⟨⟨0, 0, 0⟩, ⟨0, 0, -65536⟩⟩
    let red : Sphere := ⟨⟨0, 0, -327680⟩, 65536, 0xFF4040⟩
    createRay ⟨0, 0, 0⟩ ⟨0, 0, -65536⟩ = some ray ∧ exactDiscriminant ray red = 4 * 65536 ∧
      SignKept ray red := by
  intro ray red
  have hsmall : Small ray red := by
    refine ⟨?_, ?_, ?_, ?_, ?_, ?_⟩ <;> (unfold Fits; decide +kernel)
  have hd : exactDiscriminant ray red = 4 * 65536 := by decide +kernel
  refine ⟨by decide +kernel, hd, ((discriminant_sign hsmall).1 ?_).1⟩
  rw [hd]
  unfold Fits
  decide

/-- The ground of the default scene. -/
def ground : Sphere := ⟨⟨0, -65568768, -327680⟩, 65536000, 0x808080⟩

/-- A ray from the camera down to the ground is reported as a miss. -/
theorem discriminant_sign_fails :
    ∃ ray, createRay ⟨0, 0, 0⟩ ⟨0, -65536, -65536⟩ = some ray ∧ 0 < exactDiscriminant ray ground ∧
      discriminant ray ground < 0 ∧ intersectSphere ray ground = some Hit.none ∧
      ¬SignKept ray ground := by
  refine ⟨⟨⟨0, 0, 0⟩, ⟨0, -46341, -46341⟩⟩, by decide +kernel, by decide +kernel, by decide +kernel,
    by decide +kernel, ?_⟩
  unfold SignKept
  decide +kernel

end Hydra.Raytracer
