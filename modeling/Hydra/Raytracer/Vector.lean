import Hydra.Raytracer.Fixed

/-!
# Vectors, rays and spheres

`apps/raytracer/raytracer.c` up to `intersect_sphere`. A sum of products is of 64 bits, and wraps
when it becomes a `fixed_t`; the sums of 32-bit components are taken to wrap too, as those of the
processor do.
-/

namespace Hydra.Raytracer

/-- C `vec3_t`. -/
structure Vec3 where
  x : Int32
  y : Int32
  z : Int32
  deriving DecidableEq

/-- C `ray_t`. -/
structure Ray where
  origin : Vec3
  direction : Vec3
  deriving DecidableEq

/-- C `sphere_t`. -/
structure Sphere where
  center : Vec3
  radius : Int32
  color : Int32

/-- C `hit_t`. -/
structure Hit where
  hit : Int32
  distance : Int32
  point : Vec3
  normal : Vec3
  color : Int32
  deriving DecidableEq

/-- `{0}` -/
def Hit.none : Hit := ⟨0, 0, ⟨0, 0, 0⟩, ⟨0, 0, 0⟩, 0⟩

/-- `FLOAT_TO_FIXED(2.0f)` -/
def two : Int32 := 131072

/-- `FLOAT_TO_FIXED(4.0f)` -/
def four : Int32 := 262144

/-- C `vec3_add`. -/
def vec3Add (a b : Vec3) : Vec3 := ⟨a.x + b.x, a.y + b.y, a.z + b.z⟩

/-- C `vec3_sub`. -/
def vec3Sub (a b : Vec3) : Vec3 := ⟨a.x - b.x, a.y - b.y, a.z - b.z⟩

/-- C `vec3_mul_scalar`. -/
def vec3MulScalar (v : Vec3) (s : Int32) : Vec3 :=
  ⟨(fixedMul v.x.toInt64 s.toInt64).toInt32, (fixedMul v.y.toInt64 s.toInt64).toInt32,
    (fixedMul v.z.toInt64 s.toInt64).toInt32⟩

/-- C `vec3_dot`. -/
def vec3Dot (a b : Vec3) : Int32 :=
  (fixedMul a.x.toInt64 b.x.toInt64 + fixedMul a.y.toInt64 b.y.toInt64 +
    fixedMul a.z.toInt64 b.z.toInt64).toInt32

/-- C `vec3_normalize`; nothing if it divides by zero. -/
def vec3Normalize (v : Vec3) : Option Vec3 :=
  let lenSq := vec3Dot v v
  if lenSq = 0 then some v
  else do
    let len ← fixedSqrt lenSq
    let x ← fixedDiv v.x len.toInt64
    let y ← fixedDiv v.y len.toInt64
    let z ← fixedDiv v.z len.toInt64
    some ⟨x.toInt32, y.toInt32, z.toInt32⟩

/-- C `create_ray`. -/
def createRay (origin direction : Vec3) : Option Ray :=
  (vec3Normalize direction).map fun direction => ⟨origin, direction⟩

/-! ## intersect_sphere -/

section Coefficients

variable (ray : Ray) (sphere : Sphere)

/-- `a` in `intersect_sphere`. -/
def coeffA : Int32 := vec3Dot ray.direction ray.direction

/-- `b` in `intersect_sphere`. -/
def coeffB : Int32 :=
  let oc := vec3Sub ray.origin sphere.center
  (fixedMul two.toInt64 (vec3Dot oc ray.direction).toInt64).toInt32

/-- `c` in `intersect_sphere`. -/
def coeffC : Int32 :=
  let oc := vec3Sub ray.origin sphere.center
  ((vec3Dot oc oc).toInt64 - fixedMul sphere.radius.toInt64 sphere.radius.toInt64).toInt32

/-- `discriminant` in `intersect_sphere`. -/
def discriminant : Int32 :=
  let a := coeffA ray
  let b := coeffB ray sphere
  let c := coeffC ray sphere
  (fixedMul b.toInt64 b.toInt64 - fixedMul (fixedMul four.toInt64 a.toInt64) c.toInt64).toInt32

/-- The first part of `intersect_sphere`: the distance of the hit if there is one, and nothing at
all if there is a division by zero. -/
def hitDistance : Option (Option Int32) :=
  let a := coeffA ray
  let b := coeffB ray sphere
  if discriminant ray sphere < 0 then some none
  else do
    let sqrtDisc ← fixedSqrt (discriminant ray sphere)
    let t1 ← fixedDiv (-b - sqrtDisc) (fixedMul two.toInt64 a.toInt64)
    let t2 ← fixedDiv (-b + sqrtDisc) (fixedMul two.toInt64 a.toInt64)
    let t := if t1.toInt32 > 0 then t1.toInt32 else t2.toInt32
    if t ≤ 0 then some none else some (some t)

/-- `hit.point` for the distance `t`. -/
def hitPoint (t : Int32) : Vec3 := vec3Add ray.origin (vec3MulScalar ray.direction t)

/-- C `intersect_sphere`; nothing if it divides by zero. -/
def intersectSphere : Option Hit := do
  match ← hitDistance ray sphere with
  | none => some Hit.none
  | some t =>
    let point := hitPoint ray t
    let normal ← vec3Normalize (vec3Sub point sphere.center)
    some ⟨1, t, point, normal, sphere.color⟩

end Coefficients

/-! ## Without wrapping -/

/-- A vector of integers, in units of `2 ^ -16`. -/
structure Exact where
  x : Int
  y : Int
  z : Int

/-- The components of a vector. -/
def Vec3.exact (v : Vec3) : Exact := ⟨v.x.toInt, v.y.toInt, v.z.toInt⟩

namespace Exact

/-- The difference of two vectors. -/
def sub (u v : Exact) : Exact := ⟨u.x - v.x, u.y - v.y, u.z - v.z⟩

/-- The product of two numbers, rounded down. -/
def mul (a b : Int) : Int := a * b / 2 ^ 16

/-- The dot product of two vectors. -/
def dot (u v : Exact) : Int := mul u.x v.x + mul u.y v.y + mul u.z v.z

end Exact

/-! Cutting a number down changes it by a multiple of `2 ^ 32`. -/

lemma toInt32_modEq (a : Int64) : a.toInt32.toInt ≡ a.toInt [ZMOD 2 ^ 32] := by
  rw [Int64.toInt_toInt32]
  exact Int.bmod_emod

lemma add_modEq (a b : Int64) : (a + b).toInt ≡ a.toInt + b.toInt [ZMOD 2 ^ 32] := by
  rw [Int64.toInt_add]
  exact Int.ModEq.of_dvd (by decide) (Int.bmod_emod (m := 2 ^ 64))

lemma sub_modEq (a b : Int64) : (a - b).toInt ≡ a.toInt - b.toInt [ZMOD 2 ^ 32] := by
  rw [Int64.toInt_sub]
  exact Int.ModEq.of_dvd (by decide) (Int.bmod_emod (m := 2 ^ 64))

lemma vec3Dot_modEq (a b : Vec3) : (vec3Dot a b).toInt ≡ a.exact.dot b.exact [ZMOD 2 ^ 32] := by
  unfold vec3Dot Exact.dot
  refine (toInt32_modEq _).trans ((add_modEq _ _).trans ?_)
  rw [fixedMul_fixed]
  refine Int.ModEq.add_right _ ((add_modEq _ _).trans ?_)
  rw [fixedMul_fixed, fixedMul_fixed]
  rfl

/-- The sign of a `fixed_t` is a bit of everything that is cut down to it. -/
lemma nonneg_iff {a : Int32} {i : Int} (h : a.toInt ≡ i [ZMOD 2 ^ 32]) :
    0 ≤ a.toInt ↔ i % 2 ^ 32 < 2 ^ 31 := by
  have hlo := a.le_toInt
  have hhi := a.toInt_lt
  unfold Int.ModEq at h
  omega

end Hydra.Raytracer
