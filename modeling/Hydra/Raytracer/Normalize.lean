import Hydra.Raytracer.Vector

/-!
# Normalisation

`vec3_normalize` leaves a vector alone whose squared length is 0. But a squared length from `2 ^ 15`
on wraps, to a negative number for half of the values, and `fixed_sqrt` of a negative number is 0:
`vec3_normalize` then divides by it (`vec3_normalize_safe`).
-/

namespace Hydra.Raytracer

/-- `vec3_normalize` returns its argument, whose squared length is 0, or divides by a length that is
not 0. -/
def NormalizesSafely (v : Vec3) : Prop :=
  vec3Dot v v = 0 ∧ vec3Normalize v = some v ∨
    ∃ len, fixedSqrt (vec3Dot v v) = some len ∧ len ≠ 0 ∧ vec3Normalize v ≠ none

/-- The squared length of a vector, before it becomes a `fixed_t`. -/
def squaredLength (v : Vec3) : Int := v.exact.dot v.exact

/-- The squared length is not negative when it has become a `fixed_t`. -/
def KeepsSign (v : Vec3) : Prop := squaredLength v % 2 ^ 32 < 2 ^ 31

instance (v : Vec3) : Decidable (KeepsSign v) :=
  inferInstanceAs (Decidable (squaredLength v % 2 ^ 32 < 2 ^ 31))

lemma keepsSign_iff (v : Vec3) : KeepsSign v ↔ 0 ≤ (vec3Dot v v).toInt :=
  (nonneg_iff (vec3Dot_modEq v v)).symm

lemma fixedDiv_ne_none (a : Int32) {b : Int32} (hb : 0 < b.toInt) :
    ∃ q, fixedDiv a b.toInt64 = some q := by
  have hne : b.toInt64 ≠ 0 := by
    intro h0
    have hvalue := Int32.toInt_toInt64 b
    rw [h0, Int64.toInt_zero] at hvalue
    omega
  exact ⟨_, if_neg hne⟩

lemma vec3Normalize_of_pos {v : Vec3} (h : 0 < (vec3Dot v v).toInt) :
    ∃ len, fixedSqrt (vec3Dot v v) = some len ∧ len ≠ 0 ∧ vec3Normalize v ≠ none := by
  obtain ⟨len, hlen, hpos⟩ := fixedSqrt_pos h
  obtain ⟨x, hx⟩ := fixedDiv_ne_none v.x hpos
  obtain ⟨y, hy⟩ := fixedDiv_ne_none v.y hpos
  obtain ⟨z, hz⟩ := fixedDiv_ne_none v.z hpos
  have hne : vec3Dot v v ≠ 0 := by
    intro h0
    rw [h0] at h
    exact absurd h (by decide)
  refine ⟨len, hlen, ?_, ?_⟩
  · rintro rfl
    exact absurd hpos (by decide)
  · unfold vec3Normalize
    simp [hne, hlen, hx, hy, hz]

lemma vec3Normalize_of_neg {v : Vec3} (h : (vec3Dot v v).toInt < 0) : vec3Normalize v = none := by
  have hne : vec3Dot v v ≠ 0 := by
    intro h0
    rw [h0] at h
    exact absurd h (by decide)
  have hsqrt := fixedSqrt_of_nonpos h.le
  have hdiv : fixedDiv v.x (0 : Int32).toInt64 = none := if_pos (by decide)
  unfold vec3Normalize
  simp only [if_neg hne, hsqrt, Option.bind_eq_bind, Option.bind_some, hdiv, Option.bind_none]

lemma vec3Normalize_of_zero {v : Vec3} (h : (vec3Dot v v).toInt = 0) :
    vec3Dot v v = 0 ∧ vec3Normalize v = some v := by
  have h0 : vec3Dot v v = 0 := Int32.toInt_inj.mp h
  exact ⟨h0, if_pos h0⟩

lemma vec3Normalize_iff (v : Vec3) : vec3Normalize v ≠ none ↔ KeepsSign v := by
  rw [keepsSign_iff]
  rcases lt_trichotomy (vec3Dot v v).toInt 0 with hneg | hzero | hpos
  · exact iff_of_false (fun h => h (vec3Normalize_of_neg hneg)) (not_le.mpr hneg)
  · rw [(vec3Normalize_of_zero hzero).2]
    exact iff_of_true (Option.some_ne_none v) hzero.ge
  · obtain ⟨_, _, _, hsome⟩ := vec3Normalize_of_pos hpos
    exact iff_of_true hsome hpos.le

lemma normalizesSafely_iff (v : Vec3) : NormalizesSafely v ↔ KeepsSign v := by
  constructor
  · rintro (⟨_, hsome⟩ | ⟨_, _, _, hsome⟩)
    · refine (vec3Normalize_iff v).mp ?_
      rw [hsome]
      exact Option.some_ne_none v
    · exact (vec3Normalize_iff v).mp hsome
  · intro hkeeps
    rcases ((keepsSign_iff v).mp hkeeps).eq_or_lt with hzero | hpos
    · exact .inl (vec3Normalize_of_zero hzero.symm)
    · exact .inr (vec3Normalize_of_pos hpos)

/-- Behind a hit `intersect_sphere` divides only in its normalisation. -/
lemma intersectSphere_of_hit {ray : Ray} {sphere : Sphere} {t : Int32}
    (ht : hitDistance ray sphere = some (some t)) :
    intersectSphere ray sphere = (vec3Normalize (vec3Sub (hitPoint ray t) sphere.center)).map
      fun normal => ⟨1, t, hitPoint ray t, normal, sphere.color⟩ := by
  unfold intersectSphere
  rw [ht, Option.map_eq_bind]
  simp only [Option.bind_eq_bind, Option.bind_some]
  rfl

/-- For every vector, `vec3_normalize` divides by a length that is not 0, or by none, exactly if the
squared length of the vector is below half of `2 ^ 32` modulo `2 ^ 32`. The same holds of
`create_ray` with the vector as its direction, and of `intersect_sphere` when it is the one from the
center of the sphere to the hit. -/
theorem vec3_normalize_safe (v : Vec3) :
    (NormalizesSafely v ↔ KeepsSign v) ∧ (∀ origin, createRay origin v ≠ none ↔ KeepsSign v) ∧
    ∀ ray sphere t, hitDistance ray sphere = some (some t) →
      v = vec3Sub (hitPoint ray t) sphere.center →
        (intersectSphere ray sphere ≠ none ↔ KeepsSign v) := by
  refine ⟨normalizesSafely_iff v, fun origin => ?_, ?_⟩
  · rw [← vec3Normalize_iff, createRay, Ne, Option.map_eq_none_iff]
  · rintro ray sphere t ht rfl
    rw [← vec3Normalize_iff, intersectSphere_of_hit ht, Ne, Option.map_eq_none_iff]

/-- The red sphere of the default scene, hit in the middle. -/
theorem vec3_normalize_safe_red :
    intersectSphere ⟨⟨0, 0, 0⟩, ⟨0, 0, -65536⟩⟩ ⟨⟨0, 0, -327680⟩, 65536, 0xff4040⟩ ≠ none :=
  ((vec3_normalize_safe ⟨0, 0, 65536⟩).2.2 ⟨⟨0, 0, 0⟩, ⟨0, 0, -65536⟩⟩
    ⟨⟨0, 0, -327680⟩, 65536, 0xff4040⟩ 262144 (by decide +kernel) (by decide +kernel)).mpr
    (by decide +kernel)

/-- The vector (200, 0, 0). -/
theorem vec3_normalize_safe_fails :
    fixedSqrt (vec3Dot ⟨13107200, 0, 0⟩ ⟨13107200, 0, 0⟩) = some 0 ∧
      vec3Normalize ⟨13107200, 0, 0⟩ = none ∧ ¬NormalizesSafely ⟨13107200, 0, 0⟩ := by
  refine ⟨by decide +kernel, by decide +kernel, ?_⟩
  rw [normalizesSafely_iff]
  decide +kernel

end Hydra.Raytracer
