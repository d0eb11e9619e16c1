import Hydra.Lib.Nearest
import Hydra.Raytracer.Vector

/-!
# trace_ray

`trace_ray` remembers the nearest of the hits that `intersect_sphere` reports. It has a result
exactly if `intersect_sphere` has one for every sphere (`traceRay_eq`, `traceRay_none`), and then it
is the hit with the least distance below 1000.0, the first one among equals (`trace_ray_nearest`).
-/

namespace Hydra.Raytracer
open Nearest

/-- `FLOAT_TO_FIXED(1000.0f)` -/
def thousand : Int32 := 65536000

/-- One round of the loop of `trace_ray`, on `closest_hit` and `closest_distance`. -/
def traceRound (ray : Ray) (closest : Hit × Int32) (sphere : Sphere) : Option (Hit × Int32) := do
  let hit ← intersectSphere ray sphere
  if hit.hit ≠ 0 ∧ hit.distance < closest.2 then some (hit, hit.distance) else some closest

/-- C `trace_ray`, for the first `num_spheres` of the `spheres`; nothing if it divides by zero. -/
def traceRay (ray : Ray) (spheres : List Sphere) : Option Hit :=
  (spheres.foldlM (traceRound ray) (Hit.none, thousand)).map Prod.fst

/-! ## The loop -/

/-- Distances are in a linear order. -/
instance instLinearOrderInt32 : LinearOrder Int32 where
  le_refl := Int32.le_refl
  le_trans _ _ _ := Int32.le_trans
  le_antisymm _ _ := Int32.le_antisymm
  le_total := Int32.le_total
  lt_iff_le_not_ge _ _ := Std.LawfulOrderLT.lt_iff _ _
  toDecidableLE := inferInstance

variable {ray : Ray} {spheres : List Sphere}

/-- What `intersect_sphere` returns if it does not divide by zero. -/
def resultOf (ray : Ray) (sphere : Sphere) : Hit := (intersectSphere ray sphere).getD Hit.none

/-- The round takes the nearer hit. -/
abbrev nearer : Hit × Int32 → Hit → Hit × Int32 :=
  closer (fun hit : Hit => hit.hit ≠ 0) Hit.distance

lemma traceRound_eq {closest : Hit × Int32} {sphere : Sphere} {hit : Hit}
    (h : intersectSphere ray sphere = some hit) :
    traceRound ray closest sphere = some (nearer closest hit) := by
  unfold traceRound nearer closer
  rw [h, Option.bind_eq_bind, Option.bind_some]
  split
  · rfl
  · rfl

lemma traceLoop_eq (closest : Hit × Int32)
    (h : ∀ sphere ∈ spheres, intersectSphere ray sphere ≠ none) :
    spheres.foldlM (traceRound ray) closest =
      some ((spheres.map (resultOf ray)).foldl nearer closest) := by
  induction spheres generalizing closest with
  | nil => rfl
  | cons sphere spheres ih =>
    obtain ⟨hsphere, hspheres⟩ := List.forall_mem_cons.mp h
    obtain ⟨hit, hhit⟩ := Option.ne_none_iff_exists'.mp hsphere
    have hresult : resultOf ray sphere = hit := by
      unfold resultOf
      rw [hhit, Option.getD_some]
    rw [List.foldlM_cons, traceRound_eq hhit, Option.bind_eq_bind, Option.bind_some,
      ih _ hspheres, List.map_cons, List.foldl_cons, hresult]

/-- `trace_ray` has a result if `intersect_sphere` has one for every sphere. -/
lemma traceRay_eq (h : ∀ sphere ∈ spheres, intersectSphere ray sphere ≠ none) :
    traceRay ray spheres =
      some ((spheres.map (resultOf ray)).foldl nearer (Hit.none, thousand)).1 := by
  unfold traceRay
  rw [traceLoop_eq _ h, Option.map_some]

lemma traceLoop_none (closest : Hit × Int32)
    (h : ∃ sphere ∈ spheres, intersectSphere ray sphere = none) :
    spheres.foldlM (traceRound ray) closest = none := by
  induction spheres generalizing closest with
  | nil =>
    obtain ⟨_, hmem, _⟩ := h
    exact absurd hmem List.not_mem_nil
  | cons sphere spheres ih =>
    rw [List.foldlM_cons]
    cases hsphere : intersectSphere ray sphere with
    | none =>
      have hround : traceRound ray closest sphere = none := by
        unfold traceRound
        rw [hsphere]
        rfl
      rw [hround]
      rfl
    | some hit =>
      rw [traceRound_eq hsphere, Option.bind_eq_bind, Option.bind_some]
      refine ih _ ?_
      obtain ⟨sphere', hmem, hnone⟩ := h
      rcases List.mem_cons.mp hmem with rfl | hmem
      · rw [hsphere] at hnone
        cases hnone
      · exact ⟨sphere', hmem, hnone⟩

lemma traceRay_none : traceRay ray spheres = none ↔
    ∃ sphere ∈ spheres, intersectSphere ray sphere = none := by
  constructor
  · intro hnone
    by_contra hall
    push Not at hall
    rw [traceRay_eq hall] at hnone
    cases hnone
  · intro h
    unfold traceRay
    rw [traceLoop_none _ h]
    rfl

/-! ## The nearest hit -/

/-- `intersect_sphere` returns a hit that is nearer than 1000.0. -/
structure InReach (ray : Ray) (sphere : Sphere) (hit : Hit) : Prop where
  result : intersectSphere ray sphere = some hit
  hits : hit.hit ≠ 0
  below : hit.distance < thousand

/-- The hit of the sphere number `i` has the least distance, and the spheres in front of it have
none of the same distance. -/
structure IsClosest (ray : Ray) (spheres : List Sphere) (i : Nat) (closest : Hit) : Prop where
  reach : ∃ sphere, spheres[i]? = some sphere ∧ InReach ray sphere closest
  least : ∀ sphere ∈ spheres, ∀ hit, InReach ray sphere hit → closest.distance ≤ hit.distance
  first : ∀ j < i, ∀ sphere, spheres[j]? = some sphere → ∀ hit, InReach ray sphere hit →
    closest.distance < hit.distance

/-- No two spheres are hit at the same distance. -/
def DistinctDistances (ray : Ray) (spheres : List Sphere) : Prop :=
  spheres.Pairwise fun sphere sphere' => ∀ hit hit', InReach ray sphere hit →
    InReach ray sphere' hit' → hit.distance ≠ hit'.distance

/-- The nearest one of the results. -/
abbrev NearestResult (ray : Ray) (spheres : List Sphere) : Nat → Hit → Prop :=
  IsNearest (fun hit : Hit => hit.hit ≠ 0) Hit.distance thousand (spheres.map (resultOf ray))

lemma InReach.resultOf {sphere : Sphere} {hit : Hit} (h : InReach ray sphere hit) :
    resultOf ray sphere = hit := by
  unfold Raytracer.resultOf
  rw [h.result, Option.getD_some]

lemma inReach_resultOf {sphere : Sphere} (h : intersectSphere ray sphere ≠ none)
    (hhit : (resultOf ray sphere).hit ≠ 0) (hbelow : (resultOf ray sphere).distance < thousand) :
    InReach ray sphere (resultOf ray sphere) := by
  obtain ⟨hit, hsome⟩ := Option.ne_none_iff_exists'.mp h
  refine ⟨?_, hhit, hbelow⟩
  unfold resultOf
  rw [hsome, Option.getD_some]

lemma isClosest {i : Nat} {closest : Hit}
    (hall : ∀ sphere ∈ spheres, intersectSphere ray sphere ≠ none)
    (h : NearestResult ray spheres i closest) : IsClosest ray spheres i closest where
  reach := by
    have hget := h.get
    rw [List.getElem?_map, Option.map_eq_some_iff] at hget
    obtain ⟨sphere, hsphere, rfl⟩ := hget
    have hmem := List.mem_of_getElem? hsphere
    exact ⟨sphere, hsphere, inReach_resultOf (hall _ hmem) h.counts h.below⟩
  least sphere hmem hit hreach := by
    rw [← hreach.resultOf]
    refine h.least _ (List.mem_map_of_mem hmem) ?_
    rw [hreach.resultOf]
    exact hreach.hits
  first j hj sphere hsphere hit hreach := by
    rw [← hreach.resultOf]
    refine h.first j hj _ ?_ ?_
    · rw [List.getElem?_map, hsphere, Option.map_some]
    · rw [hreach.resultOf]
      exact hreach.hits

/-- `trace_ray` returns that there is no hit, or the nearest one. -/
lemma traceRay_cases (hall : ∀ sphere ∈ spheres, intersectSphere ray sphere ≠ none) :
    ((∀ sphere ∈ spheres, ∀ hit, ¬InReach ray sphere hit) ∧ traceRay ray spheres = some Hit.none) ∨
    ∃ i closest, NearestResult ray spheres i closest ∧ traceRay ray spheres = some closest := by
  rw [traceRay_eq hall]
  rcases foldl_closer (fun hit : Hit => hit.hit ≠ 0) Hit.distance Hit.none thousand
    (spheres.map (resultOf ray)) with ⟨hnone, hfold⟩ | ⟨i, closest, hnearest, hfold⟩
  · refine .inl ⟨fun sphere hmem hit hreach => ?_, by rw [hfold]⟩
    have hle := hnone _ (List.mem_map_of_mem hmem)
    rw [hreach.resultOf] at hle
    exact absurd (hle hreach.hits) (not_le.mpr hreach.below)
  · exact .inr ⟨i, closest, hnearest, by rw [hfold]⟩

/-- The order of the spheres does not matter. -/
lemma traceRay_perm {spheres' : List Sphere} (hperm : spheres.Perm spheres')
    (hdistinct : DistinctDistances ray spheres) : traceRay ray spheres' = traceRay ray spheres := by
  by_cases hall : ∀ sphere ∈ spheres, intersectSphere ray sphere ≠ none
  · have hall' : ∀ sphere ∈ spheres', intersectSphere ray sphere ≠ none := fun sphere hmem =>
      hall sphere (hperm.mem_iff.mpr hmem)
    rcases traceRay_cases hall with ⟨hnone, htrace⟩ | ⟨i, closest, hnearest, htrace⟩
    · rcases traceRay_cases hall' with ⟨_, htrace'⟩ | ⟨i', closest', hnearest', _⟩
      · rw [htrace, htrace']
      · obtain ⟨sphere, hsphere, hreach⟩ := (isClosest hall' hnearest').reach
        exact absurd hreach (hnone sphere (hperm.mem_iff.mpr (List.mem_of_getElem? hsphere)) _)
    · rcases traceRay_cases hall' with ⟨hnone', _⟩ | ⟨i', closest', hnearest', htrace'⟩
      · obtain ⟨sphere, hsphere, hreach⟩ := (isClosest hall hnearest).reach
        exact absurd hreach (hnone' sphere (hperm.mem_iff.mp (List.mem_of_getElem? hsphere)) _)
      · rw [htrace, htrace', hnearest.eq_of_perm hnearest' (hperm.map _)]
        rw [List.pairwise_map]
        refine hdistinct.imp_of_mem fun hmem hmem' h hhit hbelow hhit' hbelow' => ?_
        exact h _ _ (inReach_resultOf (hall _ hmem) hhit hbelow)
          (inReach_resultOf (hall _ hmem') hhit' hbelow')
  · push Not at hall
    have hall' : ∃ sphere ∈ spheres', intersectSphere ray sphere = none := by
      obtain ⟨sphere, hmem, hnone⟩ := hall
      exact ⟨sphere, hperm.mem_iff.mp hmem, hnone⟩
    rw [traceRay_none.mpr hall, traceRay_none.mpr hall']

/-- For every ray and all spheres, `trace_ray` has a result exactly if `intersect_sphere` has one
for each of them. It is a hit exactly if `intersect_sphere` reports one below 1000.0, and then it is
the one with the least distance, the first among equals. If no two spheres are hit at the same
distance, it does not depend on their order. -/
theorem trace_ray_nearest (ray : Ray) (spheres : List Sphere) :
    (traceRay ray spheres = none ↔ ∃ sphere ∈ spheres, intersectSphere ray sphere = none) ∧
    (∀ closest, traceRay ray spheres = some closest →
      (closest.hit ≠ 0 ↔ ∃ sphere ∈ spheres, ∃ hit, InReach ray sphere hit) ∧
      (closest.hit ≠ 0 → ∃ i, IsClosest ray spheres i closest)) ∧
    ∀ spheres', spheres.Perm spheres' → DistinctDistances ray spheres →
      traceRay ray spheres' = traceRay ray spheres := by
  refine ⟨traceRay_none, fun closest h => ?_, fun _ => traceRay_perm⟩
  have hall : ∀ sphere ∈ spheres, intersectSphere ray sphere ≠ none := by
    intro sphere hmem hnone
    rw [traceRay_none.mpr ⟨sphere, hmem, hnone⟩] at h
    cases h
  rcases traceRay_cases hall with ⟨hnone, htrace⟩ | ⟨i, nearest, hnearest, htrace⟩
  · obtain rfl := Option.some.inj (h.symm.trans htrace)
    refine ⟨iff_of_false (fun h0 => h0 rfl) ?_, fun h0 => absurd rfl h0⟩
    rintro ⟨sphere, hmem, hit, hreach⟩
    exact hnone sphere hmem hit hreach
  · obtain rfl := Option.some.inj (h.symm.trans htrace)
    have hclosest := isClosest hall hnearest
    obtain ⟨sphere, hsphere, hreach⟩ := hclosest.reach
    refine ⟨iff_of_true hreach.hits ⟨sphere, ?_, _, hreach⟩, fun _ => ⟨i, hclosest⟩⟩
    exact List.mem_of_getElem? hsphere

/-- The ray through the middle of the picture. -/
def forward : Ray := ⟨⟨0, 0, 0⟩, ⟨0, 0, -65536⟩⟩

/-- The red sphere of the default scene. -/
def red : Sphere := ⟨⟨0, 0, -327680⟩, 65536, 0xff4040⟩

/-- A sphere behind the red one. -/
def behind : Sphere := ⟨⟨0, 0, -655360⟩, 65536, 0x4040ff⟩

theorem trace_ray_nearest_red :
    (∃ i, IsClosest forward [behind, red] i
      ⟨1, 262144, ⟨0, 0, -262144⟩, ⟨0, 0, 65536⟩, 0xff4040⟩) ∧
    traceRay forward [red, behind] = traceRay forward [behind, red] := by
  obtain ⟨_, hclosest, hperm⟩ := trace_ray_nearest forward [behind, red]
  refine ⟨(hclosest _ (by decide +kernel)).2 (by decide), hperm _ (List.Perm.swap _ _ _) ?_⟩
  refine List.pairwise_pair.mpr fun hit hit' hreach hreach' => ?_
  have hbehind : intersectSphere forward behind =
      some ⟨1, 589824, ⟨0, 0, -589824⟩, ⟨0, 0, 65536⟩, 0x4040ff⟩ := by decide +kernel
  have hred : intersectSphere forward red =
      some ⟨1, 262144, ⟨0, 0, -262144⟩, ⟨0, 0, 65536⟩, 0xff4040⟩ := by decide +kernel
  obtain rfl := Option.some.inj (hreach.result.symm.trans hbehind)
  obtain rfl := Option.some.inj (hreach'.result.symm.trans hred)
  decide

end Hydra.Raytracer
