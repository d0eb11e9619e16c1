import Hydra.LibC.Scoped
import Hydra.Raytracer.Machine
import Hydra.Raytracer.Normalize
import Hydra.Raytracer.Ppm

/-!
# raytracer_demo

`raytracer_demo` of `apps/raytracer/raytracer.c` renders the picture into a buffer from `malloc`,
converts it in a second one, and frees both. It leaves the heap as it was, and what it converts
reads back as the picture (`raytracer_demo_undone`). The ground of the default scene is so large
that the numbers overflow where the rays meet it, and one of them divides by zero.

C does not say what a division by zero does. So a `Renderer` is anything that fills the picture or
stops: the loops of `render_scene` with the meaning that C gives them (`Renderer.ofScene`), or with
that of a machine that divides by zero and goes on (`Renderer.onMachine`).
-/

namespace Hydra.Raytracer
open ByteMem FirstFit Rounding Hydra.Kernel Hydra.LibC Hydra.Mm

/-! ## The code -/

/-- What becomes of the loops that render a picture: the memory with the picture in the buffer, if
they come to their end. -/
structure Renderer (size : Size) where
  draw : Mem → Nat → Option Mem
  frame : ∀ m imageBuffer m', draw m imageBuffer = some m' →
    AgreeOff imageBuffer (imageBuffer + size.bytes) m m'

/-- `render_scene` stores the picture of the scene. -/
lemma renderScene_eq (spheres : List Sphere) (m : Mem) (imageBuffer : Nat) :
    renderScene spheres m imageBuffer =
      (picture imageSize spheres).map (storeBytes imageBuffer · m) :=
  render_eq imageSize spheres m imageBuffer

lemma renderScene_frame {spheres : List Sphere} {m m' : Mem} {imageBuffer : Nat}
    (h : renderScene spheres m imageBuffer = some m') :
    AgreeOff imageBuffer (imageBuffer + imageSize.bytes) m m' := by
  rw [renderScene_eq] at h
  obtain ⟨image, himage, rfl⟩ := Option.map_eq_some_iff.mp h
  rw [Size.bytes, ← picture_length himage]
  exact storeBytes_frame imageBuffer image m

/-- The loops as C defines them. -/
def Renderer.ofScene (spheres : List Sphere) : Renderer imageSize where
  draw := renderScene spheres
  frame := fun _ _ _ => renderScene_frame

/-- The loops on a machine that yields `undefined` where it divides by zero. -/
def Renderer.onMachine (undefined : Int32 → Int64) (size : Size) (spheres : List Sphere) :
    Renderer size where
  draw := renderOn undefined size spheres
  frame := fun _ _ _ => renderOn_frame

/-- They come to their end. -/
lemma Renderer.onMachine_draw (undefined : Int32 → Int64) (size : Size) (spheres : List Sphere)
    (m : Mem) (imageBuffer : Nat) :
    (Renderer.onMachine undefined size spheres).draw m imageBuffer ≠ none := by
  obtain ⟨image, _, hrender⟩ := renderOn_eq undefined size spheres m imageBuffer
  exact Option.ne_none_iff_exists'.mpr ⟨_, hrender⟩

/-- The conversion, in a buffer of its own: the file, if there is room for it. -/
def convertInBuffer (mem : Memory) (imageBuffer : Nat) (h : Heap) :
    Option (Option (List UInt8) × Heap) :=
  withBuffer (UInt64.ofNat (imageSize.bytes + 256)) h fun ppmBuffer h =>
    let (ppmSize, m) := convertToPpm mem h.mem imageBuffer ppmBuffer
    some (bytes (shift m ppmBuffer) ppmSize.toNat, { h with mem := m })

/-- C `raytracer_demo`: the file, if both buffers could be allocated, and the heap. The start of the
file is only printed. -/
def raytracerDemo (mem : Memory) (renderer : Renderer imageSize) (h : Heap) :
    Option (Option (List UInt8) × Heap) := do
  let (file, h) ← withBuffer (UInt64.ofNat imageSize.bytes) h fun imageBuffer h => do
    let m ← renderer.draw h.mem imageBuffer
    convertInBuffer mem imageBuffer { h with mem := m }
  some (file.join, h)

/-! ## The heap -/

section Heaps

variable {r : Region} {h : Heap} {bs : List Block}

lemma ppmHeader_imageSize : (ppmHeader imageSize.width imageSize.height).length = 13 := by
  decide +kernel

/-- The conversion leaves the heap as it was, and its file reads back as the picture. -/
lemma convertInBuffer_kept (w : WF r h bs) (mem : Memory) {imageBuffer : Nat}
    (himage : ∀ x, imageBuffer ≤ x → x < imageBuffer + imageSize.bytes → Spared bs ∅ x) :
    ∃ file h', convertInBuffer mem imageBuffer h = some (file, h') ∧ Kept r bs ∅ h h' ∧
      (file = none ↔ ¬Satisfiable h (imageSize.bytes + 256)) ∧
      ∀ f, file = some f → readPpm f =
        some ⟨imageSize.width, imageSize.height, 255,
          bytes (shift h.mem imageBuffer) imageSize.bytes⟩ := by
  unfold convertInBuffer
  rcases withBuffer_cases w (UInt64.ofNat (imageSize.bytes + 256)) (by decide) _ with
    ⟨hno, e⟩ | ⟨ppmBuffer, bs₁, h₁, hs, o, _, hrun⟩
  · exact ⟨none, h, e, .refl w ∅, iff_of_true rfl hno, nofun⟩
  · have hapart : BuffersApart imageSize imageBuffer ppmBuffer := by
      have hout : ∀ x, imageBuffer ≤ x → x < imageBuffer + imageSize.bytes →
          x < ppmBuffer ∨ ppmBuffer + (imageSize.bytes + 256) ≤ x :=
        fun x hlo hhi => (o.kept x (himage x hlo hhi)).2
      have hpos := imageSize.bytes_pos
      have hfirst := hout imageBuffer le_rfl (by omega)
      unfold BuffersApart
      rw [ppmHeader_imageSize]
      by_contra hno
      have hin := hout ppmBuffer (by omega) (by omega)
      omega
    have hsize :
        (convertToPpm mem h₁.mem imageBuffer ppmBuffer).1.toNat ≤ imageSize.bytes + 256 := by
      unfold convertToPpm
      rw [writePpm_eq, ppmHeader_imageSize, Int.toNat_natCast]
      omega
    obtain ⟨h₂, e, k⟩ := hrun ∅ _ _ rfl (o.write ((writePpm_frame mem h₁.mem imageSize imageBuffer
      ppmBuffer).mono le_rfl (Nat.add_le_add_left hsize ppmBuffer)))
    refine ⟨_, h₂, e, k, iff_of_false nofun (not_not_intro hs), fun f hf => ?_⟩
    obtain rfl := Option.some.inj hf
    show readPpm (bytes (shift (writePpm mem h₁.mem imageSize imageBuffer ppmBuffer).2 ppmBuffer)
      (writePpm mem h₁.mem imageSize imageBuffer ppmBuffer).1.toNat) = _
    have hlen : (bytes (shift h₁.mem imageBuffer) imageSize.bytes).length =
        imageSize.height * (imageSize.width * 3) := length_bytes _ _
    have hsame : bytes (shift h₁.mem imageBuffer) imageSize.bytes =
        bytes (shift h.mem imageBuffer) imageSize.bytes :=
      bytes_congr fun i hi => (o.kept _ (himage (imageBuffer + i) (Nat.le_add_right _ _)
        (Nat.add_lt_add_left hi _))).1
    rw [bytes_writePpm mem h₁.mem hapart, readPpm_header _ _ hlen, hsame]

/-- The demo has no room for the picture, or the renderer stops, or the heap is as it was, and the
file is made if there is room for it besides the picture. -/
lemma raytracerDemo_cases (w : WF r h bs) (mem : Memory) (renderer : Renderer imageSize) :
    (¬Satisfiable h imageSize.bytes ∧ raytracerDemo mem renderer h = some (none, h)) ∨
    ∃ imageBuffer h₁, Satisfiable h imageSize.bytes ∧
      malloc h (UInt64.ofNat imageSize.bytes) = some (imageBuffer, h₁) ∧
      ((renderer.draw h₁.mem imageBuffer = none ∧ raytracerDemo mem renderer h = none) ∨
      ∃ m₂ file h', renderer.draw h₁.mem imageBuffer = some m₂ ∧
        raytracerDemo mem renderer h = some (file, h') ∧ Kept r bs ∅ h h' ∧
        (file = none ↔ ¬Satisfiable h₁ (imageSize.bytes + 256)) ∧
        ∀ f, file = some f → readPpm f =
          some ⟨imageSize.width, imageSize.height, 255,
            bytes (shift m₂ imageBuffer) imageSize.bytes⟩) := by
  unfold raytracerDemo
  rcases withBuffer_cases w (UInt64.ofNat imageSize.bytes) (by decide) _ with
    ⟨hno, e⟩ | ⟨imageBuffer, bs₁, h₁, hs, o, hnone, hrun⟩
  · refine .inl ⟨hno, ?_⟩
    rw [e]
    rfl
  · refine .inr ⟨imageBuffer, h₁, hs, o.call, ?_⟩
    cases hdraw : renderer.draw h₁.mem imageBuffer with
    | none =>
      refine .inl ⟨rfl, ?_⟩
      rw [hnone (by simp [hdraw])]
      rfl
    | some m₂ =>
      right
      have k : Kept r bs₁ (∅ ∪ Set.Ico imageBuffer (imageBuffer + imageSize.bytes)) h₁
          { h₁ with mem := m₂ } := o.write (renderer.frame _ _ _ hdraw)
      obtain ⟨file, h₂, hconvert, k', hroom, hfile⟩ := convertInBuffer_kept k.wf mem
        fun x hlo hhi => o.spared hlo hhi
      obtain ⟨h₃, e, k₃⟩ := hrun ∅ file h₂ (by simp [hdraw, hconvert])
        (k.trans (k'.mono (Set.empty_subset _)))
      -- drawing has not changed the blocks
      rw [satisfiable_iff k.wf, ← satisfiable_iff o.wf] at hroom
      refine ⟨m₂, file, h₃, rfl, ?_, k₃, hroom, hfile⟩
      rw [e]
      rfl

end Heaps

/-! ## The default scene -/

/-- A literal with 24 binary digits is converted exactly. -/
lemma literal_exact {a : Int} {k : Nat} (ha : |a| < 2 ^ 24) (hk : k ≤ 16) :
    literal a (2 ^ k) = Int32.ofInt (a * 2 ^ (16 - k)) := by
  have hrep : Representable 24 ((a : ℚ) / (2 ^ k : Nat)) := by
    have hmul := (representable_intCast ha).mul_zpow (-k)
    have hcast : ((2 ^ k : Nat) : ℚ) = 2 ^ k := by push_cast; rfl
    rwa [zpow_neg, zpow_natCast, ← div_eq_mul_inv, ← hcast] at hmul
  have hscaled : (a : ℚ) / (2 ^ k : Nat) * 65536 = ((a * 2 ^ (16 - k) : Int) : ℚ) := by
    have hsplit : (65536 : ℚ) = 2 ^ (16 - k) * 2 ^ k := by
      rw [← pow_add, Nat.sub_add_cancel hk]
      norm_num
    push_cast
    rw [hsplit]
    field_simp
  have hrep' : Representable 24 ((a : ℚ) / (2 ^ k : Nat) * 65536) := by
    have hmul := hrep.mul_zpow 16
    rwa [show ((2 : ℚ) ^ (16 : ℤ)) = 65536 by norm_num] at hmul
  unfold literal floatToFixed toFloat
  rw [roundTo_eq_self hrep, roundTo_eq_self hrep', hscaled]
  congr 1
  exact Int.tdiv_one _

/-- The spheres of the default scene, in units of `2 ^ -16`. -/
lemma setupDefaultScene_eq : setupDefaultScene =
    [⟨⟨0, 0, -327680⟩, 65536, 0x00FF4040⟩, ⟨⟨-131072, 0, -196608⟩, 32768, 0x0040FF40⟩,
      ⟨⟨131072, 0, -262144⟩, 45875, 0x004040FF⟩,
      ⟨⟨0, -65568768, -327680⟩, 65536000, 0x00808080⟩] := by
  have hground : literal (-2001) 2 = -65568768 :=
    literal_exact (k := 1) (by decide) (by decide)
  have hradius : literal 1000 1 = 65536000 :=
    literal_exact (k := 0) (by decide) (by decide)
  unfold setupDefaultScene
  rw [hground, hradius]
  repeat rw [literal_eq (by decide) (by decide)]
  rfl

/-- On the ground a ray divides by zero. -/
lemma picture_default : picture imageSize setupDefaultScene = none := by
  rw [picture_none, setupDefaultScene_eq]
  exact ⟨32, 40, by decide, by decide, by decide +kernel⟩

/-- The coordinates of a pixel are between -1 and 1. -/
lemma coordinate_range {a : Int} {b : Nat} (hlo : -b ≤ a) (hhi : a ≤ b) (hb : 0 < b) :
    -65536 ≤ (a * 65536).tdiv b ∧ (a * 65536).tdiv b ≤ 65536 := by
  have hdiv : ∀ n : Nat, n ≤ b → 0 ≤ ((n : Int) * 65536).tdiv b ∧
      ((n : Int) * 65536).tdiv b ≤ 65536 := by
    intro n hn
    have hnonneg : (0 : Int) ≤ n * 65536 := by omega
    rw [Int.tdiv_eq_ediv_of_nonneg hnonneg]
    exact ⟨Int.ediv_nonneg hnonneg (by omega), Int.ediv_le_of_le_mul (by omega) (by omega)⟩
  obtain ⟨n, rfl | rfl⟩ := Int.eq_nat_or_neg a
  · obtain ⟨h0, h1⟩ := hdiv n (by omega)
    omega
  · obtain ⟨h0, h1⟩ := hdiv n (by omega)
    rw [neg_mul, Int.neg_tdiv]
    omega

/-- A ray goes through every pixel. -/
lemma pixelRay_ne_none (size : Size) {x y : Nat} (hx : x < size.width) (hy : y < size.height) :
    pixelRay size x y ≠ none := by
  obtain ⟨hw, _⟩ := size.width_ok
  obtain ⟨hh, _⟩ := size.height_ok
  obtain ⟨hxlo, hxhi⟩ := coordinate_range (a := (x : Int) - (size.width / 2 : Nat))
    (b := size.width / 2) (by omega) (by omega) (by omega)
  obtain ⟨hylo, hyhi⟩ := coordinate_range (a := (size.height / 2 : Nat) - (y : Int))
    (b := size.height / 2) (by omega) (by omega) (by omega)
  unfold pixelRay
  generalize (((x : Int) - (size.width / 2 : Nat)) * 65536).tdiv (size.width / 2 : Nat) = px at *
  generalize (((size.height / 2 : Nat) - (y : Int)) * 65536).tdiv (size.height / 2 : Nat) = py at *
  have hround : ∀ {a : Int}, -65536 ≤ a → a ≤ 65536 →
      (Int32.ofInt a).toInt = a ∧ 0 ≤ Exact.mul a a ∧ Exact.mul a a ≤ 65536 := by
    intro a hlo hhi
    refine ⟨?_, ?_, ?_⟩
    · have hsize : Int32.size = 2 ^ 32 := rfl
      rw [Int32.toInt_ofInt, hsize]
      exact Int.bmod_eq_of_le (by omega) (by omega)
    · exact Int.ediv_nonneg (mul_self_nonneg a) (by norm_num)
    · have hsq : a * a ≤ 65536 * 65536 := by nlinarith
      unfold Exact.mul
      omega
  obtain ⟨hx', hx0, hx1⟩ := hround hxlo hxhi
  obtain ⟨hy', hy0, hy1⟩ := hround hylo hyhi
  have hz : Exact.mul (-65536 : Int32).toInt (-65536 : Int32).toInt = 65536 := by decide
  rw [createRay, Ne, Option.map_eq_none_iff, ← Ne, vec3Normalize_iff]
  unfold KeepsSign squaredLength Exact.dot Vec3.exact
  dsimp only
  rw [hx', hy', hz]
  omega

/-- Without spheres there is the sky everywhere. -/
lemma picture_sky (size : Size) : picture size [] ≠ none := by
  rw [Ne, picture_none]
  rintro ⟨x, y, hx, hy, hnone⟩
  obtain ⟨ray, hray⟩ := Option.ne_none_iff_exists'.mp (pixelRay_ne_none size hx hy)
  unfold pixel at hnone
  rw [hray] at hnone
  cases hnone

/-- In every reachable heap the demo of a scene has no result exactly if it finds room for the
picture and a ray of the scene divides by zero, as in the default scene. Otherwise it leaves the
heap as it was; it makes a file if there is room for it besides the picture, and this file reads
back as the picture. -/
theorem raytracer_demo_undone (r : Region) (m : Mem) (ops : List HeapOp)
    (hok : History.Contract r m ops) (s : History) (hrun : History.run r m ops = some s)
    (mem : Memory) :
    (raytracerDemo mem (.ofScene setupDefaultScene) s.heap = none ↔
      Satisfiable s.heap imageSize.bytes) ∧
    ∀ spheres,
      (raytracerDemo mem (.ofScene spheres) s.heap = none ↔
        Satisfiable s.heap imageSize.bytes ∧ picture imageSize spheres = none) ∧
      ∀ file h', raytracerDemo mem (.ofScene spheres) s.heap = some (file, h') →
        Undone r s h' ∧
        (∀ p h₁, malloc s.heap (UInt64.ofNat imageSize.bytes) = some (p, h₁) →
          (file = none ↔ ¬Satisfiable h₁ (imageSize.bytes + 256))) ∧
        ∀ f, file = some f → ∃ image, picture imageSize spheres = some image ∧
          readPpm f = some ⟨imageSize.width, imageSize.height, 255, image⟩ := by
  obtain ⟨bs, w, hlive⟩ := History.inv_of_run hok hrun
  have hnone : ∀ spheres, raytracerDemo mem (.ofScene spheres) s.heap = none ↔
      Satisfiable s.heap imageSize.bytes ∧ picture imageSize spheres = none := by
    intro spheres
    rcases raytracerDemo_cases w mem (.ofScene spheres) with
      ⟨hno, e⟩ | ⟨imageBuffer, h₁, hs, _, ⟨hdraw, e⟩ | ⟨m₂, file, h', hdraw, e, _⟩⟩
    · rw [e]
      exact iff_of_false nofun fun hs => hno hs.1
    · have hpicture := hdraw
      simp only [Renderer.ofScene, renderScene_eq, Option.map_eq_none_iff] at hpicture
      exact iff_of_true e ⟨hs, hpicture⟩
    · rw [e]
      refine iff_of_false nofun fun hpicture => ?_
      simp only [Renderer.ofScene, renderScene_eq, hpicture.2] at hdraw
      cases hdraw
  refine ⟨?_, fun spheres => ⟨hnone spheres, fun file h' hdemo => ?_⟩⟩
  · rw [hnone, picture_default]
    exact and_iff_left rfl
  · rcases raytracerDemo_cases w mem (.ofScene spheres) with
      ⟨hno, e⟩ | ⟨imageBuffer, h₁, _, hcall, ⟨_, e⟩ | ⟨m₂, file', h₂, hdraw, e, k, hroom, hfile⟩⟩
    · rw [e] at hdemo
      obtain ⟨rfl, rfl⟩ := Prod.mk.inj (Option.some.inj hdemo)
      refine ⟨(Kept.refl w ∅).undone w hlive, fun p h₁ hcall => iff_of_true rfl fun hs => ?_, nofun⟩
      rcases malloc_cases w (UInt64.ofNat imageSize.bytes) (by decide) with
        ⟨_, e'⟩ | ⟨_, _, _, hs', _, _⟩
      · obtain ⟨rfl, rfl⟩ := Prod.mk.inj (Option.some.inj (e'.symm.trans hcall))
        obtain ⟨b, hb, hfree, hle⟩ := (satisfiable_iff w _).mp hs
        exact hno ((satisfiable_iff w _).mpr ⟨b, hb, hfree, (Nat.le_add_right _ _).trans hle⟩)
      · exact hno hs'
    · rw [e] at hdemo
      cases hdemo
    · rw [e] at hdemo
      obtain ⟨rfl, rfl⟩ := Prod.mk.inj (Option.some.inj hdemo)
      refine ⟨k.undone w hlive, fun p h₁' hcall' => ?_, fun f hf => ?_⟩
      · obtain ⟨rfl, rfl⟩ := Prod.mk.inj (Option.some.inj (hcall.symm.trans hcall'))
        exact hroom
      · simp only [Renderer.ofScene, renderScene_eq] at hdraw
        obtain ⟨image, himage, rfl⟩ := Option.map_eq_some_iff.mp hdraw
        refine ⟨image, himage, ?_⟩
        rw [hfile f hf, Size.bytes, ← picture_length himage, bytes_storeBytes]

/-- A region with room for both buffers. -/
def demoRegion : Region where
  start := 4096
  stop := 32768
  start_pos := by decide
  start_aligned := by decide
  stop_aligned := by decide
  room := by decide
  small := by decide
  addressable := by decide

/-- In this region the default scene has no result, and the picture of the sky is drawn and
converted. -/
theorem raytracer_demo_undone_default :
    ∃ s, History.run demoRegion (fun _ => 0) [] = some s ∧ Satisfiable s.heap imageSize.bytes ∧
      raytracerDemo ⟨fun _ => [], fun _ => 0⟩ (.ofScene setupDefaultScene) s.heap = none ∧
      ∃ f h' image, raytracerDemo ⟨fun _ => [], fun _ => 0⟩ (.ofScene []) s.heap =
          some (some f, h') ∧ Undone demoRegion s h' ∧ picture imageSize [] = some image ∧
        readPpm f = some ⟨64, 48, 255, image⟩ := by
  have w := mmInit_wf demoRegion (h := bootHeap fun _ => 0) rfl
  have hs : Satisfiable (History.init demoRegion fun _ => 0).heap imageSize.bytes :=
    ⟨_, w.blocks, _, List.mem_singleton_self _, rfl, by decide⟩
  obtain ⟨hdefault, hscene⟩ := raytracer_demo_undone demoRegion (fun _ => 0) [] (by decide) _ rfl
    ⟨fun _ => [], fun _ => 0⟩
  obtain ⟨hnone, hsome⟩ := hscene []
  obtain ⟨⟨file, h'⟩, hdemo⟩ := Option.ne_none_iff_exists'.mp
    fun hno => picture_sky imageSize (hnone.mp hno).2
  obtain ⟨hundone, hroom, hfile⟩ := hsome file h' hdemo
  have hsecond :
      (malloc (History.init demoRegion fun _ => 0).heap (UInt64.ofNat imageSize.bytes)).bind
        (fun c => c.2.blocks) = some [⟨4096, 9216, false⟩, ⟨13328, 19424, true⟩] := by
    decide +kernel
  obtain ⟨⟨p, h₁⟩, hcall, hblocks⟩ := Option.bind_eq_some_iff.mp hsecond
  cases file with
  | none =>
    refine absurd ?_ ((hroom p h₁ hcall).mp rfl)
    exact ⟨_, hblocks, ⟨13328, 19424, true⟩, by decide, rfl, by decide⟩
  | some f =>
    obtain ⟨image, himage, hread⟩ := hfile f rfl
    exact ⟨_, rfl, hs, hdefault.mpr hs, f, h', image, hdemo, hundone, himage, hread⟩

end Hydra.Raytracer
