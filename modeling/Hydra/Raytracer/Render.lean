import Hydra.Lib.ByteMem
import Hydra.Raytracer.Shade

/-!
# render_scene

`render_scene` of `apps/raytracer/raytracer.c` sends a ray through every pixel, row by row, and
stores three bytes for each. This is the whole picture, stored at once: each pixel has the shade
that it has without any `float`, and nothing else is written (`render_scene_image`). The size of the
picture, 64 by 48 in the code, may be any from 2 to 510 here.
-/

namespace Hydra.Raytracer
open ByteMem Rounding

/-! ## The code -/

/-- The size of a picture, from 2, so that half of it is not 0, to 510: up to there the coordinates
of a pixel, as numbers of the type `float`, are precise enough with their 24 digits to be converted
like integer quotients. -/
structure Size where
  width : Nat
  height : Nat
  width_ok : 2 ≤ width ∧ width ≤ 510
  height_ok : 2 ≤ height ∧ height ≤ 510

/-- `IMAGE_WIDTH` and `IMAGE_HEIGHT`. -/
def imageSize : Size := ⟨64, 48, by decide, by decide⟩

/-- `FLOAT_TO_FIXED` of the literal `a / b`. -/
def literal (a : Int) (b : Nat) : Int32 := floatToFixed (toFloat (a / b))

/-- The spheres of `setup_default_scene`. -/
def setupDefaultScene : List Sphere :=
  [⟨⟨literal 0 1, literal 0 1, literal (-5) 1⟩, literal 1 1, 0x00FF4040⟩,
    ⟨⟨literal (-2) 1, literal 0 1, literal (-3) 1⟩, literal 1 2, 0x0040FF40⟩,
    ⟨⟨literal 2 1, literal 0 1, literal (-4) 1⟩, literal 7 10, 0x004040FF⟩,
    ⟨⟨literal 0 1, literal (-2001) 2, literal (-5) 1⟩, literal 1000 1, 0x00808080⟩]

/-- `light_dir` -/
def lightDir : Option Vec3 := vec3Normalize ⟨literal (-1) 2, literal 1 1, literal (-1) 2⟩

/-- `FLOAT_TO_FIXED((float)a / b)` -/
def screenCoordinate (a : Int) (b : Nat) : Int32 :=
  floatToFixed (toFloat (toFloat a / toFloat b))

/-- The color of the pixel in column `x` and row `y`. -/
def pixelColor (size : Size) (spheres : List Sphere) (light : Vec3) (x y : Nat) : Option Int32 := do
  let px := screenCoordinate ((x : Int) - (size.width / 2 : Nat)) (size.width / 2)
  let py := screenCoordinate ((size.height / 2 : Nat) - (y : Int)) (size.height / 2)
  let pz := literal (-1) 1
  let ray ← createRay ⟨literal 0 1, literal 0 1, literal 0 1⟩ ⟨px, py, pz⟩
  let hit ← traceRay ray spheres
  some (shadePixel hit light)

/-- The three stores of a pixel, on `pixel_index` and the memory. -/
def storePixel (imageBuffer : Nat) (color : Int32) (s : Nat × Mem) : Nat × Mem :=
  let (pixelIndex, m) := s
  let m := Function.update m (imageBuffer + pixelIndex) (channel color 16)
  let m := Function.update m (imageBuffer + (pixelIndex + 1)) (channel color 8)
  let m := Function.update m (imageBuffer + (pixelIndex + 2)) (channel color 0)
  (pixelIndex + 3, m)

/-- One round of the inner loop, given how the colors are computed. -/
def renderPixel (color : Nat → Nat → Option Int32) (imageBuffer y : Nat) (s : Nat × Mem) (x : Nat) :
    Option (Nat × Mem) :=
  (color x y).map fun color => storePixel imageBuffer color s

/-- One round of the outer loop. -/
def renderRow (size : Size) (color : Nat → Nat → Option Int32) (imageBuffer : Nat) (s : Nat × Mem)
    (y : Nat) : Option (Nat × Mem) :=
  (List.range size.width).foldlM (renderPixel color imageBuffer y) s

/-- The two loops, with `pixel_index` 0 at first. -/
def renderLoops (size : Size) (color : Nat → Nat → Option Int32) (m : Mem) (imageBuffer : Nat) :
    Option Mem :=
  ((List.range size.height).foldlM (renderRow size color imageBuffer) (0, m)).map Prod.snd

/-- The rendering of a picture into a buffer; nothing if a ray divides by zero. -/
def render (size : Size) (spheres : List Sphere) (m : Mem) (imageBuffer : Nat) : Option Mem := do
  let light ← lightDir
  renderLoops size (pixelColor size spheres light) m imageBuffer

/-- C `render_scene`. -/
def renderScene (spheres : List Sphere) (m : Mem) (imageBuffer : Nat) : Option Mem :=
  render imageSize spheres m imageBuffer

/-! ## The picture -/

/-- The light, in units of `2 ^ -16`. -/
def light : Vec3 := ⟨-26755, 53510, -26755⟩

/-- The ray through a pixel, in integers. -/
def pixelRay (size : Size) (x y : Nat) : Option Ray :=
  createRay ⟨0, 0, 0⟩
    ⟨Int32.ofInt ((((x : Int) - (size.width / 2 : Nat)) * 65536).tdiv (size.width / 2 : Nat)),
      Int32.ofInt ((((size.height / 2 : Nat) - (y : Int)) * 65536).tdiv (size.height / 2 : Nat)),
      -65536⟩

/-- The bytes of a pixel, in integers. -/
def pixel (size : Size) (spheres : List Sphere) (x y : Nat) : Option (List UInt8) := do
  let ray ← pixelRay size x y
  let hit ← traceRay ray spheres
  if hit.hit = 0 then some [0x20, 0x20, 0x40]
  else some ((rgb hit.color).map (litChannel (vec3Dot hit.normal light).toInt.toNat))

/-- The bytes of a row of pixels. -/
def row (size : Size) (pixel : Nat → Nat → Option (List UInt8)) (y : Nat) : Option (List UInt8) :=
  ((List.range size.width).mapM fun x => pixel x y).map List.flatten

/-- The bytes of all pixels, row by row. -/
def rows (size : Size) (pixel : Nat → Nat → Option (List UInt8)) : Option (List UInt8) :=
  ((List.range size.height).mapM (row size pixel)).map List.flatten

/-- The bytes of the picture of a scene. -/
def picture (size : Size) (spheres : List Sphere) : Option (List UInt8) :=
  rows size (pixel size spheres)

/-! ## Coordinates -/

lemma toFloat_intCast {a : Int} (h : |a| < 2 ^ 24) : toFloat (a : ℚ) = a :=
  roundTo_eq_self (representable_intCast h)

lemma screenCoordinate_eq {a : Int} {b : Nat} (ha : |a| < 256) (hb : 0 < b) (hb' : b < 2 ^ 24) :
    screenCoordinate a b = Int32.ofInt ((a * 65536).tdiv b) := by
  have hfloat : toFloat (b : ℚ) = b := by
    have hint := toFloat_intCast (a := b) (by rw [Nat.abs_cast]; exact_mod_cast hb')
    rwa [Int.cast_natCast] at hint
  unfold screenCoordinate
  rw [toFloat_intCast (by omega), hfloat]
  exact floatToFixed_quotient ha hb

lemma literal_eq {a : Int} {b : Nat} (ha : |a| < 256) (hb : 0 < b) :
    literal a b = Int32.ofInt ((a * 65536).tdiv b) :=
  floatToFixed_quotient ha hb

lemma lightDir_eq : lightDir = some light := by
  unfold lightDir
  rw [literal_eq (by decide) (by decide), literal_eq (by decide) (by decide)]
  decide +kernel

/-- Neither the coordinates nor the shade depend on the type `float`. -/
lemma pixelColor_eq (size : Size) (spheres : List Sphere) {x y : Nat} (hx : x < size.width)
    (hy : y < size.height) :
    (pixelColor size spheres light x y).map rgb = pixel size spheres x y := by
  obtain ⟨hw, hw'⟩ := size.width_ok
  obtain ⟨hh, hh'⟩ := size.height_ok
  have horigin : literal 0 1 = 0 := literal_eq (by decide) (by decide)
  have hnear : literal (-1) 1 = -65536 := literal_eq (by decide) (by decide)
  unfold pixelColor pixel pixelRay
  rw [screenCoordinate_eq (abs_lt.mpr ⟨by omega, by omega⟩) (by omega) (by omega),
    screenCoordinate_eq (abs_lt.mpr ⟨by omega, by omega⟩) (by omega) (by omega), horigin, hnear]
  simp only [Option.bind_eq_bind]
  generalize createRay _ _ = ray
  cases ray with
  | none => rfl
  | some ray =>
    rw [Option.bind_some, Option.bind_some]
    cases traceRay ray spheres with
    | none => rfl
    | some hit =>
      rw [Option.bind_some, Option.bind_some, Option.map_some, shade_pixel_exact]
      split <;> rfl

/-! ## The loops -/

section Loops

variable {size : Size} {spheres : List Sphere} {imageBuffer : Nat}
  {color : Nat → Nat → Option Int32} {pixel : Nat → Nat → Option (List UInt8)}

/-- The three stores write the bytes of the pixel. -/
lemma storePixel_eq (color : Int32) (p : Nat) (m : Mem) :
    storePixel imageBuffer color (p, m) = (p + 3, storeBytes (imageBuffer + p) (rgb color) m) := by
  have hsplit : rgb color = [channel color 16] ++ ([channel color 8] ++ [channel color 0]) := rfl
  unfold storePixel
  rw [hsplit, ← storeBytes_append, ← storeBytes_append]
  simp only [update_eq_storeBytes, List.length_singleton, Nat.add_assoc]

/-- A loop whose rounds write one piece after the other writes all of them. -/
lemma storeLoop {f : Nat × Mem → Nat → Option (Nat × Mem)} {piece : Nat → Option (List UInt8)}
    {l : List Nat} (hf : ∀ i ∈ l, ∀ p m, f (p, m) i =
      (piece i).map fun b => (p + b.length, storeBytes (imageBuffer + p) b m)) (p : Nat) (m : Mem) :
    l.foldlM f (p, m) = ((l.mapM piece).map List.flatten).map fun b =>
      (p + b.length, storeBytes (imageBuffer + p) b m) := by
  induction l generalizing p m with
  | nil => simp [storeBytes_nil]
  | cons i l ih =>
    obtain ⟨hi, hl⟩ := List.forall_mem_cons.mp hf
    rw [List.foldlM_cons, List.mapM_cons, hi p m]
    cases piece i with
    | none => rfl
    | some b =>
      simp only [Option.map_some, Option.bind_eq_bind, Option.bind_some]
      rw [ih hl]
      cases l.mapM piece with
      | none => rfl
      | some bs =>
        simp only [Option.map_some, Option.bind_some, Option.pure_def, List.flatten_cons,
          List.length_append]
        rw [← storeBytes_append, Nat.add_assoc, Nat.add_assoc]

/-- The colors of the pixels are those of `color`. -/
def Shows (size : Size) (color : Nat → Nat → Option Int32)
    (pixel : Nat → Nat → Option (List UInt8)) : Prop :=
  ∀ x y, x < size.width → y < size.height → (color x y).map rgb = pixel x y

/-- The loops store the pixels. -/
lemma renderLoops_eq (h : Shows size color pixel) (m : Mem) :
    renderLoops size color m imageBuffer =
      (rows size pixel).map (storeBytes imageBuffer · m) := by
  have hpixel : ∀ x y, x < size.width → y < size.height → ∀ p m,
      renderPixel color imageBuffer y (p, m) x =
        (pixel x y).map fun b => (p + b.length, storeBytes (imageBuffer + p) b m) := by
    intro x y hx hy p m
    unfold renderPixel
    rw [← h x y hx hy, Option.map_map]
    congr 1
    funext color
    exact storePixel_eq color p m
  have hrow : ∀ y, y < size.height → ∀ p m, renderRow size color imageBuffer (p, m) y =
      (row size pixel y).map fun b => (p + b.length, storeBytes (imageBuffer + p) b m) :=
    fun y hy p m => storeLoop (fun x hx => hpixel x y (List.mem_range.mp hx) hy) p m
  have hloop := storeLoop (f := renderRow size color imageBuffer)
    (fun y hy => hrow y (List.mem_range.mp hy)) 0 m
  unfold renderLoops rows
  rw [hloop]
  cases (List.range size.height).mapM (row size pixel) with
  | none => rfl
  | some bs => rfl

/-- Pieces of one length. -/
lemma flatten_length {piece : Nat → Option (List UInt8)} {k : Nat}
    (hk : ∀ i b, piece i = some b → b.length = k) {l : List Nat} {b : List UInt8}
    (h : (l.mapM piece).map List.flatten = some b) : b.length = l.length * k := by
  induction l generalizing b with
  | nil =>
    obtain rfl := Option.some.inj h
    simp
  | cons i l ih =>
    rw [List.mapM_cons] at h
    cases hi : piece i with
    | none =>
      rw [hi] at h
      cases h
    | some c =>
      rw [hi] at h
      cases hl : l.mapM piece with
      | none =>
        rw [hl] at h
        cases h
      | some bs =>
        rw [hl] at h ih
        obtain rfl := Option.some.inj h
        rw [List.flatten_cons, List.length_append, hk i c hi, ih rfl, List.length_cons,
          Nat.succ_mul, Nat.add_comm]

lemma row_length (h3 : ∀ x y b, pixel x y = some b → b.length = 3) {y : Nat} {b : List UInt8}
    (h : row size pixel y = some b) : b.length = size.width * 3 := by
  have hlen := flatten_length (fun x => h3 x y) h
  rwa [List.length_range] at hlen

lemma rows_length (h3 : ∀ x y b, pixel x y = some b → b.length = 3) {image : List UInt8}
    (h : rows size pixel = some image) : image.length = size.height * (size.width * 3) := by
  have hlen := flatten_length (fun _ _ => row_length h3) h
  rwa [List.length_range] at hlen

lemma mapM_none {piece : Nat → Option (List UInt8)} {l : List Nat} :
    l.mapM piece = none ↔ ∃ i ∈ l, piece i = none := by
  induction l with
  | nil => simp
  | cons i l ih =>
    rw [List.mapM_cons, List.exists_mem_cons_iff, ← ih]
    cases piece i with
    | none => simp
    | some c => cases l.mapM piece <;> simp

lemma mapM_congr {piece piece' : Nat → Option (List UInt8)} {l : List Nat}
    (h : ∀ i ∈ l, piece i = piece' i) : l.mapM piece = l.mapM piece' := by
  induction l with
  | nil => rfl
  | cons i l ih =>
    obtain ⟨hi, hl⟩ := List.forall_mem_cons.mp h
    rw [List.mapM_cons, List.mapM_cons, hi, ih hl]

/-- Pixels outside of the picture do not matter. -/
lemma rows_congr {pixel' : Nat → Nat → Option (List UInt8)}
    (h : ∀ x y, x < size.width → y < size.height → pixel x y = pixel' x y) :
    rows size pixel = rows size pixel' := by
  have hrow : ∀ y ∈ List.range size.height, row size pixel y = row size pixel' y := by
    intro y hy
    unfold row
    rw [mapM_congr fun x hx => h x y (List.mem_range.mp hx) (List.mem_range.mp hy)]
  unfold rows
  rw [mapM_congr hrow]

/-- The pieces stand one behind the other. -/
lemma piece_eq {piece : Nat → Option (List UInt8)} {k : Nat}
    (hk : ∀ i b, piece i = some b → b.length = k) {l : List Nat} {b : List UInt8}
    (h : (l.mapM piece).map List.flatten = some b) {j : Nat} (hj : j < l.length) :
    piece l[j] = some ((b.drop (j * k)).take k) := by
  induction l generalizing b j with
  | nil => cases hj
  | cons i l ih =>
    rw [List.mapM_cons] at h
    cases hi : piece i with
    | none =>
      rw [hi] at h
      cases h
    | some c =>
      rw [hi] at h
      have hc := hk i c hi
      cases hl : l.mapM piece with
      | none =>
        rw [hl] at h
        cases h
      | some bs =>
        rw [hl] at h ih
        obtain rfl := Option.some.inj h
        rw [List.flatten_cons]
        cases j with
        | zero => rw [Nat.zero_mul, List.drop_zero, List.take_left' hc, List.getElem_cons_zero, hi]
        | succ j =>
          rw [List.getElem_cons_succ, ih rfl (Nat.lt_of_succ_lt_succ hj), Nat.succ_mul,
            Nat.add_comm (j * k), ← List.drop_drop, List.drop_left' hc]

/-- The bytes of a pixel among all. -/
lemma pixel_eq (h3 : ∀ x y b, pixel x y = some b → b.length = 3) {image : List UInt8}
    (h : rows size pixel = some image) {x y : Nat} (hx : x < size.width) (hy : y < size.height) :
    pixel x y = some ((image.drop ((y * size.width + x) * 3)).take 3) := by
  have hrow := piece_eq (fun _ _ => row_length h3) h (j := y) (by rwa [List.length_range])
  rw [List.getElem_range] at hrow
  have hpixel := piece_eq (fun x => h3 x y) hrow (j := x) (by rwa [List.length_range])
  rw [List.getElem_range] at hpixel
  have hplace : y * (size.width * 3) + x * 3 = (y * size.width + x) * 3 := by ring
  rw [hpixel, List.drop_take, List.take_take, List.drop_drop, Nat.min_eq_left (by omega), hplace]

/-- The pixels in a memory into which they have been stored. -/
lemma pixel_stored (h3 : ∀ x y b, pixel x y = some b → b.length = 3) {image : List UInt8}
    (h : rows size pixel = some image) (m : Mem) {x y : Nat} (hx : x < size.width)
    (hy : y < size.height) : pixel x y = some (bytes (shift (storeBytes imageBuffer image m)
      (imageBuffer + (y * size.width + x) * 3)) 3) := by
  have hin : (y * size.width + x) * 3 + 3 ≤ image.length := by
    have hrows : (y + 1) * size.width ≤ size.height * size.width := Nat.mul_le_mul_right _ hy
    rw [rows_length h3 h, ← Nat.mul_assoc]
    nlinarith
  rw [pixel_eq h3 h hx hy]
  congr 1
  refine List.ext_getElem (by simp; omega) fun i hi hi' => ?_
  rw [length_bytes] at hi'
  rw [List.getElem_take, List.getElem_drop, bytes_getElem, shift, storeBytes, if_pos (by omega),
    Nat.add_assoc, Nat.add_sub_cancel_left, List.getD_eq_getElem]

lemma rows_none : rows size pixel = none ↔
    ∃ x y, x < size.width ∧ y < size.height ∧ pixel x y = none := by
  unfold rows row
  simp only [Option.map_eq_none_iff, mapM_none, List.mem_range]
  constructor
  · rintro ⟨y, hy, x, hx, hnone⟩
    exact ⟨x, y, hx, hy, hnone⟩
  · rintro ⟨x, y, hx, hy, hnone⟩
    exact ⟨y, hy, x, hx, hnone⟩

end Loops

/-! ## The picture of a scene -/

section Scene

variable {size : Size} {spheres : List Sphere}

lemma pixel_length (x y : Nat) (l : List UInt8) (h : pixel size spheres x y = some l) :
    l.length = 3 := by
  unfold pixel at h
  obtain ⟨ray, _, h⟩ := Option.bind_eq_some_iff.mp h
  obtain ⟨hit, _, h⟩ := Option.bind_eq_some_iff.mp h
  split at h
  · obtain rfl := Option.some.inj h
    rfl
  · obtain rfl := Option.some.inj h
    rfl

lemma picture_length {image : List UInt8} (h : picture size spheres = some image) :
    image.length = size.height * (size.width * 3) := rows_length pixel_length h

/-- Rendering stores the picture. -/
lemma render_eq (size : Size) (spheres : List Sphere) (m : Mem) (imageBuffer : Nat) :
    render size spheres m imageBuffer =
      (picture size spheres).map (storeBytes imageBuffer · m) := by
  unfold render
  rw [lightDir_eq, Option.bind_eq_bind, Option.bind_some]
  exact renderLoops_eq (fun _ _ => pixelColor_eq size spheres) m

lemma picture_none : picture size spheres = none ↔
    ∃ x y, x < size.width ∧ y < size.height ∧ pixel size spheres x y = none := rows_none

end Scene

/-- Rendering stores three bytes for each pixel, row by row, and nothing else: the shade of the
nearest hit of the ray through the pixel, or the sky, as they are computed without any `float`. It
has no result exactly if one of the rays divides by zero. -/
theorem render_scene_image (size : Size) (spheres : List Sphere) (m : Mem) (imageBuffer : Nat) :
    (render size spheres m imageBuffer = none ↔
      ∃ x y, x < size.width ∧ y < size.height ∧ pixel size spheres x y = none) ∧
    ∀ m', render size spheres m imageBuffer = some m' →
      AgreeOff imageBuffer (imageBuffer + size.height * (size.width * 3)) m m' ∧
      ∀ x y, x < size.width → y < size.height → pixel size spheres x y =
        some (bytes (shift m' (imageBuffer + (y * size.width + x) * 3)) 3) := by
  rw [render_eq, Option.map_eq_none_iff]
  refine ⟨picture_none, fun m' h => ?_⟩
  obtain ⟨image, himage, rfl⟩ := Option.map_eq_some_iff.mp h
  have hframe := storeBytes_frame imageBuffer image m
  rw [picture_length himage] at hframe
  exact ⟨hframe, fun x y => pixel_stored pixel_length himage m⟩

end Hydra.Raytracer
