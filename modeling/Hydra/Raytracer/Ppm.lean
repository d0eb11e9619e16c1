import Hydra.Apps.ImageSender
import Hydra.LibC.Atoi
import Hydra.LibC.Copy
import Hydra.Raytracer.Render

/-!
# Pictures as files

`convert_to_ppm` of `apps/raytracer/raytracer.c` puts a header in front of the bytes of a picture.
`readPpm` reads such files as the format wants it, and gets the picture back (`readPpm_header`). So
a rendered scene that has been converted reads as the picture of the scene (`ppm_round_trip`).
-/

namespace Hydra.Raytracer
open ByteMem Numeral Hydra.Kernel Hydra.LibC Hydra.Apps

/-! ## The code -/

/-- The format of the header. -/
def ppmFormat : List UInt8 := ascii "P6\n%d %d\n255\n"

/-- The arguments of the header. -/
def ppmArgs (width height : Nat) : VaList := fun i =>
  match i with
  | 0 => UInt64.ofNat width
  | _ => UInt64.ofNat height

/-- `convert_to_ppm` for a picture of this size: `*ppm_size` and the memory. The terminator that
`sprintf` writes behind the header is overwritten by the picture. -/
def writePpm (mem : Memory) (m : Mem) (size : Size) (imageBuffer ppmBuffer : Nat) : Int × Mem :=
  let (headerLen, header) := sprintf mem ppmFormat (ppmArgs size.width size.height)
  let m := storeBytes ppmBuffer (header ++ [0]) m
  let pixelDataSize := size.height * (size.width * 3)
  let m := memcpy m (ppmBuffer + headerLen) imageBuffer pixelDataSize
  (headerLen + pixelDataSize, m)

/-- C `convert_to_ppm`. -/
def convertToPpm (mem : Memory) (m : Mem) (imageBuffer ppmBuffer : Nat) : Int × Mem :=
  writePpm mem m imageSize imageBuffer ppmBuffer

/-! ## The format -/

/-- What a file of the format says. -/
structure Ppm where
  width : Nat
  height : Nat
  maxval : Nat
  raster : List UInt8
  deriving DecidableEq

/-- A decimal number, and what follows it. -/
def readNumber (file : List UInt8) : Option (Nat × List UInt8) :=
  if file.takeWhile isDigit = [] then none
  else some (decimal 0 (file.takeWhile isDigit), file.dropWhile isDigit)

/-- White space, and a number behind it. -/
def readField (file : List UInt8) : Option (Nat × List UInt8) :=
  if file.takeWhile isSpace = [] then none else readNumber (file.dropWhile isSpace)

/-- A file of the format: the magic number, three numbers, a single white space, and three bytes for
each pixel. -/
def readPpm (file : List UInt8) : Option Ppm := do
  if file.take 2 ≠ ascii "P6" then none
  else
    let (width, file) ← readField (file.drop 2)
    let (height, file) ← readField file
    let (maxval, file) ← readField file
    if (file.head?.map isSpace).getD false ∧ file.tail.length = height * (width * 3) then
      some ⟨width, height, maxval, file.tail⟩
    else none

/-! ## The header -/

/-- The header of a picture. -/
def ppmHeader (width height : Nat) : List UInt8 :=
  ascii "P6\n" ++ (numeral 10 width ++ (ascii " " ++ (numeral 10 height ++ ascii "\n255\n")))

/-- The pieces of the format. -/
def ppmPieces : List Piece :=
  plain (ascii "P6\n") (by decide +kernel) ++ .d :: (plain (ascii " ") (by decide +kernel) ++
    .d :: (plain (ascii "\n255\n") (by decide +kernel) ++ []))

lemma formatOf_ppmPieces : formatOf ppmPieces = ppmFormat := by
  decide +kernel

lemma intArg_small {n : Nat} (hn : n < 2 ^ 31) : intArg (UInt64.ofNat n) = n := by
  unfold intArg toInt32
  rw [UInt64.toNat_ofNat', Nat.mod_mod_of_dvd _ (by decide), Nat.mod_eq_of_lt (by omega),
    if_pos (by omega)]

lemma signed_natCast (n : Nat) : signed 10 (n : Int) = numeral 10 n := by
  unfold signed
  rw [if_neg (by omega), Int.natAbs_natCast]

/-- The header that `sprintf` writes. -/
lemma sprintf_ppm (mem : Memory) {width height : Nat} (hw : width < 2 ^ 31) (hh : height < 2 ^ 31) :
    sprintf mem ppmFormat (ppmArgs width height) =
      ((ppmHeader width height).length, ppmHeader width height) := by
  have hargw : intArg (ppmArgs width height 0) = width := intArg_small hw
  have hargh : intArg ((ppmArgs width height).rest 0) = height := intArg_small hh
  have htext : formatted mem ppmPieces (ppmArgs width height) = ppmHeader width height := by
    unfold ppmPieces ppmHeader
    simp only [formatted_plain, formatted, Piece.text, Piece.next, hargw, hargh, signed_natCast]
    rw [List.append_nil]
  have hnul : 0 ∉ ppmHeader width height := by
    have hnumeral : ∀ n, 0 ∉ numeral 10 n :=
      not_mem_numeral (by decide) (by decide) (by decide)
    unfold ppmHeader
    simp only [List.mem_append, not_or]
    exact ⟨by decide +kernel, hnumeral _, by decide +kernel, hnumeral _, by decide +kernel⟩
  rw [← formatOf_ppmPieces, ← htext]
  apply sprintf_formats
  · unfold ppmPieces
    simp only [allWritable_plain, AllWritable, Piece.Writable, Piece.next, hargw, hargh]
    exact ⟨by omega, by omega, trivial⟩
  · rw [htext]
    exact hnul

/-! ## Reading -/

section Reading

/-- The text in front of a character that does not satisfy the test. -/
lemma takeWhile_front {p : UInt8 → Bool} {l rest : List UInt8} (hl : ∀ c ∈ l, p c = true)
    (hrest : ∀ c ∈ rest.head?, p c = false) :
    (l ++ rest).takeWhile p = l ∧ (l ++ rest).dropWhile p = rest := by
  induction l with
  | nil =>
    cases rest with
    | nil => exact ⟨rfl, rfl⟩
    | cons c rest =>
      have hc := hrest c rfl
      simp [hc]
  | cons c l ih =>
    obtain ⟨hc, hl⟩ := List.forall_mem_cons.mp hl
    obtain ⟨htake, hdrop⟩ := ih hl
    simp [hc, htake, hdrop]

lemma readNumber_numeral (n : Nat) {rest : List UInt8}
    (hrest : ∀ c ∈ rest.head?, isDigit c = false) :
    readNumber (numeral 10 n ++ rest) = some (n, rest) := by
  obtain ⟨htake, hdrop⟩ := takeWhile_front (fun _ => isDigit_of_mem) hrest
  unfold readNumber
  rw [htake, hdrop, if_neg (numeral_ne_nil 10 n), decimal_numeral]

lemma readField_numeral {c : UInt8} (hc : isSpace c = true) (n : Nat) {rest : List UInt8}
    (hrest : ∀ c ∈ rest.head?, isDigit c = false) :
    readField (c :: (numeral 10 n ++ rest)) = some (n, rest) := by
  have hdigit : ∀ d < 10, isSpace (digitChar d) = false := by decide
  have hhead : ∀ d ∈ (numeral 10 n ++ rest).head?, isSpace d = false := by
    obtain ⟨d, hd, text, htext⟩ := numeral_head n
    rw [htext, List.cons_append, List.head?_cons]
    rintro _ ⟨⟩
    exact hdigit d hd
  obtain ⟨htake, hdrop⟩ := takeWhile_front (l := [c]) (by simpa using hc) hhead
  unfold readField
  rw [List.singleton_append] at htake hdrop
  rw [htake, hdrop, if_neg (List.cons_ne_nil _ _)]
  exact readNumber_numeral n hrest

/-- A header with the bytes of a picture behind it is read as this picture. -/
lemma readPpm_header (width height : Nat) {raster : List UInt8}
    (h : raster.length = height * (width * 3)) :
    readPpm (ppmHeader width height ++ raster) = some ⟨width, height, 255, raster⟩ := by
  have hlast : numeral 10 255 = ascii "255" := by decide +kernel
  have hfile : ppmHeader width height ++ raster = ascii "P6" ++ chr '\n' :: (numeral 10 width ++
      chr ' ' :: (numeral 10 height ++ chr '\n' :: (numeral 10 255 ++ chr '\n' :: raster))) := by
    have hmagic : ascii "P6\n" = ascii "P6" ++ [chr '\n'] := by decide +kernel
    have hblank : ascii " " = [chr ' '] := by decide +kernel
    have hmax : ascii "\n255\n" = chr '\n' :: (ascii "255" ++ [chr '\n']) := by decide +kernel
    unfold ppmHeader
    rw [hlast, hmagic, hblank, hmax]
    simp only [List.append_assoc, List.cons_append, List.nil_append]
  have hspace : ∀ c ∈ [chr ' ', chr '\n'], isSpace c = true ∧ isDigit c = false := by
    decide +kernel
  have htwo : (ascii "P6").length = 2 := by decide
  have hstop : ∀ {c : UInt8} {rest : List UInt8}, c ∈ [chr ' ', chr '\n'] →
      ∀ d ∈ (c :: rest).head?, isDigit d = false := by
    rintro c rest hc _ ⟨⟩
    exact (hspace c hc).2
  unfold readPpm
  rw [hfile, List.take_left' htwo, List.drop_left' htwo, if_neg (not_not_intro rfl),
    readField_numeral (by decide) width (hstop (by decide))]
  simp only [Option.bind_eq_bind, Option.bind_some]
  rw [readField_numeral (by decide) height (hstop (by decide))]
  simp only [Option.bind_some]
  rw [readField_numeral (by decide) 255 (hstop (by decide))]
  simp only [Option.bind_some, List.head?_cons, Option.map_some, Option.getD_some, List.tail_cons]
  exact if_pos ⟨by decide, h⟩

end Reading

/-! ## The file in memory -/

/-- The number of bytes of a picture. -/
def Size.bytes (size : Size) : Nat := size.height * (size.width * 3)

/-- The picture does not overlap the file. -/
def BuffersApart (size : Size) (imageBuffer ppmBuffer : Nat) : Prop :=
  imageBuffer + size.bytes ≤ ppmBuffer ∨
    ppmBuffer + (ppmHeader size.width size.height).length + size.bytes ≤ imageBuffer

section File

variable {size : Size} {imageBuffer ppmBuffer : Nat}

lemma Size.bytes_pos (size : Size) : 0 < size.bytes := by
  have hw := size.width_ok.1
  have hh := size.height_ok.1
  exact Nat.mul_pos (by omega) (by omega)

lemma writePpm_eq (mem : Memory) (m : Mem) (size : Size) (imageBuffer ppmBuffer : Nat) :
    writePpm mem m size imageBuffer ppmBuffer =
      ((((ppmHeader size.width size.height).length + size.bytes : Nat) : Int),
        memcpy (storeBytes ppmBuffer (ppmHeader size.width size.height ++ [0]) m)
          (ppmBuffer + (ppmHeader size.width size.height).length) imageBuffer size.bytes) := by
  have hw := size.width_ok.2
  have hh := size.height_ok.2
  unfold writePpm
  rw [sprintf_ppm mem (by omega) (by omega)]
  rfl

/-- The header, and behind it the bytes of the picture. -/
lemma bytes_writePpm (mem : Memory) (m : Mem) (h : BuffersApart size imageBuffer ppmBuffer) :
    bytes (shift (writePpm mem m size imageBuffer ppmBuffer).2 ppmBuffer)
        (writePpm mem m size imageBuffer ppmBuffer).1.toNat =
      ppmHeader size.width size.height ++ bytes (shift m imageBuffer) size.bytes := by
  rw [writePpm_eq]
  unfold BuffersApart at h
  have hpos := size.bytes_pos
  generalize ppmHeader size.width size.height = header at *
  generalize size.bytes = n at *
  have hframe := storeBytes_frame ppmBuffer (header ++ [0]) m
  rw [List.length_append, List.length_singleton] at hframe
  simp only [Int.toNat_natCast]
  refine List.ext_getElem (by simp) fun i hi _ => ?_
  rw [length_bytes] at hi
  rw [bytes_getElem, shift, memcpy, move_apply, List.getElem_append]
  by_cases hlt : i < header.length
  · rw [if_neg (by omega), dif_pos hlt, storeBytes, if_pos (by omega), Nat.add_sub_cancel_left,
      List.getD_append _ _ _ _ hlt, List.getD_eq_getElem _ _ hlt]
  · rw [if_pos (by omega), dif_neg hlt, bytes_getElem, shift, origin_of_apart (by omega),
      hframe _ (by omega)]
    congr 1
    omega

lemma writePpm_frame (mem : Memory) (m : Mem) (size : Size) (imageBuffer ppmBuffer : Nat) :
    AgreeOff ppmBuffer (ppmBuffer + (writePpm mem m size imageBuffer ppmBuffer).1.toNat) m
      (writePpm mem m size imageBuffer ppmBuffer).2 := by
  rw [writePpm_eq]
  have hpos := size.bytes_pos
  have hheader := storeBytes_frame ppmBuffer (ppmHeader size.width size.height ++ [0]) m
  have hcopy := move_frame imageBuffer (ppmBuffer + (ppmHeader size.width size.height).length)
    size.bytes (storeBytes ppmBuffer (ppmHeader size.width size.height ++ [0]) m)
  rw [List.length_append, List.length_singleton] at hheader
  rw [Int.toNat_natCast]
  exact (hheader.mono le_rfl (by omega)).trans (hcopy.mono (by omega) (by omega))

end File

/-- The file that `convert_to_ppm` makes of a picture is read as this picture, with its size, and
nothing else is written. If a scene has been rendered into the buffer, it is read as the picture of
the scene. -/
theorem ppm_round_trip (mem : Memory) (m : Mem) (size : Size) {imageBuffer ppmBuffer : Nat}
    (h : BuffersApart size imageBuffer ppmBuffer) :
    readPpm (bytes (shift (writePpm mem m size imageBuffer ppmBuffer).2 ppmBuffer)
        (writePpm mem m size imageBuffer ppmBuffer).1.toNat) =
      some ⟨size.width, size.height, 255, bytes (shift m imageBuffer) size.bytes⟩ ∧
    AgreeOff ppmBuffer (ppmBuffer + (writePpm mem m size imageBuffer ppmBuffer).1.toNat) m
      (writePpm mem m size imageBuffer ppmBuffer).2 ∧
    ∀ spheres m₀, render size spheres m₀ imageBuffer = some m →
      picture size spheres = some (bytes (shift m imageBuffer) size.bytes) := by
  refine ⟨?_, writePpm_frame mem m size imageBuffer ppmBuffer, fun spheres m₀ hrender => ?_⟩
  · rw [bytes_writePpm mem m h]
    exact readPpm_header _ _ (length_bytes _ _)
  · rw [render_eq] at hrender
    obtain ⟨image, himage, rfl⟩ := Option.map_eq_some_iff.mp hrender
    have hlen : image.length = size.bytes := picture_length himage
    rw [himage, ← hlen, bytes_storeBytes]

/-- A picture of 8 by 6 pixels at the address 0, and its file at the address 200. -/
theorem ppm_round_trip_small :
    readPpm (bytes (shift (writePpm ⟨fun _ => [], fun _ => 0⟩ UInt8.ofNat
        ⟨8, 6, by decide, by decide⟩ 0 200).2 200)
        (writePpm ⟨fun _ => [], fun _ => 0⟩ UInt8.ofNat
          ⟨8, 6, by decide, by decide⟩ 0 200).1.toNat) =
      some ⟨8, 6, 255, (List.range 144).map UInt8.ofNat⟩ := by
  have hpicture : bytes (shift UInt8.ofNat 0) 144 = (List.range 144).map UInt8.ofNat := by
    decide +kernel
  rw [← hpicture]
  exact (ppm_round_trip ⟨fun _ => [], fun _ => 0⟩ UInt8.ofNat ⟨8, 6, by decide, by decide⟩
    (.inl (by decide))).1

end Hydra.Raytracer
