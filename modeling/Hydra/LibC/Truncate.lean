import Hydra.LibC.Stdio

/-!
# The end of the buffer

`printf` and `sprintf` are two copies of one loop. Both make a format into segments, one for each
round, and `sprintf` writes one behind the other; `printf` cuts them off at 1023 bytes. A conversion
that it does not know is copied as it is, `%` and the specifier, but by `printf` only if there is
room for both. When only one byte is left, this conversion is left out, and what comes after it
takes its place (`printf_truncates`).
-/

namespace Hydra.LibC
open Numeral Hydra.Kernel

/-- What one round of the loop makes of the format: a text, or a conversion that is copied. -/
inductive Segment where
  | known (text : List UInt8)
  | unknown (specifier : UInt8)

/-- The text of a segment. -/
def Segment.text : Segment → List UInt8
  | known text => text
  | unknown specifier => [chr '%', specifier]

/-- The segments of a format. -/
def segments (mem : Memory) : List UInt8 → VaList → List Segment
  | [], _ => []
  | [c], _ => [.known [c]]
  | c :: f :: fmt, args =>
    if c = chr '%' then
      if f = chr 'd' then
        .known ((itoa mem (intArg (args 0)) 10).takeWhile (· ≠ 0)) :: segments mem fmt args.rest
      else if f = chr 'x' then
        .known ((itoa mem (intArg (args 0)) 16).takeWhile (· ≠ 0)) :: segments mem fmt args.rest
      else if f = chr 's' then
        .known (if args 0 = 0 then [] else (mem.string (args 0)).takeWhile (· ≠ 0)) ::
          segments mem fmt args.rest
      else if f = chr 'c' then
        .known [UInt8.ofNat (args 0).toNat] :: segments mem fmt args.rest
      else if f = chr '%' then .known [chr '%'] :: segments mem fmt args
      else .unknown f :: segments mem fmt args
    else .known [c] :: segments mem (f :: fmt) args

/-- The text of segments, one behind the other. -/
def textOf (segs : List Segment) : List UInt8 := segs.flatMap Segment.text

lemma sprintfLoop_segments (mem : Memory) (fmt : List UInt8) (args : VaList) :
    sprintfLoop mem fmt args = textOf (segments mem fmt args) := by
  unfold textOf
  fun_induction segments mem fmt args with
  | case1 | case2 => rfl
  | case3 | case4 | case5 | case6 | case7 | case8 | case9 => simp [sprintfLoop, Segment.text, *]

/-- The buffer of `printf` after a segment: of a known one as much as there is room for, an unknown
one whole or not at all. -/
def putSegment (buf : List UInt8) : Segment → List UInt8
  | .known text => buf ++ text.take (sizeofBuffer - 1 - buf.length)
  | .unknown specifier =>
    if buf.length < sizeofBuffer - 2 then buf ++ [chr '%', specifier] else buf

lemma put_eq (buf : List UInt8) (c : UInt8) :
    put buf c = buf ++ [c].take (sizeofBuffer - 1 - buf.length) := by
  unfold put
  split
  · next hroom =>
    rw [List.take_of_length_le]
    rw [List.length_singleton]
    omega
  · next hfull =>
    have hnone : sizeofBuffer - 1 - buf.length = 0 := by omega
    rw [hnone, List.take_zero, List.append_nil]

lemma putString_eq (str buf : List UInt8) : putString str buf =
    buf ++ (str.takeWhile (· ≠ 0)).take (sizeofBuffer - 1 - buf.length) := by
  induction str generalizing buf with
  | nil => simp [putString]
  | cons c str ih =>
    unfold putString
    split
    · next hput =>
      have hroom : sizeofBuffer - 1 - buf.length = sizeofBuffer - 1 - (buf ++ [c]).length + 1 := by
        rw [List.length_append, List.length_singleton]
        omega
      rw [ih, List.takeWhile_cons_of_pos (by simpa using hput.1), hroom, List.take_succ_cons,
        List.append_assoc, List.singleton_append]
    · next hstop =>
      by_cases hc : c = 0
      · rw [List.takeWhile_cons_of_neg (by simpa using hc), List.take_nil, List.append_nil]
      · have hnone : sizeofBuffer - 1 - buf.length = 0 := by
          by_contra hroom
          exact hstop ⟨hc, by omega⟩
        rw [hnone, List.take_zero, List.append_nil]

lemma printfLoop_segments (mem : Memory) (fmt : List UInt8) (args : VaList) (buf : List UInt8) :
    printfLoop mem fmt args buf = (segments mem fmt args).foldl putSegment buf := by
  fun_induction segments mem fmt args generalizing buf with
  | case1 => rfl
  | case2 => exact put_eq buf _
  | case5 fmt args _ _ _ =>
    -- a null pointer has no text
    by_cases hnull : args 0 = 0
    · simp [printfLoop, putSegment, *]
    · simp [printfLoop, putSegment, putString_eq, *]
  | case3 | case4 | case6 | case7 | case8 | case9 =>
    simp [printfLoop, putSegment, put_eq, putString_eq, *]

/-! ## Cutting off -/

@[simp]
lemma textOf_cons (seg : Segment) (segs : List Segment) :
    textOf (seg :: segs) = seg.text ++ textOf segs := rfl

@[simp]
lemma textOf_append (segs segs' : List Segment) :
    textOf (segs ++ segs') = textOf segs ++ textOf segs' :=
  List.flatMap_append

/-- The text without the unknown conversions. -/
def knownText (segs : List Segment) : List UInt8 :=
  segs.flatMap fun seg =>
    match seg with
    | .known text => text
    | .unknown _ => []

/-- A segment is cut off where the buffer ends, unless it is an unknown conversion that comes when
one byte is left. -/
lemma putSegment_take {seg : Segment} {buf : List UInt8} (h : buf.length ≤ 1023)
    (hone : ∀ f, seg = .unknown f → buf.length ≠ 1022) :
    putSegment buf seg = (buf ++ seg.text).take 1023 := by
  rw [List.take_append, List.take_of_length_le h]
  cases seg with
  | known text => rfl
  | unknown f =>
    have hlen := hone f rfl
    by_cases hroom : buf.length < 1022
    · have htake : ([chr '%', f] : List UInt8).take (1023 - buf.length) = [chr '%', f] :=
        List.take_of_length_le (show 2 ≤ 1023 - buf.length by omega)
      exact (if_pos hroom).trans (congrArg (buf ++ ·) htake.symm)
    · have hnone : 1023 - buf.length = 0 := by omega
      rw [hnone, List.take_zero, List.append_nil]
      exact if_neg hroom

/-- While there is room, all text goes into the buffer. -/
lemma foldl_room {segs : List Segment} {buf : List UInt8}
    (h : buf.length + (textOf segs).length ≤ 1023) :
    segs.foldl putSegment buf = buf ++ textOf segs := by
  induction segs generalizing buf with
  | nil => exact (List.append_nil buf).symm
  | cons seg segs ih =>
    rw [textOf_cons, List.length_append] at h
    have hone : ∀ f, seg = .unknown f → buf.length ≠ 1022 := by
      rintro f rfl
      have hlen : buf.length + (2 + (textOf segs).length) ≤ 1023 := h
      omega
    have hput := putSegment_take (by omega) hone
    rw [List.take_of_length_le (by rw [List.length_append]; omega)] at hput
    rw [List.foldl_cons, hput, ih, textOf_cons, List.append_assoc]
    rw [List.length_append]
    omega

/-- Into a full buffer nothing goes. -/
lemma foldl_full (segs : List Segment) {buf : List UInt8} (h : buf.length = 1023) :
    segs.foldl putSegment buf = buf := by
  induction segs with
  | nil => rfl
  | cons seg segs ih =>
    have hone : ∀ f, seg = .unknown f → buf.length ≠ 1022 := fun _ _ => by omega
    rw [List.foldl_cons, putSegment_take h.le hone, List.take_append_of_le_length h.ge,
      List.take_of_length_le h.le, ih]

/-- The last byte of the buffer is for the first one that comes and is not of an unknown
conversion. -/
lemma foldl_last (segs : List Segment) {buf : List UInt8} (h : buf.length = 1022) :
    segs.foldl putSegment buf = buf ++ (knownText segs).take 1 := by
  induction segs with
  | nil => exact (List.append_nil buf).symm
  | cons seg segs ih =>
    rw [List.foldl_cons]
    cases seg with
    | unknown specifier =>
      have hput : putSegment buf (.unknown specifier) = buf :=
        if_neg (show ¬buf.length < 1022 by omega)
      rw [hput, ih]
      rfl
    | known text =>
      have hput : putSegment buf (.known text) = buf ++ text.take 1 := by
        unfold putSegment sizeofBuffer
        simp [h]
      rw [hput]
      cases text with
      | nil =>
        rw [List.take_nil, List.append_nil, ih]
        rfl
      | cons c text =>
        have hfull : (buf ++ [c]).length = 1023 := by
          rw [List.length_append, List.length_singleton, h]
        exact foldl_full segs hfull

/-- Nothing is lost between the segments: the buffer is cut off where it is full, unless an unknown
conversion comes when one byte is left. -/
lemma foldl_take {segs : List Segment} {buf : List UInt8} (h : buf.length ≤ 1023)
    (hno : ∀ pre f post, segs = pre ++ .unknown f :: post →
      buf.length + (textOf pre).length ≠ 1022) :
    segs.foldl putSegment buf = (buf ++ textOf segs).take 1023 := by
  induction segs generalizing buf with
  | nil => simp [textOf, List.take_of_length_le h]
  | cons seg segs ih =>
    have hno' : ∀ pre f post, segs = pre ++ .unknown f :: post →
        (buf ++ seg.text).length + (textOf pre).length ≠ 1022 := by
      intro pre f post e
      have hlen := hno (seg :: pre) f post (by rw [e]; rfl)
      rwa [textOf_cons, List.length_append, ← Nat.add_assoc, ← List.length_append] at hlen
    have hone : ∀ f, seg = .unknown f → buf.length ≠ 1022 := by
      rintro f rfl
      exact hno [] f segs rfl
    rw [List.foldl_cons, putSegment_take h hone, textOf_cons, ← List.append_assoc]
    by_cases hfits : (buf ++ seg.text).length ≤ 1023
    · rw [List.take_of_length_le hfits, ih hfits hno']
    · have hover := (not_le.mp hfits).le
      rw [foldl_full segs (List.length_take_of_le hover), List.take_append_of_le_length hover]

/-- No unknown conversion comes when one byte is left, or what comes behind it begins with `%` as it
does. -/
def TruncatesEvenly (segs : List Segment) : Prop :=
  ∀ pre f post, segs = pre ++ .unknown f :: post → (textOf pre).length = 1022 →
    (knownText post).take 1 = [chr '%']

lemma truncatesEvenly_iff (segs : List Segment) :
    segs.foldl putSegment [] = (textOf segs).take 1023 ↔ TruncatesEvenly segs := by
  -- what becomes of an unknown conversion with one byte left
  have hsplit : ∀ pre f post, segs = pre ++ .unknown f :: post → (textOf pre).length = 1022 →
      segs.foldl putSegment [] = textOf pre ++ (knownText post).take 1 ∧
        (textOf segs).take 1023 = textOf pre ++ [chr '%'] := by
    rintro pre f post rfl hlen
    have hpre : pre.foldl putSegment [] = textOf pre := foldl_room (by simp [hlen])
    refine ⟨?_, ?_⟩
    · rw [List.foldl_append, hpre, foldl_last _ hlen]
      rfl
    · rw [textOf_append, List.take_append, List.take_of_length_le (by omega), hlen]
      rfl
  constructor
  · intro heq pre f post e hlen
    obtain ⟨hprintf, hsprintf⟩ := hsplit pre f post e hlen
    rw [hprintf, hsprintf] at heq
    exact List.append_cancel_left heq
  · intro heven
    by_cases hno : ∀ pre f post, segs = pre ++ .unknown f :: post → (textOf pre).length ≠ 1022
    · exact foldl_take (Nat.zero_le _) fun pre f post e => by simpa using hno pre f post e
    · push Not at hno
      obtain ⟨pre, f, post, e, hlen⟩ := hno
      obtain ⟨hprintf, hsprintf⟩ := hsplit pre f post e hlen
      rw [hprintf, hsprintf, heven pre f post e hlen]

/-- `printf` has in its buffer the first 1023 bytes of what `sprintf` writes, and returns their
number. -/
structure AgreesWithSprintf (mem : Memory) (buffer : UInt64) (format : List UInt8) (args : VaList) :
    Prop where
  text : printfBuffer mem format args = (sprintf mem format args).2.take 1023
  count : (printf mem buffer format args).1 = min (sprintf mem format args).1 1023

/-- For every format and arguments `printf` agrees with `sprintf` up to the end of its buffer
exactly if no unknown conversion comes when one byte of the buffer is left, or what comes behind it
begins with `%`. -/
theorem printf_truncates (mem : Memory) (buffer : UInt64) (format : List UInt8) (args : VaList) :
    AgreesWithSprintf mem buffer format args ↔ TruncatesEvenly (segments mem format args) := by
  have hprintf : printfBuffer mem format args = (segments mem format args).foldl putSegment [] :=
    printfLoop_segments mem format args []
  have hsprintf : (sprintf mem format args).2 = textOf (segments mem format args) :=
    sprintfLoop_segments mem format args
  rw [← truncatesEvenly_iff, ← hprintf, ← hsprintf]
  constructor
  · exact fun h => h.text
  · intro htext
    refine ⟨htext, ?_⟩
    show (printfBuffer mem format args).length = min (sprintf mem format args).2.length 1023
    rw [htext, List.length_take, min_comm]

/-- A string of 1022 characters and an unknown conversion: `printf` leaves the conversion out, and
its last byte empty. -/
theorem printf_truncates_fails :
    (sprintf ⟨fun _ => List.replicate 1022 (chr 'a'), fun _ => 0⟩
        [chr '%', chr 's', chr '%', chr 'q'] fun _ => 1).1 = 1024 ∧
      (printf ⟨fun _ => List.replicate 1022 (chr 'a'), fun _ => 0⟩ 0
        [chr '%', chr 's', chr '%', chr 'q'] fun _ => 1).1 = 1022 ∧
      ¬AgreesWithSprintf ⟨fun _ => List.replicate 1022 (chr 'a'), fun _ => 0⟩ 0
        [chr '%', chr 's', chr '%', chr 'q'] fun _ => 1 := by
  refine ⟨by decide +kernel, by decide +kernel, fun h => ?_⟩
  exact absurd h.count (by decide +kernel)

end Hydra.LibC
