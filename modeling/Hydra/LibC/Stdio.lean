import Hydra.Kernel.Printk

/-!
# printf

`printf` of `lib/libc/stdio.c` formats into a buffer of 1024 bytes, and hands it to the console
through `syscall_write` and `printk`.

What `printf` puts into its buffer is the formatted text, if no number is one that `itoa` cannot
write: it takes the argument of `%x` for signed, and negates the smallest `int` in vain
(`printf_formats`). But `syscall_write` asks `printk` for the conversion `%.*s`, which `printk` does
not know, so the console shows these four characters instead of the text (`console_output`).
`sprintf` writes its text into a buffer of the caller, whose size it does not know
(`sprintf_formats`).
-/

namespace Hydra.LibC
open ByteMem Numeral Hydra.Kernel

/-! ## The code -/

/-- `sizeof(buffer)` in `printf`. -/
def sizeofBuffer : Nat := 1024

/-- C `syscall_write`: the string is its address, and its length is converted to `int`. -/
def syscallWrite (mem : Memory) (str : UInt64) (len : Nat) : Option (List UInt8) :=
  printk mem [chr '%', chr '.', chr '*', chr 's'] fun i =>
    match i with
    | 0 => UInt64.ofNat len
    | _ => str

/-- `"0123456789abcdef"[i]`. -/
def digitAt (mem : Memory) (i : Int) : UInt8 :=
  if 0 ≤ i ∧ i < 16 then digitChar i.toNat else mem.rodata i

/-- The digit loop of `itoa`, for `n` rounds at most: the digits, least significant first. -/
def itoaDigits (mem : Memory) (base : Int) : Nat → Int → List UInt8
  | 0, _ => []
  | n + 1, value =>
    let tmpValue := value
    let value := value.tdiv base
    digitAt mem (tmpValue - value * base) :: if value = 0 then [] else itoaDigits mem base n value

/-- C `itoa`: the characters before the terminator that it writes. The minus sign stays in front
when the digits are reversed. -/
def itoa (mem : Memory) (value base : Int) : List UInt8 :=
  if value < 0 ∧ base = 10 then
    let value := toInt32 (ofInt32 (-value))
    chr '-' :: (itoaDigits mem base (value.natAbs + 1) value).reverse
  else (itoaDigits mem base (value.natAbs + 1) value).reverse

/-- Put one character into the buffer, if there is room. -/
def put (buf : List UInt8) (c : UInt8) : List UInt8 :=
  if buf.length < sizeofBuffer - 1 then buf ++ [c] else buf

/-- The copy loops of `%d`, `%x` and `%s`. -/
def putString : List UInt8 → List UInt8 → List UInt8
  | [], buf => buf
  | c :: str, buf =>
    if c ≠ 0 ∧ buf.length < sizeofBuffer - 1 then putString str (buf ++ [c]) else buf

/-- The loop of `printf`: the contents of the buffer, whose length is the count. -/
def printfLoop (mem : Memory) : List UInt8 → VaList → List UInt8 → List UInt8
  | [], _, buf => buf
  | [c], _, buf => put buf c
  | c :: f :: fmt, args, buf =>
    if c = chr '%' then
      if f = chr 'd' then
        printfLoop mem fmt args.rest (putString (itoa mem (intArg (args 0)) 10) buf)
      else if f = chr 'x' then
        printfLoop mem fmt args.rest (putString (itoa mem (intArg (args 0)) 16) buf)
      else if f = chr 's' then
        printfLoop mem fmt args.rest
          (if args 0 = 0 then buf else putString (mem.string (args 0)) buf)
      else if f = chr 'c' then
        printfLoop mem fmt args.rest (put buf (UInt8.ofNat (args 0).toNat))
      else if f = chr '%' then printfLoop mem fmt args (put buf (chr '%'))
      else
        -- unknown format specifier
        printfLoop mem fmt args
          (if buf.length < sizeofBuffer - 2 then buf ++ [chr '%', f] else buf)
    else printfLoop mem (f :: fmt) args (put buf c)

/-- What `printf` has put into its buffer when it calls `syscall_write`. -/
def printfBuffer (mem : Memory) (format : List UInt8) (args : VaList) : List UInt8 :=
  printfLoop mem format args []

/-- C `printf`, with its buffer at the address `buffer`: the return value and what is
transmitted. -/
def printf (mem : Memory) (buffer : UInt64) (format : List UInt8) (args : VaList) :
    Nat × Option (List UInt8) :=
  let buf := printfBuffer mem format args
  let mem := { mem with string := Function.update mem.string buffer (buf.takeWhile (· ≠ 0)) }
  (buf.length, syscallWrite mem buffer buf.length)

/-- The loop of `sprintf`: what it writes, whose length is the count. The buffer of the caller has
no limit that it knows of. -/
def sprintfLoop (mem : Memory) : List UInt8 → VaList → List UInt8
  | [], _ => []
  | [c], _ => [c]
  | c :: f :: fmt, args =>
    if c = chr '%' then
      if f = chr 'd' then
        (itoa mem (intArg (args 0)) 10).takeWhile (· ≠ 0) ++ sprintfLoop mem fmt args.rest
      else if f = chr 'x' then
        (itoa mem (intArg (args 0)) 16).takeWhile (· ≠ 0) ++ sprintfLoop mem fmt args.rest
      else if f = chr 's' then
        (if args 0 = 0 then [] else (mem.string (args 0)).takeWhile (· ≠ 0)) ++
          sprintfLoop mem fmt args.rest
      else if f = chr 'c' then UInt8.ofNat (args 0).toNat :: sprintfLoop mem fmt args.rest
      else if f = chr '%' then chr '%' :: sprintfLoop mem fmt args
      else chr '%' :: f :: sprintfLoop mem fmt args
    else c :: sprintfLoop mem (f :: fmt) args

/-- C `sprintf`: the return value and the bytes before the terminator that it writes. -/
def sprintf (mem : Memory) (format : List UInt8) (args : VaList) : Nat × List UInt8 :=
  let buf := sprintfLoop mem format args
  (buf.length, buf)

/-! ## Formatted text -/

/-- A piece of a format string: a character, or a conversion. -/
inductive Piece where
  | lit (ch : UInt8) (h : ch ≠ 0 ∧ ch ≠ chr '%')
  | d
  | x
  | s
  | c
  | percent

namespace Piece

/-- How the piece is written. -/
def spelling : Piece → List UInt8
  | lit ch _ => [ch]
  | d => [chr '%', chr 'd']
  | x => [chr '%', chr 'x']
  | s => [chr '%', chr 's']
  | c => [chr '%', chr 'c']
  | percent => [chr '%', chr '%']

/-- The text of the piece for the next argument; a null pointer has none. -/
def text (mem : Memory) (word : UInt64) : Piece → List UInt8
  | lit ch _ => [ch]
  | d => signed 10 (intArg word)
  | x => numeral 16 (word.toNat % 2 ^ 32)
  | s => if word = 0 then [] else mem.string word
  | c => [UInt8.ofNat word.toNat]
  | percent => [chr '%']

/-- The arguments behind those of the piece. -/
def next (args : VaList) : Piece → VaList
  | lit _ _ | percent => args
  | d | x | s | c => args.rest

/-- `itoa` writes the number: it is not the smallest `int`, and not negative in base 16. -/
def Writable (word : UInt64) : Piece → Prop
  | d => intArg word ≠ -2 ^ 31
  | x => 0 ≤ intArg word
  | _ => True

end Piece

/-- Characters without a special meaning. -/
def plain : (text : List UInt8) → (∀ c ∈ text, c ≠ 0 ∧ c ≠ chr '%') → List Piece
  | [], _ => []
  | c :: text, h =>
    .lit c (h c List.mem_cons_self) :: plain text fun x hx => h x (List.mem_cons_of_mem c hx)

/-- The format string of the pieces. -/
def formatOf (ps : List Piece) : List UInt8 := ps.flatMap Piece.spelling

/-- The formatted text. -/
def formatted (mem : Memory) : List Piece → VaList → List UInt8
  | [], _ => []
  | p :: ps, args => p.text mem (args 0) ++ formatted mem ps (p.next args)

/-- `itoa` writes all numbers. -/
def AllWritable : List Piece → VaList → Prop
  | [], _ => True
  | p :: ps, args => p.Writable (args 0) ∧ AllWritable ps (p.next args)

lemma formatted_plain (mem : Memory) {text : List UInt8} (h : ∀ c ∈ text, c ≠ 0 ∧ c ≠ chr '%')
    (ps : List Piece) (args : VaList) :
    formatted mem (plain text h ++ ps) args = text ++ formatted mem ps args := by
  induction text with
  | nil => rfl
  | cons c text ih => exact congrArg (c :: ·) (ih fun x hx => h x (List.mem_cons_of_mem c hx))

lemma allWritable_plain {text : List UInt8} (h : ∀ c ∈ text, c ≠ 0 ∧ c ≠ chr '%') (ps : List Piece)
    (args : VaList) : AllWritable (plain text h ++ ps) args ↔ AllWritable ps args := by
  induction text with
  | nil => exact Iff.rfl
  | cons c text ih =>
    exact (and_iff_right trivial).trans (ih fun x hx => h x (List.mem_cons_of_mem c hx))

/-- A carriage return after each newline. -/
def withCarriageReturns (text : List UInt8) : List UInt8 :=
  text.flatMap fun c => if c = chr '\n' then [chr '\n', chr '\r'] else [c]

/-! ## The buffer -/

lemma digitAt_of_lt (mem : Memory) {d : Nat} (h : d < 16) : digitAt mem d = digitChar d := by
  unfold digitAt
  rw [if_pos (by omega), Int.toNat_natCast]

section Digits

variable (mem : Memory) {base : Nat} (hlo : 2 ≤ base) (hhi : base ≤ 16)
include hlo hhi

/-- The digits of a number that is not negative. -/
lemma itoaDigits_eq {n value : Nat} (h : value < n) :
    (itoaDigits mem base n value).reverse = numeral base value := by
  induction n generalizing value with
  | zero => cases h
  | succ n ih =>
    have hmod : (value : Int) - (value / base : Nat) * base = (value % base : Nat) := by
      have hsum := Nat.div_add_mod value base
      rw [mul_comm] at hsum
      omega
    have hlt : value % base < base := Nat.mod_lt _ (by omega)
    have hdigit := digitAt_of_lt mem (hlt.trans_le hhi)
    unfold itoaDigits
    simp only [← Int.ofNat_tdiv, hmod, hdigit]
    rw [numeral_eq hlo, List.reverse_cons]
    by_cases hlast : value / base = 0
    · rw [if_pos hlast, if_pos (by exact_mod_cast hlast)]
      rfl
    · have hsmall : value / base < n := by
        have hpos : 0 < value := Nat.pos_of_ne_zero fun h0 => hlast (h0 ▸ Nat.zero_div base)
        have hdiv : value / base < value := Nat.div_lt_self hpos hlo
        omega
      rw [if_neg hlast, if_neg (by exact_mod_cast hlast), ih hsmall]

lemma itoa_nat (value : Nat) : itoa mem value base = numeral base value := by
  unfold itoa
  rw [if_neg fun h => absurd h.1 (by omega)]
  exact itoaDigits_eq mem hlo hhi (Nat.lt_succ_self _)

end Digits

lemma itoa_signed (mem : Memory) {value : Int} (hlo : -2 ^ 31 < value) (hhi : value < 2 ^ 31) :
    itoa mem value 10 = signed 10 value := by
  by_cases hneg : value < 0
  · have habs : toInt32 (ofInt32 (-value)) = value.natAbs := by
      rw [toInt32_ofInt32 (by omega) (by omega)]
      omega
    have hdigits := itoaDigits_eq mem (show 2 ≤ 10 by decide) (by decide)
      (Nat.lt_succ_self value.natAbs)
    unfold itoa signed
    rw [if_pos ⟨hneg, rfl⟩, if_pos hneg]
    simp only [habs, Int.natAbs_natCast]
    exact congrArg _ hdigits
  · obtain ⟨n, rfl⟩ := Int.eq_ofNat_of_zero_le (not_lt.mp hneg)
    have hnum := itoa_nat mem (show 2 ≤ 10 by decide) (by decide) n
    unfold signed
    rw [if_neg hneg]
    exact hnum

lemma intArg_range (word : UInt64) : -2 ^ 31 ≤ intArg word ∧ intArg word < 2 ^ 31 := by
  unfold intArg toInt32
  split <;> omega

/-- An argument that is not negative is the same number for `%x`. -/
lemma intArg_of_nonneg {word : UInt64} (h : 0 ≤ intArg word) :
    intArg word = (word.toNat % 2 ^ 32 : Nat) := by
  unfold intArg toInt32 at *
  split at h
  · next hlt => rw [if_pos hlt]
  · omega

/-- A character goes into the buffer while there is room. -/
lemma put_room {buf : List UInt8} (h : buf.length < 1023) (c : UInt8) : put buf c = buf ++ [c] :=
  if_pos h

/-- A string goes into the buffer if there is room for it. -/
lemma putString_room {str buf : List UInt8} (hnul : 0 ∉ str)
    (hroom : buf.length + str.length ≤ 1023) : putString str buf = buf ++ str := by
  induction str generalizing buf with
  | nil => rw [putString, List.append_nil]
  | cons c str ih =>
    rw [List.mem_cons, not_or] at hnul
    rw [List.length_cons] at hroom
    have hlt : buf.length < sizeofBuffer - 1 := show buf.length < 1023 by omega
    unfold putString
    rw [if_pos ⟨hnul.1 ∘ Eq.symm, hlt⟩, ih hnul.2, List.append_assoc, List.singleton_append]
    rw [List.length_append, List.length_singleton]
    omega

lemma printfLoop_lit (mem : Memory) {c : UInt8} (hc : c ≠ chr '%') (fmt : List UInt8)
    (args : VaList) (buf : List UInt8) :
    printfLoop mem (c :: fmt) args buf = printfLoop mem fmt args (put buf c) := by
  cases fmt with
  | nil => rfl
  | cons f fmt =>
    rw [printfLoop]
    exact if_neg hc

/-- One round of the loop appends the text of one piece. -/
lemma printfLoop_piece (mem : Memory) (p : Piece) (fmt : List UInt8) (args : VaList)
    (buf : List UInt8) (hw : p.Writable (args 0)) (hnul : 0 ∉ p.text mem (args 0))
    (hroom : buf.length + (p.text mem (args 0)).length ≤ 1023) :
    printfLoop mem (p.spelling ++ fmt) args buf =
      printfLoop mem fmt (p.next args) (buf ++ p.text mem (args 0)) := by
  cases p with
  | lit ch h =>
    have hlt : buf.length < 1023 := hroom
    rw [Piece.spelling, List.singleton_append, printfLoop_lit mem h.2, put_room hlt]
    rfl
  | d =>
    obtain ⟨hlo, hhi⟩ := intArg_range (args 0)
    have hitoa := itoa_signed mem (lt_of_le_of_ne hlo (Ne.symm hw)) hhi
    have hput := putString_room hnul hroom
    show printfLoop mem fmt args.rest (putString (itoa mem (intArg (args 0)) 10) buf) = _
    rw [hitoa]
    exact congrArg _ hput
  | x =>
    have hitoa := itoa_nat mem (show 2 ≤ 16 by decide) (by decide) ((args 0).toNat % 2 ^ 32)
    have hput := putString_room hnul hroom
    show printfLoop mem fmt args.rest (putString (itoa mem (intArg (args 0)) 16) buf) = _
    rw [intArg_of_nonneg hw]
    exact congrArg _ ((congrArg (putString · buf) hitoa).trans hput)
  | s =>
    show printfLoop mem fmt args.rest
      (if args 0 = 0 then buf else putString (mem.string (args 0)) buf) = _
    have htext : Piece.s.text mem (args 0) = if args 0 = 0 then [] else mem.string (args 0) := rfl
    rw [htext] at hnul hroom ⊢
    by_cases hnull : args 0 = 0
    · rw [if_pos hnull, if_pos hnull, List.append_nil]
      rfl
    · rw [if_neg hnull] at hnul hroom ⊢
      rw [if_neg hnull, putString_room hnul hroom]
      rfl
  | c =>
    have hlt : buf.length < 1023 := hroom
    show printfLoop mem fmt args.rest (put buf (UInt8.ofNat (args 0).toNat)) = _
    rw [put_room hlt]
    rfl
  | percent =>
    have hlt : buf.length < 1023 := hroom
    show printfLoop mem fmt args (put buf (chr '%')) = _
    rw [put_room hlt]
    rfl

lemma printfLoop_formatted (mem : Memory) {ps : List Piece} {args : VaList} {buf : List UInt8}
    (hw : AllWritable ps args) (hnul : 0 ∉ formatted mem ps args)
    (hroom : buf.length + (formatted mem ps args).length ≤ 1023) :
    printfLoop mem (formatOf ps) args buf = buf ++ formatted mem ps args := by
  induction ps generalizing args buf with
  | nil => exact (List.append_nil buf).symm
  | cons p ps ih =>
    rw [formatted, List.mem_append, not_or] at hnul
    rw [formatted, List.length_append] at hroom
    have hpiece := printfLoop_piece mem p (formatOf ps) args buf hw.1 hnul.1 (by omega)
    have hrest : buf.length + (p.text mem (args 0)).length +
        (formatted mem ps (p.next args)).length ≤ 1023 := by omega
    rw [← List.length_append] at hrest
    rw [formatted, ← List.append_assoc, ← ih hw.2 hnul.2 hrest]
    exact hpiece

/-- `printf` fills its buffer with the formatted text, if it fits, has no zero byte, and has no
number that `itoa` cannot write. -/
theorem printf_formats (mem : Memory) {ps : List Piece} {args : VaList} (hw : AllWritable ps args)
    (hlen : (formatted mem ps args).length ≤ 1023) (hnul : 0 ∉ formatted mem ps args) :
    printfBuffer mem (formatOf ps) args = formatted mem ps args :=
  printfLoop_formatted mem hw hnul (by simpa using hlen)

/-- A text without a zero byte is copied whole. -/
lemma takeWhile_text {text : List UInt8} (hnul : 0 ∉ text) : text.takeWhile (· ≠ 0) = text := by
  rw [List.takeWhile_eq_self_iff]
  intro c hc
  simp only [ne_eq, decide_eq_true_eq]
  rintro rfl
  exact hnul hc

/-- One round of the loop of `sprintf` writes the text of one piece, however long it is. -/
lemma sprintfLoop_piece (mem : Memory) (p : Piece) (fmt : List UInt8) (args : VaList)
    (hw : p.Writable (args 0)) (hnul : 0 ∉ p.text mem (args 0)) :
    sprintfLoop mem (p.spelling ++ fmt) args =
      p.text mem (args 0) ++ sprintfLoop mem fmt (p.next args) := by
  cases p with
  | lit ch h =>
    cases fmt with
    | nil => rfl
    | cons f fmt =>
      rw [Piece.spelling, List.singleton_append, sprintfLoop]
      exact if_neg h.2
  | d =>
    obtain ⟨hlo, hhi⟩ := intArg_range (args 0)
    show (itoa mem (intArg (args 0)) 10).takeWhile (· ≠ 0) ++ sprintfLoop mem fmt args.rest = _
    rw [itoa_signed mem (lt_of_le_of_ne hlo (Ne.symm hw)) hhi]
    exact congrArg (· ++ sprintfLoop mem fmt args.rest) (takeWhile_text hnul)
  | x =>
    have hitoa := itoa_nat mem (show 2 ≤ 16 by decide) (by decide) ((args 0).toNat % 2 ^ 32)
    show (itoa mem (intArg (args 0)) 16).takeWhile (· ≠ 0) ++ sprintfLoop mem fmt args.rest = _
    rw [intArg_of_nonneg hw]
    exact congrArg (· ++ sprintfLoop mem fmt args.rest)
      ((congrArg (List.takeWhile (· ≠ 0)) hitoa).trans (takeWhile_text hnul))
  | s =>
    show (if args 0 = 0 then [] else (mem.string (args 0)).takeWhile (· ≠ 0)) ++
      sprintfLoop mem fmt args.rest = _
    have htext : Piece.s.text mem (args 0) = if args 0 = 0 then [] else mem.string (args 0) := rfl
    rw [htext] at hnul ⊢
    by_cases hnull : args 0 = 0
    · rw [if_pos hnull, if_pos hnull]
      rfl
    · rw [if_neg hnull] at hnul ⊢
      rw [if_neg hnull, takeWhile_text hnul]
      rfl
  | c => rfl
  | percent => rfl

/-- `sprintf` writes the formatted text, if it has no zero byte, and no number that `itoa` cannot
write. -/
theorem sprintf_formats (mem : Memory) {ps : List Piece} {args : VaList} (hw : AllWritable ps args)
    (hnul : 0 ∉ formatted mem ps args) :
    sprintf mem (formatOf ps) args =
      ((formatted mem ps args).length, formatted mem ps args) := by
  have hloop : sprintfLoop mem (formatOf ps) args = formatted mem ps args := by
    induction ps generalizing args with
    | nil => rfl
    | cons p ps ih =>
      rw [formatted, List.mem_append, not_or] at hnul
      rw [formatted, ← ih hw.2 hnul.2]
      exact sprintfLoop_piece mem p (formatOf ps) args hw.1 hnul.1
  unfold sprintf
  rw [hloop]

/-! ## The console -/

/-- What `printk` makes of the format that it does not know. -/
def unknownFormat : List UInt8 := [chr '%', chr '.', chr '*', chr 's']

/-- The format goes to the console as it is, and neither the buffer nor its length is looked at. -/
lemma printf_shown (mem : Memory) (buffer : UInt64) (format : List UInt8) (args : VaList) :
    (printf mem buffer format args).2 = some unknownFormat := rfl

/-- A text that is shown without a carriage return is shown as it is. -/
lemma withCarriageReturns_eq {text : List UInt8} (h : chr '\r' ∉ withCarriageReturns text) :
    withCarriageReturns text = text := by
  induction text with
  | nil => rfl
  | cons c text ih =>
    unfold withCarriageReturns at h ih ⊢
    rw [List.flatMap_cons, List.mem_append, not_or] at h
    by_cases hc : c = chr '\n'
    · rw [if_pos hc] at h
      exact absurd (by simp) h.1
    · rw [List.flatMap_cons, if_neg hc, ih h.2]
      rfl

/-- The buffer of `printf` holds the formatted text, if no number is one that `itoa` cannot write;
but the console shows the text only if it is the one that is always shown. -/
theorem console_output (mem : Memory) (buffer : UInt64) (ps : List Piece) (args : VaList)
    (hlen : (formatted mem ps args).length ≤ 1023) (hnul : 0 ∉ formatted mem ps args) :
    (AllWritable ps args → printfBuffer mem (formatOf ps) args = formatted mem ps args) ∧
    ((printf mem buffer (formatOf ps) args).2 =
        some (withCarriageReturns (formatted mem ps args)) ↔
      formatted mem ps args = unknownFormat) := by
  refine ⟨fun hw => printf_formats mem hw hlen hnul, ?_⟩
  rw [printf_shown, Option.some.injEq]
  constructor
  · intro heq
    have hcr : chr '\r' ∉ withCarriageReturns (formatted mem ps args) := by
      rw [← heq]
      decide
    rw [withCarriageReturns_eq hcr] at heq
    exact heq.symm
  · intro htext
    rw [htext]
    rfl

/-- A memory without strings. -/
def emptyMemory : Memory := ⟨fun _ => [], fun _ => 0⟩

/-- The one text that is shown, from `printf("%%.*s")`. -/
theorem console_output_unknown :
    (printf emptyMemory 0 (formatOf
        [.percent, .lit (chr '.') (by decide), .lit (chr '*') (by decide), .lit (chr 's') (by decide)])
        fun _ => 0).2 = some unknownFormat :=
  (console_output emptyMemory 0 [.percent, .lit (chr '.') (by decide), .lit (chr '*') (by decide),
    .lit (chr 's') (by decide)] (fun _ => 0) (by decide) (by decide)).2.mpr rfl

/-- `printf("%d\n", 42)`. -/
theorem console_output_fails :
    formatted emptyMemory [.d, .lit (chr '\n') (by decide)] (fun _ => 42) =
        [chr '4', chr '2', chr '\n'] ∧
      (printf emptyMemory 0 (formatOf [.d, .lit (chr '\n') (by decide)]) fun _ => 42).2 =
        some unknownFormat ∧
      (printf emptyMemory 0 (formatOf [.d, .lit (chr '\n') (by decide)]) fun _ => 42).2 ≠
        some (withCarriageReturns
          (formatted emptyMemory [.d, .lit (chr '\n') (by decide)] fun _ => 42)) := by
  refine ⟨?_, ?_, ?_⟩
  · decide +kernel
  · decide +kernel
  · decide +kernel

end Hydra.LibC
