import Hydra.Kernel.Printk

/-!
# Numbers on the console

The conversions of `printk` that print a number. All of them hand it to `print_num` as an
`unsigned long`, which has no sign to print: what is negative comes out as a number beyond
`2 ^ 63` (`printk_renders`).
-/

namespace Hydra.Kernel
open ByteMem Numeral

/-- `va_arg(args, long)` for the word of the argument. -/
def longArg (word : UInt64) : Int :=
  if word.toNat < 2 ^ 63 then word.toNat else (word.toNat : Int) - 2 ^ 64

/-- A conversion of `printk` that prints a number. -/
inductive NumberConversion where
  | d
  | i
  | x
  | ld
  | lx

namespace NumberConversion

/-- How the conversion is written. -/
def spelling : NumberConversion → List UInt8
  | d => [chr '%', chr 'd']
  | i => [chr '%', chr 'i']
  | x => [chr '%', chr 'x']
  | ld => [chr '%', chr 'l', chr 'd']
  | lx => [chr '%', chr 'l', chr 'x']

/-- The conversion is of a signed type. -/
def isSigned : NumberConversion → Bool
  | d | i | ld => true
  | x | lx => false

/-- The value of the argument in the type of the conversion. -/
def value (word : UInt64) : NumberConversion → Int
  | d | i => intArg word
  | x => word.toNat % 2 ^ 32
  | ld => longArg word
  | lx => word.toNat

/-- The numeral of the argument: decimal with a sign, or hexadecimal. -/
def canonical (word : UInt64) (c : NumberConversion) : List UInt8 :=
  if c.isSigned then signed 10 (c.value word) else numeral 16 (c.value word).toNat

/-- `printk` prints the numeral of the argument for the conversion, whatever comes behind it. -/
def Renders (mem : Memory) (args : VaList) (c : NumberConversion) : Prop :=
  ∀ fmt, printk mem (c.spelling ++ fmt) args =
    (printk mem fmt args.rest).map (c.canonical (args 0) ++ ·)

/-- The number that the conversion hands to `print_num`, and the base. -/
def printed (word : UInt64) : NumberConversion → Nat × Nat
  | d | i => ((intArg word % 2 ^ 64).toNat, 10)
  | x => (word.toNat % 2 ^ 32, 16)
  | ld => (word.toNat, 10)
  | lx => (word.toNat, 16)

lemma printk_spelling (mem : Memory) (c : NumberConversion) (fmt : List UInt8) (args : VaList) :
    printk mem (c.spelling ++ fmt) args = (printk mem fmt args.rest).map
      (printNum (c.printed (args 0)).1 (c.printed (args 0)).2 ++ ·) := by
  cases c <;> cases fmt <;> rfl

end NumberConversion

/-! ## print_num -/

section Digits

variable {base : Nat} (hlo : 2 ≤ base)
include hlo

lemma numDigits_reverse {n num : Nat} (hn : num ≤ n) (hpos : num ≠ 0) :
    (numDigits base n num).reverse = numeral base num := by
  induction n generalizing num with
  | zero => omega
  | succ n ih =>
    have hdiv : num / base < num := Nat.div_lt_self (Nat.pos_of_ne_zero hpos) hlo
    rw [numDigits, if_neg hpos, List.reverse_cons, numeral_eq hlo]
    by_cases hlast : num / base = 0
    · rw [if_pos hlast, hlast]
      cases n <;> rfl
    · rw [if_neg hlast, ih (by omega) hlast]

/-- `print_num` prints the numeral of its unsigned argument. -/
lemma printNum_eq (hhi : base ≤ 36) (num : Nat) : printNum num base = numeral base num := by
  have hplain : ∀ c ∈ numeral base num, uartPutc c = [c] := by
    rintro c hc
    refine if_neg ?_
    rintro rfl
    exact not_mem_numeral hlo hhi (by decide) num hc
  unfold printNum
  split
  · next hzero =>
    rw [hzero]
    rfl
  · next hpos =>
    rw [numDigits_reverse hlo le_rfl hpos, List.flatMap_congr hplain]
    exact List.flatMap_singleton' _

end Digits

/-- A numeral has no sign. -/
lemma numeral_ne_minus {base : Nat} (hlo : 2 ≤ base) (hhi : base ≤ 36) (n : Nat)
    (text : List UInt8) : numeral base n ≠ chr '-' :: text := by
  intro heq
  refine not_mem_numeral hlo hhi (by decide) n (?_ : chr '-' ∈ numeral base n)
  rw [heq]
  exact List.mem_cons_self

namespace NumberConversion

lemma printed_base (word : UInt64) (c : NumberConversion) :
    2 ≤ (c.printed word).2 ∧ (c.printed word).2 ≤ 36 := by
  cases c with
  | d | i | ld => exact (by decide : 2 ≤ 10 ∧ 10 ≤ 36)
  | x | lx => exact (by decide : 2 ≤ 16 ∧ 16 ≤ 36)

lemma printed_text (word : UInt64) (c : NumberConversion) :
    printNum (c.printed word).1 (c.printed word).2 =
      numeral (c.printed word).2 (c.printed word).1 :=
  printNum_eq (printed_base word c).1 (printed_base word c).2 _

/-- What is not negative is handed on as it is. -/
lemma canonical_of_nonneg {word : UInt64} {c : NumberConversion}
    (h : c.isSigned = true → 0 ≤ c.value word) :
    c.canonical word = numeral (c.printed word).2 (c.printed word).1 := by
  have hlt := word.toNat_lt
  cases c with
  | d | i =>
    have hint : 0 ≤ intArg word := h rfl
    obtain ⟨n, hn⟩ := Int.eq_ofNat_of_zero_le hint
    have hsmall : intArg word < 2 ^ 31 := by
      unfold intArg toInt32
      split <;> omega
    show signed 10 (intArg word) = numeral 10 (intArg word % 2 ^ 64).toNat
    unfold signed
    rw [if_neg (not_lt.mpr hint)]
    congr 1
    omega
  | x | lx => rfl
  | ld =>
    have hlong : 0 ≤ longArg word := h rfl
    show signed 10 (longArg word) = numeral 10 word.toNat
    unfold signed
    rw [if_neg (not_lt.mpr hlong)]
    congr 1
    unfold longArg at *
    split <;> omega

lemma canonical_of_neg {word : UInt64} {c : NumberConversion} (hs : c.isSigned = true)
    (h : c.value word < 0) : ∃ text, c.canonical word = chr '-' :: text := by
  unfold canonical signed
  rw [if_pos hs, if_pos h]
  exact ⟨_, rfl⟩

/-- For every conversion of a number and every argument `printk` prints the numeral of the argument
exactly if the conversion is of an unsigned type or the argument is not negative. -/
theorem printk_renders (mem : Memory) (args : VaList) (c : NumberConversion) :
    c.Renders mem args ↔ (c.isSigned = true → 0 ≤ c.value (args 0)) := by
  constructor
  · intro h hs
    by_contra hneg
    obtain ⟨text, htext⟩ := canonical_of_neg hs (not_le.mp hneg)
    have hprint := (printk_spelling mem c [] args).symm.trans (h [])
    rw [printk, Option.map_some, Option.map_some, Option.some.injEq, List.append_nil,
      List.append_nil, printed_text, htext] at hprint
    obtain ⟨hlo, hhi⟩ := printed_base (args 0) c
    exact numeral_ne_minus hlo hhi _ _ hprint
  · intro h fmt
    rw [printk_spelling, printed_text, canonical_of_nonneg h]

/-- `printk("%d", -1)` prints the largest 64-bit number. -/
theorem printk_renders_fails :
    intArg 0xffffffff = -1 ∧
      printk ⟨fun _ => [], fun _ => 0⟩ [chr '%', chr 'd'] (fun _ => 0xffffffff) =
        some (numeral 10 18446744073709551615) ∧
      ¬Renders ⟨fun _ => [], fun _ => 0⟩ (fun _ => 0xffffffff) .d := by
  have hprint : printk ⟨fun _ => [], fun _ => 0⟩ [chr '%', chr 'd'] (fun _ => 0xffffffff) =
      some (numeral 10 18446744073709551615) := by
    show some (printNum 18446744073709551615 10 ++ []) = _
    rw [printNum_eq (by decide) (by decide), List.append_nil]
  refine ⟨by decide, hprint, fun h => ?_⟩
  have hminus := hprint.symm.trans (h [])
  rw [printk, Option.map_some, Option.some.injEq] at hminus
  exact numeral_ne_minus (by decide) (by decide) _ _ hminus

end NumberConversion

end Hydra.Kernel
