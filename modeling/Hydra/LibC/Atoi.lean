import Hydra.LibC.Itoa

/-!
# atoi

`atoi` of `lib/libc/stdlib.c` reads the number that `itoa` has written, behind blanks and in front
of other text (`atoi_itoa`). Its accumulator does not wrap on the way, since every beginning of a
numeral is a smaller number. In general it wraps, but without harm to the lowest 32 bits: of every
text `atoi` reads the number that is written there, up to a multiple of `2 ^ 32` (`atoi_written`).
-/

namespace Hydra.LibC
open ByteMem Numeral

/-- `*str == ' ' || *str == '\t' || *str == '\n' || *str == '\r'` -/
def isSpace (c : UInt8) : Bool :=
  c = chr ' ' || c = chr '\t' || c = chr '\n' || c = chr '\r'

/-- The digit loop of `atoi`, in 32-bit arithmetic. -/
def atoiDigits (result : Int) : List UInt8 → Int
  | [] => result
  | c :: str =>
    if isDigit c then
      atoiDigits (toInt32 (ofInt32 (result * 10 + ((c.toNat : Int) - (chr '0').toNat)))) str
    else result

/-- C `atoi`. -/
def atoi (str : List UInt8) : Int :=
  match str.dropWhile isSpace with
  | [] => 0
  | c :: str =>
    if c = chr '-' then toInt32 (ofInt32 (atoiDigits 0 str * -1))
    else if c = chr '+' then toInt32 (ofInt32 (atoiDigits 0 str * 1))
    else toInt32 (ofInt32 (atoiDigits 0 (c :: str) * 1))

/-- The accumulator takes in one more digit. -/
lemma atoiDigits_digit {n d : Nat} (hd : d < 10) (hn : n * 10 + d < 2 ^ 31) (str : List UInt8) :
    atoiDigits n (digitChar d :: str) = atoiDigits (n * 10 + d : Nat) str := by
  have hchar : ∀ d < 10, isDigit (digitChar d) = true ∧
      ((digitChar d).toNat : Int) - (chr '0').toNat = d := by decide
  obtain ⟨hdigit, hvalue⟩ := hchar d hd
  rw [atoiDigits, if_pos hdigit, hvalue]
  congr 1
  rw [toInt32_ofInt32 (by omega) (by omega)]
  push_cast
  rfl

/-- A numeral is read to its end. -/
lemma atoiDigits_numeral {n : Nat} (hn : n < 2 ^ 31) (str : List UInt8) :
    atoiDigits 0 (numeral 10 n ++ str) = atoiDigits n str := by
  induction n using Nat.strong_induction_on generalizing str with
  | _ n ih =>
    have hmod : n % 10 < 10 := Nat.mod_lt _ (by decide)
    have hsum : n / 10 * 10 + n % 10 = n := Nat.div_add_mod' n 10
    rw [numeral_eq (by decide), List.append_assoc, List.singleton_append]
    by_cases hlast : n / 10 = 0
    · rw [if_pos hlast, List.nil_append]
      have hdigit := atoiDigits_digit (n := 0) hmod (by omega) str
      have hsmall : 0 * 10 + n % 10 = n := by omega
      rw [hsmall] at hdigit
      exact hdigit
    · rw [if_neg hlast, ih (n / 10) (by omega) (by omega), atoiDigits_digit hmod (by omega), hsum]

/-- In front of a text that does not begin with a digit the loop ends. -/
lemma atoiDigits_stop {rest : List UInt8} (h : ∀ c ∈ rest.head?, isDigit c = false) (result : Int) :
    atoiDigits result rest = result := by
  cases rest with
  | nil => rfl
  | cons c rest => exact if_neg (Bool.eq_false_iff.mp (h c rfl))

lemma numeral_head (n : Nat) : ∃ d < 10, ∃ text, numeral 10 n = digitChar d :: text := by
  obtain ⟨c, text, htext⟩ := List.exists_cons_of_ne_nil (numeral_ne_nil 10 n)
  obtain ⟨d, hd, rfl⟩ := mem_numeral (by decide) (htext ▸ List.mem_cons_self : c ∈ numeral 10 n)
  exact ⟨d, hd, text, htext⟩

lemma atoi_signed {value : Int} (hlo : -2 ^ 31 < value) (hhi : value < 2 ^ 31)
    {spaces rest : List UInt8} (hspaces : ∀ c ∈ spaces, isSpace c = true)
    (hrest : ∀ c ∈ rest.head?, isDigit c = false) :
    atoi (spaces ++ signed 10 value ++ rest) = value := by
  have habs : value.natAbs < 2 ^ 31 := by omega
  have hdigits : atoiDigits 0 (numeral 10 value.natAbs ++ rest) = value.natAbs := by
    rw [atoiDigits_numeral habs, atoiDigits_stop hrest]
  unfold atoi signed
  rw [List.append_assoc, List.dropWhile_append_of_pos hspaces]
  by_cases hneg : value < 0
  · rw [if_pos hneg, List.cons_append, List.dropWhile_cons_of_neg (by decide)]
    dsimp only
    rw [if_pos rfl, hdigits, toInt32_ofInt32 (by omega) (by omega)]
    omega
  · obtain ⟨d, hd, text, htext⟩ := numeral_head value.natAbs
    have hchar : ∀ d < 10, isSpace (digitChar d) = false ∧ digitChar d ≠ chr '-' ∧
        digitChar d ≠ chr '+' := by decide
    obtain ⟨hblank, hminus, hplus⟩ := hchar d hd
    rw [htext, List.cons_append] at hdigits
    rw [if_neg hneg, htext, List.cons_append, List.dropWhile_cons_of_neg (by simp [hblank])]
    dsimp only
    rw [if_neg hminus, if_neg hplus, hdigits, toInt32_ofInt32 (by omega) (by omega)]
    omega

/-- For every `int` but the smallest, `atoi` reads what `itoa` writes in base 10, behind any blanks
and in front of any text that does not begin with a digit. -/
theorem atoi_itoa (rodata : Int → UInt8) (str : Mem) {value : Int} (hlo : -2 ^ 31 < value)
    (hhi : value < 2 ^ 31) {spaces rest : List UInt8} (hspaces : ∀ c ∈ spaces, isSpace c = true)
    (hrest : ∀ c ∈ rest.head?, isDigit c = false) :
    ∃ text, Spells (Stdlib.itoa rodata value str 10).str 0 text ∧
      atoi (spaces ++ text ++ rest) = value := by
  have hdigit : ∀ d < 10, Stdlib.digitAt rodata (d : Nat) = digitChar d := fun d hd =>
    Stdlib.digitAt_of_lt rodata (by omega)
  have hvalid := @convert_valid _ 10 (by decide) (by decide) hdigit _ ⟨hlo.le, hhi⟩ str
    (.inr ⟨rfl, hlo.ne'⟩)
  exact ⟨signed 10 value, hvalid.text, atoi_signed hlo hhi hspaces hrest⟩

/-- `" \t-70x"`. -/
theorem atoi_itoa_negative :
    ∃ text, Spells (Stdlib.itoa (fun _ => 0) (-70) (fun _ => 0) 10).str 0 text ∧
      atoi ([chr ' ', chr '\t'] ++ text ++ [chr 'x']) = -70 :=
  atoi_itoa (fun _ => 0) (fun _ => 0) (by norm_num) (by norm_num) (by decide +kernel)
    (by decide +kernel)

/-! ## Any text -/

/-- The number that is written in a text: behind blanks, perhaps a sign, and as many digits as
follow. -/
def written (str : List UInt8) : Int :=
  match str.dropWhile isSpace with
  | [] => 0
  | c :: str =>
    if c = chr '-' then -decimal 0 (str.takeWhile isDigit)
    else if c = chr '+' then decimal 0 (str.takeWhile isDigit)
    else decimal 0 ((c :: str).takeWhile isDigit)

/-- An `int` keeps the lowest 32 bits. -/
lemma wrap_modEq (x : Int) : toInt32 (ofInt32 x) ≡ x [ZMOD 2 ^ 32] := by
  unfold toInt32 ofInt32 Int.ModEq
  split <;> omega

lemma wrap_range (x : Int) : -2 ^ 31 ≤ toInt32 (ofInt32 x) ∧ toInt32 (ofInt32 x) < 2 ^ 31 := by
  unfold toInt32 ofInt32
  split <;> omega

/-- The accumulator wraps at every digit, which makes no difference to its lowest 32 bits. -/
lemma atoiDigits_modEq (str : List UInt8) {result : Int} {n : Nat} (h : result ≡ n [ZMOD 2 ^ 32]) :
    atoiDigits result str ≡ decimal n (str.takeWhile isDigit) [ZMOD 2 ^ 32] := by
  induction str generalizing result n with
  | nil => exact h
  | cons c str ih =>
    unfold atoiDigits
    by_cases hc : isDigit c = true
    · rw [if_pos hc, List.takeWhile_cons_of_pos hc]
      refine ih (n := n * 10 + (c.toNat - (chr '0').toNat)) ((wrap_modEq _).trans ?_)
      have hzero : (chr '0').toNat ≤ c.toNat := by
        unfold isDigit at hc
        simp only [Bool.and_eq_true, decide_eq_true_eq] at hc
        exact UInt8.le_iff_toNat_le.mp hc.1
      push_cast [hzero]
      exact (h.mul_right 10).add_right _
    · rw [if_neg hc, List.takeWhile_cons_of_neg hc]
      exact h

lemma atoi_modEq (str : List UInt8) : atoi str ≡ written str [ZMOD 2 ^ 32] := by
  have hdigits : ∀ str, atoiDigits 0 str ≡ decimal 0 (str.takeWhile isDigit) [ZMOD 2 ^ 32] :=
    fun str => atoiDigits_modEq str rfl
  unfold atoi written
  split
  · rfl
  · next c str _ =>
    split
    · refine (wrap_modEq _).trans ?_
      rw [mul_neg_one]
      exact (hdigits str).neg
    · split
      · exact ((wrap_modEq _).trans (by rw [mul_one])).trans (hdigits str)
      · exact ((wrap_modEq _).trans (by rw [mul_one])).trans (hdigits (c :: str))

lemma atoi_range (str : List UInt8) : -2 ^ 31 ≤ atoi str ∧ atoi str < 2 ^ 31 := by
  unfold atoi
  split
  · decide
  · split
    · exact wrap_range _
    · split
      · exact wrap_range _
      · exact wrap_range _

/-- Of every text `atoi` reads the number that is written there, up to a multiple of `2 ^ 32`; so it
reads the number itself exactly if this is an `int`. -/
theorem atoi_written (str : List UInt8) :
    atoi str ≡ written str [ZMOD 2 ^ 32] ∧
      (atoi str = written str ↔ -2 ^ 31 ≤ written str ∧ written str < 2 ^ 31) := by
  have hmod := atoi_modEq str
  have hrange := atoi_range str
  refine ⟨hmod, fun e => e ▸ hrange, fun hwritten => ?_⟩
  unfold Int.ModEq at hmod
  omega

end Hydra.LibC
