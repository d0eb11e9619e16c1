import Mathlib.Data.Nat.Digits.Defs
import Mathlib.Tactic

/-!
# Numerals

Numbers written out in ASCII, in a base from 2 to 16. The digits are Mathlib's `Nat.digits`, most
significant first, and zero has one digit. A loop that takes the digits off the low end is compared
with `numeral_eq`, one step of it.
-/

namespace Numeral

/-- The byte of an ASCII character. -/
def chr (c : Char) : UInt8 := UInt8.ofNat c.toNat

/-- The character of a digit. -/
def digitChar (d : Nat) : UInt8 := if d < 10 then UInt8.ofNat (48 + d) else UInt8.ofNat (87 + d)

/-- The number `n` in base `base`. -/
def numeral (base n : Nat) : List UInt8 :=
  if n = 0 then [digitChar 0] else ((Nat.digits base n).map digitChar).reverse

/-- `'0' <= c && c <= '9'` -/
def isDigit (c : UInt8) : Bool := chr '0' ≤ c && c ≤ chr '9'

/-- The number that decimal digits make behind those of `n`. -/
def decimal (n : Nat) (digits : List UInt8) : Nat :=
  digits.foldl (fun n c => n * 10 + (c.toNat - (chr '0').toNat)) n

/-- An integer, with a sign if it is negative. -/
def signed (base : Nat) (i : Int) : List UInt8 :=
  if i < 0 then chr '-' :: numeral base i.natAbs else numeral base i.natAbs

/-- The last digit comes off the end. -/
lemma numeral_eq {base : Nat} (hbase : 2 ≤ base) (n : Nat) :
    numeral base n =
      (if n / base = 0 then [] else numeral base (n / base)) ++ [digitChar (n % base)] := by
  unfold numeral
  rcases Nat.eq_zero_or_pos n with rfl | hpos
  · simp
  · rw [if_neg hpos.ne', Nat.digits_def' hbase hpos, List.map_cons, List.reverse_cons]
    congr 1
    by_cases hlast : n / base = 0
    · rw [if_pos hlast, hlast]
      simp
    · rw [if_neg hlast, if_neg hlast]

/-- A numeral consists of digits. -/
lemma mem_numeral {base n : Nat} {c : UInt8} (hbase : 2 ≤ base) (hc : c ∈ numeral base n) :
    ∃ d < base, c = digitChar d := by
  unfold numeral at hc
  split at hc
  · exact ⟨0, by omega, List.mem_singleton.mp hc⟩
  · obtain ⟨d, hd, rfl⟩ := List.mem_map.mp (List.mem_reverse.mp hc)
    exact ⟨d, Nat.digits_lt_base hbase hd, rfl⟩

lemma numeral_ne_nil (base n : Nat) : numeral base n ≠ [] := by
  unfold numeral
  split
  · exact List.cons_ne_nil _ _
  · next hn => simpa [Nat.digits_ne_nil_iff_ne_zero] using hn

/-- No character in front of the digits is in a numeral: no sign, no newline and no terminator. -/
lemma not_mem_numeral {base : Nat} (hlo : 2 ≤ base) (hhi : base ≤ 36) {c : UInt8} (hc : c < chr '0')
    (n : Nat) : c ∉ numeral base n := by
  have hall : ∀ d < 36, chr '0' ≤ digitChar d := by decide
  intro hmem
  obtain ⟨d, hd, rfl⟩ := mem_numeral hlo hmem
  exact absurd hc (UInt8.not_lt.mpr (hall d (by omega)))

lemma isDigit_of_mem {n : Nat} {c : UInt8} (hc : c ∈ numeral 10 n) : isDigit c = true := by
  have hall : ∀ d < 10, isDigit (digitChar d) = true := by decide
  obtain ⟨d, hd, rfl⟩ := mem_numeral (by decide) hc
  exact hall d hd

/-- A decimal numeral is read as its number. -/
lemma decimal_numeral (n : Nat) : decimal 0 (numeral 10 n) = n := by
  have hvalue : ∀ d < 10, (digitChar d).toNat - (chr '0').toNat = d := by decide
  induction n using Nat.strong_induction_on with
  | _ n ih =>
    have hmod : n % 10 < 10 := Nat.mod_lt _ (by decide)
    rw [numeral_eq (by decide), decimal, List.foldl_append, List.foldl_cons, List.foldl_nil,
      hvalue _ hmod]
    by_cases hlast : n / 10 = 0
    · rw [if_pos hlast, List.foldl_nil]
      omega
    · have hrest : List.foldl (fun n c => n * 10 + (c.toNat - (chr '0').toNat)) 0
          (numeral 10 (n / 10)) = n / 10 := ih (n / 10) (by omega)
      rw [if_neg hlast, hrest]
      omega

end Numeral
