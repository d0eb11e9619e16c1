import Hydra.LibC.Stdio

/-!
# itoa

`lib/libc/stdlib.c` and `lib/libc/stdio.c` have a copy of `itoa` each. Both write the digits from
the low end and reverse them in the buffer, and differ in the table of digits and in the check of
the base. They divide a signed number, so the remainders of a negative one are negative, and the
digits of it are read in front of the table. Only in base 10 the number is negated before, which
changes the smallest `int` into itself (`itoa_valid`).
-/

namespace Hydra.LibC
open ByteMem Numeral Hydra.Kernel

/-- What `itoa` does: the indices at which it reads its table of digits, and the buffer. -/
structure Conversion where
  indices : List Int
  str : Mem

/-- The digit loop of `itoa`, for `n` rounds at most: the indices in the table `digit`, the end of
the digits, and the buffer. -/
def emitDigits (digit : Int → UInt8) (base : Int) : Nat → Int → Nat → Mem → List Int × Nat × Mem
  | 0, _, ptr, str => ([], ptr, str)
  | n + 1, value, ptr, str =>
    let tmpValue := value
    let value := value.tdiv base
    let i := tmpValue - value * base
    let str := Function.update str ptr (digit i)
    if value = 0 then ([i], ptr + 1, str)
    else
      let r := emitDigits digit base n value (ptr + 1) str
      (i :: r.1, r.2)

/-- The body of `itoa`: the sign, the digits, the terminator, and the reversal. -/
def convert (digit : Int → UInt8) (value : Int) (str : Mem) (base : Int) : Conversion :=
  let neg := value < 0 ∧ base = 10
  let ptr1 := if neg then 1 else 0
  let str := if neg then Function.update str 0 (chr '-') else str
  -- the smallest `int` is its own negative
  let value := if neg then toInt32 (ofInt32 (-value)) else value
  let (indices, ptr, str) := emitDigits digit base (value.natAbs + 1) value ptr1 str
  ⟨indices, reverseRange ptr ptr1 (ptr - 1) (Function.update str ptr 0)⟩

namespace Stdlib

/-- `"0123456789abcdefghijklmnopqrstuvwxyz"[i]`, with the bytes around the literal. -/
def digitAt (rodata : Int → UInt8) (i : Int) : UInt8 :=
  if 0 ≤ i ∧ i < 36 then digitChar i.toNat else rodata i

lemma digitAt_of_lt (rodata : Int → UInt8) {d : Nat} (h : d < 36) :
    digitAt rodata d = digitChar d := by
  unfold digitAt
  rw [if_pos (by omega), Int.toNat_natCast]

/-- C `itoa` of `stdlib.c`. -/
def itoa (rodata : Int → UInt8) (value : Int) (str : Mem) (base : Int) : Conversion :=
  if base < 2 ∨ base > 36 then ⟨[], Function.update str 0 0⟩
  else convert (digitAt rodata) value str base

end Stdlib

namespace Stdio

/-- C `itoa` of `stdio.c`. -/
def itoa (mem : Memory) (value : Int) (str : Mem) (base : Int) : Conversion :=
  convert (digitAt mem) value str base

end Stdio

/-- The numeral of an `int`: with a sign in base 10, and of the unsigned word in every other
base. -/
def canonical (value : Int) (base : Nat) : List UInt8 :=
  if base = 10 then signed 10 value else numeral base (ofInt32 value)

/-- The table is read only at digits of the base, and the buffer has the numeral of the value. -/
structure Valid (value : Int) (base : Nat) (c : Conversion) : Prop where
  indices : ∀ i ∈ c.indices, 0 ≤ i ∧ i < base
  text : Spells c.str 0 (canonical value base)

/-! ## The digit loop -/

section Loop

variable (digit : Int → UInt8) (base : Int)

/-- The loop writes the digits one behind the other. -/
lemma emitDigits_spec {n : Nat} {value : Int} {ptr : Nat} {str : Mem} :
    ∀ r, r = emitDigits digit base n value ptr str →
      r.2.1 = ptr + r.1.length ∧
      (∀ i (hi : i < r.1.length), r.2.2 (ptr + i) = digit r.1[i]) ∧
      ∀ i, i < ptr ∨ r.2.1 ≤ i → r.2.2 i = str i := by
  induction n generalizing value ptr str with
  | zero =>
    rintro r rfl
    exact ⟨rfl, fun i hi => absurd hi (Nat.not_lt_zero i), fun i _ => rfl⟩
  | succ n ih =>
    intro r hr
    unfold emitDigits at hr
    dsimp only at hr
    split at hr
    · subst hr
      refine ⟨rfl, fun i hi => ?_, fun i hi => ?_⟩
      · obtain rfl : i = 0 := by simpa using hi
        exact Function.update_self _ _ _
      · exact Function.update_of_ne (by dsimp only at hi; omega) _ _
    · obtain ⟨hptr, hdigits, hframe⟩ := ih _ rfl
      subst hr
      refine ⟨?_, fun i hi => ?_, fun i hi => ?_⟩
      · rw [hptr, List.length_cons]
        omega
      · cases i with
        | zero => exact (hframe ptr (.inl (Nat.lt_succ_self ptr))).trans (Function.update_self _ _ _)
        | succ i =>
          have hnext := hdigits i (Nat.lt_of_succ_lt_succ hi)
          rwa [Nat.add_right_comm] at hnext
      · dsimp only at hi
        rw [hframe i (by omega), Function.update_of_ne (by omega)]

lemma emitDigits_ne_nil (n : Nat) (value : Int) (ptr : Nat) (str : Mem) :
    (emitDigits digit base (n + 1) value ptr str).1 ≠ [] := by
  unfold emitDigits
  dsimp only
  split
  all_goals exact List.cons_ne_nil _ _

/-- The buffer of `itoa` behind the sign: the digits in reverse, and the terminator. -/
lemma emitDigits_reverse (n : Nat) (value : Int) (ptr1 : Nat) (str : Mem) :
    ∀ r m, r = emitDigits digit base (n + 1) value ptr1 str →
      m = reverseRange r.2.1 ptr1 (r.2.1 - 1) (Function.update r.2.2 r.2.1 0) →
      (∀ i (hi : i < (r.1.map digit).reverse.length), m (ptr1 + i) = (r.1.map digit).reverse[i]) ∧
      m (ptr1 + (r.1.map digit).reverse.length) = 0 ∧ ∀ i < ptr1, m i = str i := by
  rintro r m hr rfl
  obtain ⟨hptr, hdigits, hframe⟩ := emitDigits_spec digit base r hr
  have hpos : 0 < r.1.length := List.length_pos_iff.mpr (hr ▸ emitDigits_ne_nil digit base n _ _ _)
  have hlen : (r.1.map digit).reverse.length = r.1.length := by
    rw [List.length_reverse, List.length_map]
  refine ⟨fun i hi => ?_, ?_, fun i hi => ?_⟩
  · -- the digit comes from the other end
    have hsrc : ptr1 + (r.2.1 - 1) - (ptr1 + i) = ptr1 + (r.1.length - 1 - i) := by omega
    have hj : r.1.length - 1 - i < r.1.length := by omega
    rw [reverseRange_apply (by omega), if_pos (by omega), hsrc, Function.update_of_ne (by omega),
      hdigits _ hj]
    simp
  · rw [hlen, reverseRange_apply (by omega), if_neg (by omega), ← hptr, Function.update_self]
  · rw [reverseRange_apply (by omega), if_neg (by omega), Function.update_of_ne (by omega),
      hframe i (.inl hi)]

/-- The copy of the loop that collects the digits in a list. -/
lemma emitDigits_itoaDigits (mem : Memory) (n : Nat) (value : Int) (ptr : Nat) (str : Mem) :
    (emitDigits (digitAt mem) base n value ptr str).1.map (digitAt mem) =
      itoaDigits mem base n value := by
  induction n generalizing value ptr str with
  | zero => rfl
  | succ n ih =>
    unfold emitDigits itoaDigits
    dsimp only
    split
    · rfl
    · rw [List.map_cons, ih]

/-- The indices of a number that is not negative are its digits. -/
lemma emitDigits_nat {b : Nat} (hb : 2 ≤ b) {n value : Nat} (hn : value < n) (ptr : Nat)
    (str : Mem) :
    ∃ ds : List Nat, (emitDigits digit b n value ptr str).1 = ds.map (↑) ∧ (∀ d ∈ ds, d < b) ∧
      numeral b value = (ds.map digitChar).reverse := by
  induction n generalizing value ptr str with
  | zero => cases hn
  | succ n ih =>
    have hmod : (value : Int) - (value / b : Nat) * b = (value % b : Nat) := by
      have hsum := Nat.div_add_mod value b
      rw [mul_comm] at hsum
      omega
    have hlt : value % b < b := Nat.mod_lt _ (by omega)
    unfold emitDigits
    simp only [← Int.ofNat_tdiv, hmod]
    rw [numeral_eq hb]
    by_cases hlast : value / b = 0
    · rw [if_pos (by exact_mod_cast hlast), if_pos hlast]
      exact ⟨[value % b], rfl, by simpa using hlt, rfl⟩
    · have hpos : 0 < value := Nat.pos_of_ne_zero fun h0 => hlast (h0 ▸ Nat.zero_div b)
      have hdiv : value / b < value := Nat.div_lt_self hpos hb
      obtain ⟨ds, hds, hall, hnum⟩ := ih (show value / b < n by omega) (ptr + 1)
        (Function.update str ptr (digit (value % b : Nat)))
      rw [if_neg (by exact_mod_cast hlast), if_neg hlast]
      refine ⟨value % b :: ds, ?_, ?_, ?_⟩
      · rw [List.map_cons, ← hds]
      · exact List.forall_mem_cons.mpr ⟨hlt, hall⟩
      · rw [hnum, List.map_cons, List.reverse_cons]

/-- The last index of a negative number is negative. -/
lemma emitDigits_neg {b : Nat} (hb : 2 ≤ b) {n value : Nat} (hpos : 0 < value) (hn : value < n)
    (ptr : Nat) (str : Mem) : ∃ i ∈ (emitDigits digit b n (-value) ptr str).1, i < 0 := by
  induction n generalizing value ptr str with
  | zero => cases hn
  | succ n ih =>
    have hdiv : (-(value : Int)).tdiv b = -(value / b : Nat) := by
      rw [Int.neg_tdiv, ← Int.ofNat_tdiv]
    unfold emitDigits
    dsimp only
    rw [hdiv]
    by_cases hlast : value / b = 0
    · rw [if_pos (by omega), hlast]
      exact ⟨_, List.mem_singleton_self _, by omega⟩
    · have hlt : value / b < value := Nat.div_lt_self hpos hb
      rw [if_neg (by omega)]
      obtain ⟨i, hi, hneg⟩ := ih (Nat.pos_of_ne_zero hlast) (by omega) (ptr + 1)
        (Function.update str ptr (digit (-value - -(value / b : Nat) * b)))
      exact ⟨i, List.mem_cons_of_mem _ hi, hneg⟩

end Loop

/-! ## The buffer -/

section Buffer

variable {digit : Int → UInt8} {base : Nat} (hlo : 2 ≤ base) (hhi : base ≤ 36)
  (hdigit : ∀ d < base, digit d = digitChar d)
include hlo hhi hdigit

/-- From its first digit on, the buffer has the numeral of a number that is not negative. -/
lemma emitDigits_spells (value ptr1 : Nat) (str : Mem) :
    ∀ r, r = emitDigits digit base (value + 1) value ptr1 str →
      (∀ i ∈ r.1, 0 ≤ i ∧ i < base) ∧
      Spells (reverseRange r.2.1 ptr1 (r.2.1 - 1) (Function.update r.2.2 r.2.1 0)) ptr1
        (numeral base value) ∧
      ∀ i < ptr1, reverseRange r.2.1 ptr1 (r.2.1 - 1) (Function.update r.2.2 r.2.1 0) i = str i := by
  rintro r hr
  obtain ⟨hdigits, hend, hframe⟩ := emitDigits_reverse digit base value value ptr1 str r _ hr rfl
  obtain ⟨ds, hds, hall, hnum⟩ := emitDigits_nat digit hlo (Nat.lt_succ_self value) ptr1 str
  rw [← hr] at hds
  have htext : (r.1.map digit).reverse = numeral base value := by
    rw [hnum, hds, List.map_map]
    exact congrArg List.reverse (List.map_congr_left fun d hd => hdigit d (hall d hd))
  have hnul : 0 ∉ numeral base value := not_mem_numeral hlo hhi (by decide) value
  refine ⟨fun i hi => ?_, ?_, hframe⟩
  · rw [hds] at hi
    obtain ⟨d, hd, rfl⟩ := List.mem_map.mp hi
    exact ⟨Int.natCast_nonneg d, Int.ofNat_lt.mpr (hall d hd)⟩
  · rw [← htext] at hnul ⊢
    exact spells_of_getElem hnul hend hdigits

/-- A number that is not negative, and in base 10 also one that is and has a positive counterpart,
is converted to its numeral. -/
lemma convert_valid {value : Int} (hvalue : -2 ^ 31 ≤ value ∧ value < 2 ^ 31) (str : Mem)
    (h : 0 ≤ value ∨ base = 10 ∧ value ≠ -2 ^ 31) : Valid value base (convert digit value str base) := by
  by_cases hneg : value < 0 ∧ (base : Int) = 10
  · obtain ⟨hlt, hten⟩ := hneg
    obtain rfl : base = 10 := by exact_mod_cast hten
    have hne : value ≠ -2 ^ 31 := (h.resolve_left (not_le.mpr hlt)).2
    have habs : toInt32 (ofInt32 (-value)) = value.natAbs := by
      rw [toInt32_ofInt32 (by omega) (by omega)]
      omega
    obtain ⟨hindices, htext, hsign⟩ := emitDigits_spells hlo hhi hdigit value.natAbs 1
      (Function.update str 0 (chr '-')) _ rfl
    unfold convert
    simp only [hlt, hten, and_self, if_true, habs, Int.natAbs_natCast]
    refine ⟨hindices, ?_⟩
    show Spells _ 0 (canonical value 10)
    unfold canonical signed
    rw [if_pos rfl, if_pos hlt]
    refine ⟨by decide, ?_, htext⟩
    exact (hsign 0 Nat.one_pos).trans (Function.update_self _ _ _)
  · have hpos : 0 ≤ value := h.elim id fun h => not_lt.mp fun hlt => hneg ⟨hlt, by exact_mod_cast h.1⟩
    obtain ⟨n, rfl⟩ := Int.eq_ofNat_of_zero_le hpos
    obtain ⟨hindices, htext, _⟩ := emitDigits_spells hlo hhi hdigit n 0 str _ rfl
    have hcanonical : canonical n base = numeral base n := by
      unfold canonical signed ofInt32
      rw [if_neg (not_lt.mpr hpos), Int.natAbs_natCast]
      split
      · next hten => rw [hten]
      · congr 1
        omega
    unfold convert
    simp only [if_neg hneg, Int.natAbs_natCast]
    exact ⟨hindices, hcanonical.symm ▸ htext⟩

omit hhi hdigit in
/-- Of all other numbers a digit in front of the table is read. -/
lemma convert_not_valid {value : Int} (hvalue : -2 ^ 31 ≤ value ∧ value < 2 ^ 31) (str : Mem)
    (h : ¬(0 ≤ value ∨ base = 10 ∧ value ≠ -2 ^ 31)) :
    ¬Valid value base (convert digit value str base) := by
  intro hvalid
  have hlt : value < 0 := not_le.mp fun hpos => h (.inl hpos)
  obtain ⟨n, hn⟩ : ∃ n : Nat, value = -n := ⟨value.natAbs, by omega⟩
  -- the number whose digits are taken is the value itself
  have hsame : (if value < 0 ∧ (base : Int) = 10 then toInt32 (ofInt32 (-value)) else value) =
      -(n : Int) := by
    split
    · next hneg =>
      have hmin : value = -2 ^ 31 := by
        by_contra hne
        exact h (.inr ⟨by exact_mod_cast hneg.2, hne⟩)
      rw [← hn, hmin]
      rfl
    · exact hn
  obtain ⟨i, hi, hneg⟩ := emitDigits_neg digit hlo (show 0 < n by omega) (Nat.lt_succ_self n)
    (if value < 0 ∧ (base : Int) = 10 then 1 else 0)
    (if value < 0 ∧ (base : Int) = 10 then Function.update str 0 (chr '-') else str)
  refine absurd (hvalid.indices i ?_).1 (not_le.mpr hneg)
  unfold convert
  simp only [hsame, Int.natAbs_neg, Int.natAbs_natCast]
  exact hi

end Buffer

/-- The characters that `printf` and `sprintf` take from `itoa` are those in the buffer. -/
lemma itoa_bytes (mem : Memory) (value : Int) (str : Mem) (base : Int) :
    bytes (Stdio.itoa mem value str base).str (itoa mem value base).length = itoa mem value base ∧
      (Stdio.itoa mem value str base).str (itoa mem value base).length = 0 := by
  by_cases hneg : value < 0 ∧ base = 10
  · obtain ⟨hdigits, hend, hsign⟩ := emitDigits_reverse (digitAt mem) base
      (toInt32 (ofInt32 (-value))).natAbs (toInt32 (ofInt32 (-value))) 1
      (Function.update str 0 (chr '-')) _ _ rfl rfl
    rw [emitDigits_itoaDigits] at hdigits hend
    unfold Stdio.itoa convert itoa
    simp only [if_pos hneg]
    refine ⟨List.ext_getElem (by simp [bytes]) fun i hi hi' => ?_, ?_⟩
    · rw [bytes_getElem]
      cases i with
      | zero => exact (hsign 0 Nat.one_pos).trans (Function.update_self _ _ _)
      | succ i =>
        rw [List.getElem_cons_succ, ← hdigits i (by simpa using hi'), Nat.add_comm 1 i]
    · rw [Nat.add_comm 1] at hend
      exact hend
  · obtain ⟨hdigits, hend, _⟩ := emitDigits_reverse (digitAt mem) base value.natAbs value 0 str _ _
      rfl rfl
    rw [emitDigits_itoaDigits] at hdigits hend
    unfold Stdio.itoa convert itoa
    simp only [if_neg hneg]
    refine ⟨List.ext_getElem (by simp [bytes]) fun i hi hi' => ?_, ?_⟩
    · rw [bytes_getElem, ← hdigits i hi', Nat.zero_add]
    · rw [Nat.zero_add] at hend
      exact hend

/-- For every `int`, both copies of `itoa` read their table only at digits of the base and write the
numeral exactly if the number is not negative, or the base is 10 and the number is not the smallest
`int`: that of `stdlib.c` in every base, and that of `stdio.c` in the bases of `%d` and `%x`. -/
theorem itoa_valid (mem : Memory) (rodata : Int → UInt8) {value : Int}
    (hvalue : -2 ^ 31 ≤ value ∧ value < 2 ^ 31) (str : Mem) :
    (∀ base : Nat, 2 ≤ base ∧ base ≤ 36 →
      (Valid value base (Stdlib.itoa rodata value str base) ↔
        0 ≤ value ∨ base = 10 ∧ value ≠ -2 ^ 31)) ∧
    ∀ base : Nat, base = 10 ∨ base = 16 →
      (Valid value base (Stdio.itoa mem value str base) ↔
        0 ≤ value ∨ base = 10 ∧ value ≠ -2 ^ 31) := by
  refine ⟨fun base hbase => ?_, fun base hbase => ?_⟩
  · obtain ⟨hlo, hhi⟩ := hbase
    have hdigit : ∀ d < base, Stdlib.digitAt rodata d = digitChar d := fun d hd =>
      Stdlib.digitAt_of_lt rodata (hd.trans_le hhi)
    unfold Stdlib.itoa
    rw [if_neg (by omega)]
    constructor
    · exact fun h => by_contra fun hnot => convert_not_valid hlo hvalue str hnot h
    · exact convert_valid hlo hhi hdigit hvalue str
  · have hdigit : ∀ d < base, digitAt mem d = digitChar d := fun d hd =>
      digitAt_of_lt mem (by omega)
    constructor
    · exact fun h => by_contra fun hnot => convert_not_valid (by omega) hvalue str hnot h
    · exact convert_valid (by omega) (by omega) hdigit hvalue str

theorem itoa_valid_number :
    Valid (-12345) 10 (Stdlib.itoa (fun _ => 0) (-12345) (fun _ => 0) 10) :=
  ((itoa_valid emptyMemory (fun _ => 0) (by decide) fun _ => 0).1 10 (by decide)).mpr (by decide)

/-- `itoa(-1, str, 16)` reads in front of the table, and so does `itoa(-2147483648, str, 10)`. -/
theorem itoa_valid_fails :
    (Stdlib.itoa (fun _ => 0) (-1) (fun _ => 0) 16).indices = [-1] ∧
      ¬Valid (-1) 16 (Stdlib.itoa (fun _ => 0) (-1) (fun _ => 0) 16) ∧
      ¬Valid (-1) 16 (Stdio.itoa emptyMemory (-1) (fun _ => 0) 16) ∧
      ¬Valid (-2147483648) 10 (Stdlib.itoa (fun _ => 0) (-2147483648) (fun _ => 0) 10) := by
  refine ⟨by decide, fun h => ?_, fun h => ?_, fun h => ?_⟩
  · exact absurd (h.indices (-1) (by decide)) (by decide)
  · exact absurd (h.indices (-1) (by decide)) (by decide)
  · exact absurd (h.indices (-8) (by decide +kernel)) (by decide)

end Hydra.LibC
