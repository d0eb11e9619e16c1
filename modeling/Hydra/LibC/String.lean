import Hydra.Lib.ByteMem

/-!
# Comparing strings

`strcmp`, `strncmp` and `memcmp` of `lib/libc/string.c`. All three compare bytes as unsigned numbers
up to the first difference, but they stop at different places: at the terminators, there or after
`n` characters, and after `n` bytes. The sign of each is that of the lexicographic order on what it
compares (`string_order`).
-/

namespace Hydra.LibC
open ByteMem

/-- C `strcmp`; nothing if it is still comparing after `fuel` characters. -/
def strcmp (m : Mem) : Nat → Nat → Nat → Option Int
  | 0, _, _ => none
  | fuel + 1, str1, str2 =>
    if m str1 ≠ 0 ∧ m str1 = m str2 then strcmp m fuel (str1 + 1) (str2 + 1)
    else some ((m str1).toNat - (m str2).toNat)

/-- C `strncmp`. -/
def strncmp (m : Mem) : Nat → Nat → Nat → Int
  | 0, _, _ => 0
  | n + 1, str1, str2 =>
    if m str1 ≠ 0 ∧ m str1 = m str2 then strncmp m n (str1 + 1) (str2 + 1)
    else (m str1).toNat - (m str2).toNat

/-- C `memcmp`. -/
def memcmp (m : Mem) : Nat → Nat → Nat → Int
  | 0, _, _ => 0
  | n + 1, ptr1, ptr2 =>
    if m ptr1 ≠ m ptr2 then (m ptr1).toNat - (m ptr2).toNat
    else memcmp m n (ptr1 + 1) (ptr2 + 1)

/-- `strcmp` returns `v`. -/
def StrcmpReturns (m : Mem) (str1 str2 : Nat) (v : Int) : Prop :=
  ∃ fuel, strcmp m fuel str1 str2 = some v

/-! ## The order of strings -/

/-- Bytes are ordered as unsigned numbers. -/
instance instLinearOrderUInt8 : LinearOrder UInt8 where
  le_refl := UInt8.le_refl
  le_trans _ _ _ := UInt8.le_trans
  le_antisymm _ _ := UInt8.le_antisymm
  le_total := UInt8.le_total
  lt_iff_le_not_ge _ _ := Std.LawfulOrderLT.lt_iff _ _
  toDecidableLE := inferInstance

/-- The sign of `v` is that of the lexicographic order on unsigned bytes. -/
structure Orders (v : Int) (a b : List UInt8) : Prop where
  lt : v < 0 ↔ a < b
  eq : v = 0 ↔ a = b
  gt : 0 < v ↔ b < a

namespace Orders

variable {v : Int} {a b : List UInt8} {c d : UInt8}

/-- The first characters differ. -/
lemma of_ne (h : c ≠ d) : Orders (c.toNat - d.toNat) (c :: a) (d :: b) where
  lt := by
    rw [List.cons_lt_cons_iff, or_iff_left fun ⟨heq, _⟩ => h heq, UInt8.lt_iff_toNat_lt]
    omega
  eq := by
    have hne : c.toNat ≠ d.toNat := fun heq => h (UInt8.toNat_inj.mp heq)
    refine iff_of_false (by omega) fun heq => ?_
    exact h (List.cons.inj heq).1
  gt := by
    rw [List.cons_lt_cons_iff, or_iff_left fun ⟨heq, _⟩ => h heq.symm, UInt8.lt_iff_toNat_lt]
    omega

/-- The first characters are equal. -/
lemma cons (c : UInt8) (h : Orders v a b) : Orders v (c :: a) (c :: b) where
  lt := by rw [h.lt, List.cons_lt_cons_self]
  eq := by rw [h.eq, List.cons_inj_right]
  gt := by rw [h.gt, List.cons_lt_cons_self]

/-- There is no difference. -/
lemma refl (a : List UInt8) : Orders 0 a a :=
  ⟨iff_of_false (lt_irrefl 0) (lt_irrefl a), iff_of_true rfl rfl,
    iff_of_false (lt_irrefl 0) (lt_irrefl a)⟩

/-- The other way round, the sign is the other one. -/
lemma symm (h : Orders v a b) : Orders (-v) b a where
  lt := neg_lt_zero.trans h.gt
  eq := neg_eq_zero.trans (h.eq.trans eq_comm)
  gt := neg_pos.trans h.lt

/-- The first string has ended. -/
lemma of_nil (h : d ≠ 0) : Orders ((0 : UInt8).toNat - d.toNat) [] (d :: b) := by
  have hpos : d.toNat ≠ 0 := fun h0 => h (UInt8.toNat_inj.mp h0)
  have hneg : ((0 : UInt8).toNat : Int) - d.toNat < 0 := by
    rw [UInt8.toNat_zero]
    omega
  exact ⟨iff_of_true hneg (List.nil_lt_cons d b), iff_of_false hneg.ne (List.cons_ne_nil d b).symm,
    iff_of_false hneg.not_gt (List.not_lt_nil _)⟩

lemma of_nil' (h : c ≠ 0) : Orders (c.toNat - (0 : UInt8).toNat) (c :: a) [] := by
  have hsymm := (of_nil (b := a) h).symm
  rwa [neg_sub] at hsymm

/-- The sign is determined. -/
lemma sign_eq {w : Int} (h : Orders v a b) (h' : Orders w a b) : v.sign = w.sign := by
  rcases lt_trichotomy a b with hlt | heq | hgt
  · rw [Int.sign_eq_neg_one_of_neg (h.lt.mpr hlt), Int.sign_eq_neg_one_of_neg (h'.lt.mpr hlt)]
  · rw [h.eq.mpr heq, h'.eq.mpr heq]
  · rw [Int.sign_eq_one_of_pos (h.gt.mpr hgt), Int.sign_eq_one_of_pos (h'.gt.mpr hgt)]

lemma le_iff (h : Orders v a b) : v ≤ 0 ↔ a ≤ b := by
  rw [← not_lt, h.gt, not_lt]

end Orders

/-! ## The loops -/

section Loops

variable {m : Mem} {p q : Nat} {a b : List UInt8}

/-- Where the loops leave their strings, the difference of the characters decides. -/
lemma Orders.of_exit (n : Nat) (ha : Spells m p a) (hb : Spells m q b)
    (h : ¬(m p ≠ 0 ∧ m p = m q)) :
    Orders ((m p).toNat - (m q).toNat) (a.take (n + 1)) (b.take (n + 1)) := by
  cases a with
  | nil =>
    rw [ha.end]
    cases b with
    | nil =>
      rw [hb.end, sub_self]
      exact Orders.refl []
    | cons d b =>
      obtain ⟨hd, hq, _⟩ := hb
      rw [hq]
      exact Orders.of_nil hd
  | cons c a =>
    obtain ⟨hc, hp, _⟩ := ha
    rw [hp] at h ⊢
    cases b with
    | nil =>
      rw [hb.end]
      exact Orders.of_nil' hc
    | cons d b =>
      obtain ⟨_, hq, _⟩ := hb
      rw [hq] at h ⊢
      exact Orders.of_ne fun heq => h ⟨hc, heq⟩

/-- Where the loops go on, both strings have the same first character. -/
lemma spells_of_round (ha : Spells m p a) (hb : Spells m q b) (h : m p ≠ 0 ∧ m p = m q) :
    ∃ c a' b', a = c :: a' ∧ b = c :: b' ∧ Spells m (p + 1) a' ∧ Spells m (q + 1) b' := by
  obtain ⟨hne, heq⟩ := h
  cases a with
  | nil => exact absurd ha.end hne
  | cons c a =>
    cases b with
    | nil => exact absurd (heq.trans hb.end) hne
    | cons d b =>
      obtain ⟨_, hp, ha⟩ := ha
      obtain ⟨_, hq, hb⟩ := hb
      obtain rfl : d = c := by rw [← hq, ← heq, hp]
      exact ⟨d, a, b, rfl, rfl, ha, hb⟩

lemma strcmp_orders {fuel : Nat} {v : Int} (ha : Spells m p a) (hb : Spells m q b)
    (h : strcmp m fuel p q = some v) : Orders v a b := by
  induction fuel generalizing p q a b with
  | zero => cases h
  | succ fuel ih =>
    unfold strcmp at h
    split at h
    · next hround =>
      obtain ⟨c, a, b, rfl, rfl, ha, hb⟩ := spells_of_round ha hb hround
      exact (ih ha hb h).cons c
    · next hexit =>
      obtain rfl := Option.some.inj h
      have hlong := Orders.of_exit (max a.length b.length) ha hb hexit
      rwa [List.take_of_length_le (by omega), List.take_of_length_le (by omega)] at hlong

/-- `strcmp` ends in one round more than the first string is long, if not before. -/
lemma strcmp_some (ha : Spells m p a) (hb : Spells m q b) :
    ∃ v, ∀ fuel, a.length < fuel → strcmp m fuel p q = some v := by
  induction a generalizing p q b with
  | nil =>
    refine ⟨(m p).toNat - (m q).toNat, fun fuel hfuel => ?_⟩
    obtain ⟨fuel, rfl⟩ := Nat.exists_eq_succ_of_ne_zero (Nat.ne_zero_of_lt hfuel)
    exact if_neg fun h => h.1 ha.end
  | cons c a ih =>
    by_cases hround : m p ≠ 0 ∧ m p = m q
    · obtain ⟨_, _, b', heq, _, ha', hb'⟩ := spells_of_round ha hb hround
      obtain ⟨rfl, rfl⟩ := List.cons.inj heq
      obtain ⟨v, hv⟩ := ih ha' hb'
      refine ⟨v, fun fuel hfuel => ?_⟩
      obtain ⟨fuel, rfl⟩ := Nat.exists_eq_succ_of_ne_zero (Nat.ne_zero_of_lt hfuel)
      unfold strcmp
      rw [if_pos hround]
      exact hv fuel (Nat.lt_of_succ_lt_succ hfuel)
    · refine ⟨(m p).toNat - (m q).toNat, fun fuel hfuel => ?_⟩
      obtain ⟨fuel, rfl⟩ := Nat.exists_eq_succ_of_ne_zero (Nat.ne_zero_of_lt hfuel)
      exact if_neg hround

lemma strncmp_orders (n : Nat) (ha : Spells m p a) (hb : Spells m q b) :
    Orders (strncmp m n p q) (a.take n) (b.take n) := by
  induction n generalizing p q a b with
  | zero => exact Orders.refl []
  | succ n ih =>
    unfold strncmp
    split
    · next hround =>
      obtain ⟨c, a, b, rfl, rfl, ha, hb⟩ := spells_of_round ha hb hround
      exact (ih ha hb).cons c
    · next hexit => exact Orders.of_exit n ha hb hexit

/-- In strings that are long enough there is no terminator to stop at. -/
lemma memcmp_eq {n : Nat} (ha : Spells m p a) (hb : Spells m q b) (hna : n ≤ a.length)
    (hnb : n ≤ b.length) : memcmp m n p q = strncmp m n p q := by
  induction n generalizing p q a b with
  | zero => rfl
  | succ n ih =>
    obtain ⟨c, a, rfl⟩ := List.exists_cons_of_length_pos (Nat.zero_lt_of_lt hna)
    obtain ⟨d, b, rfl⟩ := List.exists_cons_of_length_pos (Nat.zero_lt_of_lt hnb)
    obtain ⟨hc, hp, ha⟩ := ha
    obtain ⟨_, hq, hb⟩ := hb
    unfold memcmp strncmp
    rw [ih ha hb (Nat.le_of_succ_le_succ hna) (Nat.le_of_succ_le_succ hnb), hp, hq]
    by_cases heq : c = d
    · rw [if_neg (not_not.mpr heq), if_pos ⟨hc, heq⟩]
    · rw [if_pos heq, if_neg fun h => heq h.2]

end Loops

/-- For all strings in memory, `strcmp` returns a number with the sign of their lexicographic order;
so it is antisymmetric and transitive, and 0 only for equal strings. For every `n`, the sign of
`strncmp` is that of `strcmp` on the first `n` characters, wherever these stand, and that of
`memcmp` if both strings have so many. -/
theorem string_order (m : Mem) (n : Nat) {p q r : Nat} {a b c : List UInt8} (ha : Spells m p a)
    (hb : Spells m q b) (hc : Spells m r c) :
    (∃ v, ∀ fuel, a.length < fuel → strcmp m fuel p q = some v) ∧
    (∀ v, StrcmpReturns m p q v → Orders v a b) ∧
    (∀ v w, StrcmpReturns m p q v → StrcmpReturns m q p w → w.sign = -v.sign) ∧
    (∀ v w x, StrcmpReturns m p q v → StrcmpReturns m q r w → StrcmpReturns m p r x →
      v ≤ 0 → w ≤ 0 → x ≤ 0) ∧
    Orders (strncmp m n p q) (a.take n) (b.take n) ∧
    (∀ m' p' q' v, Spells m' p' (a.take n) → Spells m' q' (b.take n) → StrcmpReturns m' p' q' v →
      (strncmp m n p q).sign = v.sign) ∧
    (n ≤ a.length → n ≤ b.length → (memcmp m n p q).sign = (strncmp m n p q).sign) := by
  have hab : ∀ v, StrcmpReturns m p q v → Orders v a b := fun v ⟨_, hv⟩ => strcmp_orders ha hb hv
  have hn := strncmp_orders n ha hb
  refine ⟨strcmp_some ha hb, hab, ?_, ?_, hn, ?_, ?_⟩
  · rintro v w hv ⟨_, hw⟩
    rw [← Int.sign_neg]
    exact (strcmp_orders hb ha hw).sign_eq (hab v hv).symm
  · rintro v w x hv ⟨_, hw⟩ ⟨_, hx⟩ hv0 hw0
    rw [(strcmp_orders ha hc hx).le_iff]
    exact ((hab v hv).le_iff.mp hv0).trans ((strcmp_orders hb hc hw).le_iff.mp hw0)
  · rintro m' p' q' v ha' hb' ⟨_, hv⟩
    exact hn.sign_eq (strcmp_orders ha' hb' hv)
  · intro hna hnb
    rw [memcmp_eq ha hb hna hnb]

/-- `"ab"`, `"abc"` and `"b"`, one behind the other. -/
def prefixes : Mem := paste [97, 98, 0, 97, 98, 99, 0, 98, 0] fun _ => 0

theorem string_order_prefix :
    (∀ v, StrcmpReturns prefixes 0 3 v → Orders v [97, 98] [97, 98, 99]) ∧
      (memcmp prefixes 2 0 3).sign = (strncmp prefixes 2 0 3).sign := by
  obtain ⟨_, horder, _, _, _, _, hmemcmp⟩ := string_order prefixes 2 (p := 0) (q := 3) (r := 7)
    (a := [97, 98]) (b := [97, 98, 99]) (c := [98]) (by decide) (by decide) (by decide)
  exact ⟨horder, hmemcmp (by decide) (by decide)⟩

end Hydra.LibC
