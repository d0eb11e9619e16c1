import Hydra.LibC.String

/-!
# Copying strings

The functions of `lib/libc/string.c` that copy and search: `strlen`, `strcpy`, `strncpy`, `strcat`,
`strchr`, `memcpy` and `memset`. They work on one memory, so source and destination may overlap. All
of them copy upwards, one byte at a time, and `ByteMem.origin` says which byte a copied one was
before.

If the destination of `strcpy` lies inside the source, the terminator is overwritten before it is
read, and what is repeated instead has none; so `strcpy` returns exactly if the destination does not
lie there (`strcpy_returns`). Then `strcat` never returns on a string and the string itself
(`strcat_returns`). `memcpy` does return, and works like a copy through a buffer exactly if the
source has the period of the distance (`memcpy_overlap`).
-/

namespace Hydra.LibC
open ByteMem

/-! ## The code -/

/-- C `strlen`; nothing if the terminator is not among the next `fuel` characters. -/
def strlen (m : Mem) (str : Nat) : Nat → Nat → Option Nat
  | 0, _ => none
  | fuel + 1, len => if m (str + len) ≠ 0 then strlen m str fuel (len + 1) else some len

/-- C `strcpy`: the memory afterwards; nothing if it is still copying after `fuel` characters. -/
def strcpy (m : Mem) : Nat → Nat → Nat → Option Mem
  | 0, _, _ => none
  | fuel + 1, dest, src =>
    let c := m src
    let m := Function.update m dest c
    if c ≠ 0 then strcpy m fuel (dest + 1) (src + 1) else some m

/-- The first loop of `strncpy`, `n` characters at most: the index it stops at and the memory. -/
def strncpyCopy (dest src : Nat) : Nat → Nat → Mem → Nat × Mem
  | 0, i, m => (i, m)
  | n + 1, i, m =>
    if m (src + i) ≠ 0 then
      strncpyCopy dest src n (i + 1) (Function.update m (dest + i) (m (src + i)))
    else (i, m)

/-- `for (; i < n; i++) dest[i] = c;`, where `n` counts the rounds. -/
def fillBytes (dest : Nat) (c : UInt8) : Nat → Nat → Mem → Mem
  | 0, _, m => m
  | n + 1, i, m => fillBytes dest c n (i + 1) (Function.update m (dest + i) c)

/-- C `strncpy`: the memory afterwards. -/
def strncpy (m : Mem) (dest src n : Nat) : Mem :=
  let (i, m) := strncpyCopy dest src n 0 m
  fillBytes dest 0 (n - i) i m

/-- The first loop of `strcat`. -/
def stringEnd (m : Mem) : Nat → Nat → Option Nat
  | 0, _ => none
  | fuel + 1, dest => if m dest ≠ 0 then stringEnd m fuel (dest + 1) else some dest

/-- C `strcat`: the memory afterwards. -/
def strcat (m : Mem) (fuel dest src : Nat) : Option Mem :=
  (stringEnd m fuel dest).bind fun dest => strcpy m fuel dest src

/-- C `strchr`; a `char` is unsigned, and is compared as an `int`. -/
def strchr (m : Mem) (c : Int) : Nat → Nat → Option Nat
  | 0, _ => none
  | fuel + 1, str =>
    if m str ≠ 0 then
      if ((m str).toNat : Int) = c then some str else strchr m c fuel (str + 1)
    else if c = 0 then some str
    else some 0

/-- C `memcpy`: the memory afterwards. -/
def memcpy (m : Mem) (dest src n : Nat) : Mem := move src dest n m

/-- C `memset`: the memory afterwards. -/
def memset (m : Mem) (ptr : Nat) (value : Int) (n : Nat) : Mem :=
  fillBytes ptr (UInt8.ofNat (value % 256).toNat) n 0 m

/-- `strcpy` returns, and leaves the memory `m'`. -/
def StrcpyReturns (m : Mem) (dest src : Nat) (m' : Mem) : Prop :=
  ∃ fuel, strcpy m fuel dest src = some m'

/-- `strcat` returns, and leaves the memory `m'`. -/
def StrcatReturns (m : Mem) (dest src : Nat) (m' : Mem) : Prop :=
  ∃ fuel, strcat m fuel dest src = some m'

/-! ## Searching -/

section Search

variable {m : Mem} {p : Nat} {text : List UInt8}

lemma strlen_spells (h : Spells m p text) {len : Nat} (hlen : len ≤ text.length) {fuel : Nat}
    (hfuel : text.length < len + fuel) : strlen m p fuel len = some text.length := by
  induction fuel generalizing len with
  | zero => omega
  | succ fuel ih =>
    unfold strlen
    rcases hlen.eq_or_lt with rfl | hlt
    · rw [if_neg (not_not_intro h.terminated)]
    · obtain ⟨e, hne⟩ := h.getElem hlt
      rw [if_pos (e ▸ hne)]
      exact ih hlt (by omega)

lemma stringEnd_spells (h : Spells m p text) {fuel : Nat} (hfuel : text.length < fuel) :
    stringEnd m fuel p = some (p + text.length) := by
  induction text generalizing p fuel with
  | nil =>
    obtain ⟨fuel, rfl⟩ := Nat.exists_eq_succ_of_ne_zero (Nat.ne_zero_of_lt hfuel)
    exact if_neg (not_not_intro h.end)
  | cons c text ih =>
    obtain ⟨fuel, rfl⟩ := Nat.exists_eq_succ_of_ne_zero (Nat.ne_zero_of_lt hfuel)
    obtain ⟨hc, hp, htext⟩ := h
    unfold stringEnd
    rw [if_pos (hp ▸ hc), ih htext (Nat.lt_of_succ_lt_succ hfuel), List.length_cons]
    congr 1
    omega

lemma stringEnd_eq (h : Spells m p text) {fuel e : Nat} (he : stringEnd m fuel p = some e) :
    e = p + text.length := by
  induction fuel generalizing p text with
  | zero => cases he
  | succ fuel ih =>
    unfold stringEnd at he
    cases text with
    | nil =>
      rw [if_neg (not_not_intro h.end)] at he
      exact (Option.some.inj he).symm
    | cons c text =>
      obtain ⟨hc, hp, htext⟩ := h
      rw [if_pos (hp ▸ hc)] at he
      rw [ih htext he, List.length_cons]
      omega

/-- `strchr` finds the first occurrence, or the terminator for 0; no other number is ever found. -/
lemma strchr_spells (h : Spells m p text) (c : Int) {fuel : Nat} (hfuel : text.length < fuel) :
    strchr m c fuel p = some
      (if c = 0 then p + text.length
        else match text.findIdx? fun d => (d.toNat : Int) = c with
          | some i => p + i
          | none => 0) := by
  induction text generalizing p fuel with
  | nil =>
    obtain ⟨fuel, rfl⟩ := Nat.exists_eq_succ_of_ne_zero (Nat.ne_zero_of_lt hfuel)
    unfold strchr
    rw [if_neg (not_not_intro h.end)]
    split <;> rfl
  | cons d text ih =>
    obtain ⟨fuel, rfl⟩ := Nat.exists_eq_succ_of_ne_zero (Nat.ne_zero_of_lt hfuel)
    obtain ⟨hd, hp, htext⟩ := h
    have hd0 : (d.toNat : Int) ≠ 0 := fun h0 => hd (UInt8.toNat_inj.mp (by exact_mod_cast h0))
    unfold strchr
    rw [if_pos (hp ▸ hd), hp, ih htext (Nat.lt_of_succ_lt_succ hfuel)]
    by_cases heq : (d.toNat : Int) = c
    · subst heq
      rw [if_pos rfl, if_neg hd0, List.findIdx?_cons, if_pos (by simp)]
      rfl
    · rw [if_neg heq]
      congr 1
      split
      · rw [List.length_cons]
        omega
      · rw [List.findIdx?_cons, if_neg (by simpa using heq)]
        cases text.findIdx? fun d => (d.toNat : Int) = c with
        | none => rfl
        | some i =>
          simp only [Option.map_some]
          omega

end Search

/-! ## Copying -/

section Copy

variable {m : Mem} {dest src : Nat} {text : List UInt8}

/-- A round of `strcpy`. -/
lemma strcpy_round (m : Mem) (dest src i fuel : Nat) :
    strcpy (move src dest i m) (fuel + 1) (dest + i) (src + i) =
      if m (origin src dest i) ≠ 0 then
        strcpy (move src dest (i + 1) m) fuel (dest + (i + 1)) (src + (i + 1))
      else some (move src dest (i + 1) m) := by
  rw [← move_next src dest i m]
  rfl

/-- More rounds than are needed change nothing. -/
lemma strcpy_mono {m' : Mem} {fuel : Nat} (h : strcpy m fuel dest src = some m') {fuel' : Nat}
    (hle : fuel ≤ fuel') : strcpy m fuel' dest src = some m' := by
  induction fuel generalizing m dest src fuel' with
  | zero => cases h
  | succ fuel ih =>
    obtain ⟨fuel', rfl⟩ : ∃ k, fuel' = k + 1 := ⟨fuel' - 1, by omega⟩
    unfold strcpy at h ⊢
    simp only at h ⊢
    split at h
    · next hne =>
      rw [if_pos hne]
      exact ih h (Nat.le_of_succ_le_succ hle)
    · next heq =>
      rw [if_neg heq]
      exact h

/-- `strcpy` returns when it has copied a terminator. -/
lemma strcpy_some {n i fuel : Nat} (hne : ∀ j, i ≤ j → j < n → m (origin src dest j) ≠ 0)
    (hnul : m (origin src dest n) = 0) (hi : i ≤ n) (hfuel : n < i + fuel) :
    strcpy (move src dest i m) fuel (dest + i) (src + i) = some (move src dest (n + 1) m) := by
  induction fuel generalizing i with
  | zero => omega
  | succ fuel ih =>
    rw [strcpy_round]
    rcases hi.eq_or_lt with rfl | hlt
    · rw [if_neg (not_not_intro hnul)]
    · rw [if_pos (hne i le_rfl hlt)]
      exact ih (fun j hj => hne j (Nat.le_of_succ_le hj)) hlt (by omega)

/-- Without a terminator it never does. -/
lemma strcpy_none (h : ∀ j, m (origin src dest j) ≠ 0) (fuel i : Nat) :
    strcpy (move src dest i m) fuel (dest + i) (src + i) = none := by
  induction fuel generalizing i with
  | zero => rfl
  | succ fuel ih =>
    rw [strcpy_round, if_pos (h i)]
    exact ih (i + 1)

/-- If the destination does not lie inside the source, the source is copied with its terminator. -/
lemma strcpy_apart (h : Spells m src text) (hd : dest ≤ src ∨ src + text.length < dest) {fuel : Nat}
    (hfuel : text.length < fuel) :
    strcpy m fuel dest src = some (move src dest (text.length + 1) m) := by
  have horigin : ∀ j ≤ text.length, origin src dest j = src + j :=
    fun j hj => origin_of_apart (by omega)
  refine strcpy_some (i := 0) (fun j _ hj => ?_) ?_ (Nat.zero_le _) (by omega)
  · obtain ⟨e, hne⟩ := h.getElem hj
    rw [horigin j hj.le, e]
    exact hne
  · rw [horigin _ le_rfl, h.terminated]

/-- Otherwise the beginning of the source is repeated for ever. -/
lemma strcpy_inside (h : Spells m src text) (hlt : src < dest) (hle : dest ≤ src + text.length)
    (fuel : Nat) : strcpy m fuel dest src = none := by
  refine strcpy_none (fun j => ?_) fuel 0
  have hmod : j % (dest - src) < dest - src := Nat.mod_lt _ (by omega)
  obtain ⟨e, hne⟩ := h.getElem (show j % (dest - src) < text.length by omega)
  unfold origin
  rw [if_neg (by omega), e]
  exact hne

/-- The copy is the string. -/
lemma spells_move (h : Spells m src text) (hd : dest ≤ src ∨ src + text.length < dest) :
    Spells (move src dest (text.length + 1) m) dest text := by
  have hread : ∀ i ≤ text.length, move src dest (text.length + 1) m (dest + i) = m (src + i) := by
    intro i hi
    rw [move_apply, if_pos (by omega), Nat.add_sub_cancel_left, origin_of_apart (by omega)]
  refine spells_of_getElem h.nul_notMem ?_ fun i hi => ?_
  · rw [hread _ le_rfl, h.terminated]
  · rw [hread i hi.le, (h.getElem hi).1]

/-- `strcpy` returns exactly if the destination does not begin inside the source. -/
lemma strcpyReturns_iff (h : Spells m src text) (dest : Nat) (m' : Mem) :
    StrcpyReturns m dest src m' ↔
      (dest ≤ src ∨ src + text.length < dest) ∧ m' = move src dest (text.length + 1) m := by
  constructor
  · rintro ⟨fuel, hm'⟩
    by_cases hd : dest ≤ src ∨ src + text.length < dest
    · have hcopy := strcpy_apart h hd (show text.length < max fuel (text.length + 1) by omega)
      have hsame := (strcpy_mono hm' (Nat.le_max_left _ _)).symm.trans hcopy
      exact ⟨hd, Option.some.inj hsame⟩
    · rw [strcpy_inside h (by omega) (by omega)] at hm'
      cases hm'
  · rintro ⟨hd, rfl⟩
    exact ⟨text.length + 1, strcpy_apart h hd (Nat.lt_succ_self _)⟩

/-- A string compares equal to its copy. -/
lemma strcmp_same {p q : Nat} (hp : Spells m p text) (hq : Spells m q text) :
    StrcmpReturns m p q 0 := by
  obtain ⟨v, hv⟩ := strcmp_some hp hq
  have hret := hv (text.length + 1) (Nat.lt_succ_self _)
  obtain rfl := (strcmp_orders hp hq hret).eq.mpr rfl
  exact ⟨_, hret⟩

end Copy

/-- `strcpy` returns if and only if the destination does not begin inside the source. It then has
copied the string and written to nothing else, so the copy compares equal to the string where they
do not overlap. -/
theorem strcpy_returns (m : Mem) {src : Nat} {text : List UInt8} (h : Spells m src text)
    (dest : Nat) :
    ((∃ m', StrcpyReturns m dest src m') ↔ dest ≤ src ∨ src + text.length < dest) ∧
    ∀ m', StrcpyReturns m dest src m' → Spells m' dest text ∧
      AgreeOff dest (dest + text.length + 1) m m' ∧
      (src + text.length < dest ∨ dest + text.length < src → StrcmpReturns m' dest src 0) := by
  simp only [strcpyReturns_iff h]
  refine ⟨⟨fun ⟨_, hd, _⟩ => hd, fun hd => ⟨_, hd, rfl⟩⟩, ?_⟩
  rintro m' ⟨hd, rfl⟩
  have hframe := move_frame src dest (text.length + 1) m
  refine ⟨spells_move h hd, hframe, fun hapart => ?_⟩
  exact strcmp_same (spells_move h hd) (h.congr fun i hi => hframe _ (by omega))

/-- `"ab"` is copied to a place behind it, but not to its own second character. -/
theorem strcpy_returns_ab :
    (∃ m', StrcpyReturns prefixes 16 0 m') ∧ ¬∃ m', StrcpyReturns prefixes 1 0 m' := by
  have h : Spells prefixes 0 [97, 98] := by decide +kernel
  rw [(strcpy_returns prefixes h 16).1, (strcpy_returns prefixes h 1).1]
  decide

section Append

variable {m : Mem} {dest src : Nat} {a b : List UInt8}

lemma strcat_returns_iff (ha : Spells m dest a) (src : Nat) (m' : Mem) :
    StrcatReturns m dest src m' ↔ StrcpyReturns m (dest + a.length) src m' := by
  constructor
  · rintro ⟨fuel, h⟩
    obtain ⟨e, he, hcopy⟩ := Option.bind_eq_some_iff.mp h
    rw [stringEnd_eq ha he] at hcopy
    exact ⟨fuel, hcopy⟩
  · rintro ⟨fuel, hcopy⟩
    refine ⟨max fuel (a.length + 1), ?_⟩
    unfold strcat
    rw [stringEnd_spells ha (by omega)]
    exact strcpy_mono hcopy (Nat.le_max_left _ _)

end Append

/-- `strcat` returns if and only if the second string does not reach from in front of the end of the
first one up to it; in particular it never returns when a string is appended to itself. It then has
appended the second string, and written to nothing else. -/
theorem strcat_returns (m : Mem) {dest src : Nat} {a b : List UInt8} (ha : Spells m dest a)
    (hb : Spells m src b) :
    ((∃ m', StrcatReturns m dest src m') ↔
      dest + a.length ≤ src ∨ src + b.length < dest + a.length) ∧
    (src = dest → b ≠ [] → ¬∃ m', StrcatReturns m dest src m') ∧
    ∀ m', StrcatReturns m dest src m' → Spells m' dest (a ++ b) ∧
      AgreeOff (dest + a.length) (dest + a.length + b.length + 1) m m' ∧
      ∃ fuel, strlen m' dest fuel 0 = some (a.length + b.length) := by
  simp only [strcat_returns_iff ha, strcpyReturns_iff hb]
  refine ⟨⟨fun ⟨_, hd, _⟩ => hd, fun hd => ⟨_, hd, rfl⟩⟩, ?_, ?_⟩
  · rintro rfl hne ⟨_, hd, _⟩
    have hlen := strlen_spells ha (Nat.zero_le _)
      (show a.length < 0 + (a.length + b.length + 1) by omega)
    rw [strlen_spells hb (Nat.zero_le _) (by omega), Option.some.injEq] at hlen
    have hpos := List.length_pos_of_ne_nil hne
    omega
  · rintro m' ⟨hd, rfl⟩
    have hframe := move_frame src (dest + a.length) (b.length + 1) m
    have hall : Spells (move src (dest + a.length) (b.length + 1) m) dest (a ++ b) := by
      refine spells_append (fun i hi => ?_) ha.nul_notMem (spells_move hb hd)
      rw [hframe _ (by omega), (ha.getElem hi).1]
    refine ⟨hall, hframe, (a ++ b).length + 1, ?_⟩
    rw [strlen_spells hall (Nat.zero_le _) (by omega), List.length_append]

/-- `"ab"` is appended to `"b"`, but not to itself. -/
theorem strcat_returns_ab :
    (∃ m', StrcatReturns prefixes 7 0 m') ∧ ¬∃ m', StrcatReturns prefixes 0 0 m' := by
  have hab : Spells prefixes 0 [97, 98] := by decide +kernel
  have hb : Spells prefixes 7 [98] := by decide +kernel
  refine ⟨(strcat_returns prefixes hb hab).1.mpr (by decide), ?_⟩
  exact (strcat_returns prefixes hab hab).2.1 rfl (List.cons_ne_nil _ _)

/-! ## Buffers of a given size -/

section Sized

lemma fillBytes_apply (dest : Nat) (c : UInt8) (n i : Nat) (m : Mem) (x : Nat) :
    fillBytes dest c n i m x = if dest + i ≤ x ∧ x < dest + i + n then c else m x := by
  induction n generalizing i m with
  | zero => rw [if_neg (by omega), fillBytes]
  | succ n ih =>
    unfold fillBytes
    rw [ih]
    rcases eq_or_ne x (dest + i) with rfl | hne
    · rw [if_neg (by omega), if_pos (by omega), Function.update_self]
    · rw [Function.update_of_ne hne]
      exact if_congr (by omega) rfl rfl

variable {m : Mem} {dest src : Nat} {text : List UInt8}

/-- `strncmp` does not look behind a terminator. -/
lemma strncmp_same {n p q : Nat}
    (h : ∀ i < n, (∀ j < i, m (p + j) ≠ 0) → m (p + i) = m (q + i)) : strncmp m n p q = 0 := by
  induction n generalizing p q with
  | zero => rfl
  | succ n ih =>
    have hhead : m p = m q := h 0 (Nat.zero_lt_succ n) fun j hj => absurd hj (Nat.not_lt_zero j)
    unfold strncmp
    by_cases hne : m p ≠ 0
    · rw [if_pos ⟨hne, hhead⟩]
      refine ih fun i hi hbefore => ?_
      have hnext := h (i + 1) (Nat.succ_lt_succ hi) fun j hj => ?_
      · rwa [Nat.add_assoc, Nat.add_assoc, Nat.add_comm 1]
      · cases j with
        | zero => exact hne
        | succ j =>
          have hj' := hbefore j (Nat.lt_of_succ_lt_succ hj)
          rwa [Nat.add_assoc, Nat.add_comm 1] at hj'
    · rw [if_neg fun hround => hne hround.1, hhead, sub_self]

/-- The first loop copies until the terminator or `n` characters. -/
lemma strncpyCopy_eq {n i k : Nat} (hne : ∀ j, i ≤ j → j < k → m (origin src dest j) ≠ 0)
    (hstop : k = i + n ∨ m (origin src dest k) = 0) (hi : i ≤ k) (hk : k ≤ i + n) :
    strncpyCopy dest src n i (move src dest i m) = (k, move src dest k m) := by
  induction n generalizing i with
  | zero =>
    obtain rfl : k = i := by omega
    rfl
  | succ n ih =>
    unfold strncpyCopy
    rw [move_next src dest i m]
    rcases hi.eq_or_lt with rfl | hlt
    · rw [if_neg (not_not_intro (hstop.resolve_left (by omega)))]
    · rw [if_pos (hne i le_rfl hlt), ← move_next src dest i m]
      exact ih (fun j hj => hne j (Nat.le_of_succ_le hj)) (hstop.imp_left fun _ => by omega) hlt
        (by omega)

lemma strncpy_eq (h : Spells m src text) {n : Nat}
    (hd : dest ≤ src ∨ src + min n (text.length + 1) ≤ dest) :
    strncpy m dest src n = fillBytes dest 0 (n - min n text.length) (min n text.length)
      (move src dest (min n text.length) m) := by
  have hcopy : strncpyCopy dest src n 0 (move src dest 0 m) =
      (min n text.length, move src dest (min n text.length) m) := by
    apply strncpyCopy_eq
    · intro j _ hj
      obtain ⟨e, hne⟩ := h.getElem (show j < text.length by omega)
      rw [origin_of_apart (by omega), e]
      exact hne
    · rcases Nat.lt_or_ge text.length n with hlt | hge
      · right
        rw [Nat.min_eq_right hlt.le, origin_of_apart (by omega), h.terminated]
      · exact .inl (by omega)
    · exact Nat.zero_le _
    · omega
  unfold strncpy
  rw [show m = move src dest 0 m from rfl, hcopy]
  rfl

/-- What the buffer holds afterwards. -/
lemma strncpy_apply (h : Spells m src text) {n : Nat}
    (hd : dest ≤ src ∨ src + min n (text.length + 1) ≤ dest) (x : Nat) :
    strncpy m dest src n x =
      if dest ≤ x ∧ x < dest + n then text.getD (x - dest) 0 else m x := by
  rw [strncpy_eq h hd, fillBytes_apply, move_apply]
  by_cases hin : dest ≤ x ∧ x < dest + n
  · rw [if_pos hin]
    by_cases hlt : x - dest < text.length
    · rw [if_neg (by omega), if_pos (by omega), origin_of_apart (by omega), (h.getElem hlt).1,
        List.getD_eq_getElem _ _ hlt]
    · rw [if_pos (by omega), List.getD_eq_default _ _ (not_lt.mp hlt)]
  · rw [if_neg hin, if_neg (by omega), if_neg (by omega)]

end Sized

/-- A sequence with a period is determined by its first period. -/
lemma periodic_mod {d n i : Nat} (hd : 0 < d) {f : Nat → UInt8}
    (h : ∀ i, i + d < n → f (i + d) = f i) (hi : i < n) : f (i % d) = f i := by
  induction i using Nat.strong_induction_on with
  | _ i ih =>
    rcases Nat.lt_or_ge i d with hlt | hge
    · rw [Nat.mod_eq_of_lt hlt]
    · have hprev := h (i - d) (by omega)
      rw [Nat.sub_add_cancel hge] at hprev
      rw [Nat.mod_eq_sub_mod hge, ih (i - d) (by omega) (by omega), hprev]

/-- `strncpy` writes the `n` bytes of the buffer and no others: the first `n` characters of the
string, then zeros. So the buffer holds the string if that is shorter than the buffer, and
otherwise the buffer has no terminator; in both cases its first `n` characters compare equal to the
string's. -/
theorem strncpy_pads (m : Mem) {dest src : Nat} {text : List UInt8} (h : Spells m src text)
    (n : Nat) (hd : dest ≤ src ∨ src + min n (text.length + 1) ≤ dest) :
    bytes (shift (strncpy m dest src n) dest) n =
      text.take n ++ List.replicate (n - text.length) 0 ∧
    AgreeOff dest (dest + n) m (strncpy m dest src n) ∧
    (text.length < n → Spells (strncpy m dest src n) dest text) ∧
    (n ≤ text.length → ∀ i < n, strncpy m dest src n (dest + i) ≠ 0) ∧
    (dest + n ≤ src ∨ src + text.length < dest →
      strncmp (strncpy m dest src n) n dest src = 0) := by
  have hread : ∀ i < n, strncpy m dest src n (dest + i) = text.getD i 0 := by
    intro i hi
    rw [strncpy_apply h hd, if_pos (by omega), Nat.add_sub_cancel_left]
  have hframe : AgreeOff dest (dest + n) m (strncpy m dest src n) := by
    intro x hx
    rw [strncpy_apply h hd, if_neg (by omega)]
  refine ⟨?_, hframe, fun hlt => ?_, fun hle i hi => ?_, fun hapart => ?_⟩
  · refine List.ext_getElem (by simp; omega) fun i hi _ => ?_
    rw [length_bytes] at hi
    rw [bytes_getElem, shift, hread i hi, List.getElem_append]
    split
    · next hlt =>
      have htext : i < text.length := by
        rw [List.length_take] at hlt
        omega
      rw [List.getElem_take, List.getD_eq_getElem _ _ htext]
    · next hge =>
      rw [List.getElem_replicate, List.getD_eq_default]
      rw [List.length_take] at hge
      omega
  · refine spells_of_getElem h.nul_notMem ?_ fun i hi => ?_
    · rw [hread _ hlt, List.getD_eq_default _ _ le_rfl]
    · rw [hread i (by omega), List.getD_eq_getElem _ _ hi]
  · rw [hread i hi, List.getD_eq_getElem _ _ (by omega)]
    exact (h.getElem (by omega)).2
  · refine strncmp_same fun i hi hbefore => ?_
    -- before the terminator of the copy there is none in the string either
    have hle : i ≤ text.length := by
      by_contra hgt
      refine hbefore text.length (by omega) ?_
      rw [hread _ (by omega), List.getD_eq_default _ _ le_rfl]
    rw [hread i hi, hframe _ (by omega)]
    rcases hle.eq_or_lt with rfl | hlt
    · rw [List.getD_eq_default _ _ le_rfl, h.terminated]
    · rw [List.getD_eq_getElem _ _ hlt, (h.getElem hlt).1]

/-- `"ab"` in a buffer of four characters behind it, and in one of two. -/
theorem strncpy_pads_ab :
    bytes (shift (strncpy prefixes 16 0 4) 16) 4 = [97, 98, 0, 0] ∧
      bytes (shift (strncpy prefixes 16 0 2) 16) 2 = [97, 98] ∧
      strncmp (strncpy prefixes 16 0 2) 2 16 0 = 0 := by
  have h : Spells prefixes 0 [97, 98] := by decide +kernel
  obtain ⟨hlong, _⟩ := @strncpy_pads prefixes 16 0 _ h 4 (by decide)
  obtain ⟨hshort, _, _, _, heq⟩ := @strncpy_pads prefixes 16 0 _ h 2 (by decide)
  exact ⟨hlong, hshort, heq (by decide)⟩

/-- `memcpy` writes to its `n` bytes only. It works like a copy through a buffer if and only if the
destination does not begin behind the source, or the source already has the distance of the two as a
period; in any case the bytes between the two beginnings are repeated. -/
theorem memcpy_overlap (m : Mem) (dest src n : Nat) :
    AgreeOff dest (dest + n) m (memcpy m dest src n) ∧
    ((∀ i < n, memcpy m dest src n (dest + i) = m (src + i)) ↔
      dest ≤ src ∨ ∀ i, i + (dest - src) < n → m (src + (i + (dest - src))) = m (src + i)) ∧
    (src < dest → ∀ i < n, memcpy m dest src n (dest + i) = m (src + i % (dest - src))) := by
  have hread : ∀ i < n, memcpy m dest src n (dest + i) = m (origin src dest i) := by
    intro i hi
    unfold memcpy
    rw [move_apply, if_pos (by omega), Nat.add_sub_cancel_left]
  refine ⟨move_frame src dest n m, ⟨fun hcopy => ?_, ?_⟩, fun hlt i hi => ?_⟩
  · by_contra hno
    obtain ⟨hlt, hperiod⟩ := not_or.mp hno
    rw [not_le] at hlt
    refine hperiod fun i hi => ?_
    -- both bytes were copied from the same place
    have hthere := hread (i + (dest - src)) hi
    have hhere := hread i (by omega)
    rw [hcopy _ hi, origin, if_neg (by omega), Nat.add_mod_right] at hthere
    rw [hcopy i (by omega), origin, if_neg (by omega)] at hhere
    rw [hthere, hhere]
  · rintro (hle | hperiod) i hi
    · rw [hread i hi, origin_of_apart (.inl hle)]
    · rw [hread i hi]
      unfold origin
      split
      · rfl
      · next hlt => exact periodic_mod (f := fun i => m (src + i)) (by omega) hperiod hi
  · rw [hread i hi, origin, if_neg (by omega)]

/-- `memset` writes the low byte of its value. -/
lemma memset_apply (m : Mem) (ptr : Nat) (value : Int) (n x : Nat) :
    memset m ptr value n x =
      if ptr ≤ x ∧ x < ptr + n then UInt8.ofNat (value % 256).toNat else m x :=
  fillBytes_apply ptr _ n 0 m x

end Hydra.LibC
