import Mathlib

/-!
# Byte memory

A total byte-addressed memory, with little-endian loads and stores of any width, the copy loop of
byte buffers, and the two laws every proof about C structs in memory needs: a load returns what
was stored at the same place (`load_store_same`), and a store leaves every byte outside its range
alone (`store_frame`), hence every load from a disjoint range (`load_store_disjoint`).

Two memories are compared on ranges by `AgreeOff`: they agree at every address outside `[lo, hi)`.
A sequence of stores inside one range composes with `AgreeOff.trans`.

Where source and destination lie in one memory and may overlap, a byte that the loop reads may be one
that it has written; `origin` says where the byte came from in the first place (`move_apply`).
-/

namespace ByteMem

/-- A memory holds one byte at every address. -/
abbrev Mem := Nat → UInt8

/-- The little-endian number in the `n` bytes from address `a` on. -/
def load (m : Mem) : Nat → Nat → Nat
  | _, 0 => 0
  | a, n + 1 => (m a).toNat + 256 * load m (a + 1) n

/-- Write the low `n` bytes of `v` at address `a`, least significant byte first. -/
def store (m : Mem) : Nat → Nat → Nat → Mem
  | _, 0, _ => m
  | a, n + 1, v => Function.update (store m (a + 1) n (v / 256)) a (UInt8.ofNat v)

/-- The signed reading of a 32-bit word. -/
def toInt32 (v : Nat) : Int := if v < 2 ^ 31 then v else (v : Int) - 2 ^ 32

/-- The 32-bit word of an integer. -/
def ofInt32 (i : Int) : Nat := (i % 2 ^ 32).toNat

/-- `for (i = 0; i < n; i++) dst[i] = src[i];` -/
def copy (src : Mem) : Nat → Mem → Mem
  | 0, dst => dst
  | n + 1, dst => Function.update (copy src n dst) n (src n)

/-- `for (i = 0; i < n; i++) dst[k + i] = src[i];` -/
def copyAt (src : Mem) (k : Nat) : Nat → Mem → Mem
  | 0, dst => dst
  | n + 1, dst => Function.update (copyAt src k n dst) (k + n) (src n)

/-- The first `n` bytes of a buffer. -/
def bytes (m : Mem) (n : Nat) : List UInt8 := (List.range n).map m

/-- Put the bytes `l` at the beginning of a buffer. -/
def paste (l : List UInt8) (dst : Mem) : Mem := fun i => l.getD i (dst i)

/-- Write the bytes `l` from address `a` on. -/
def storeBytes (a : Nat) (l : List UInt8) (m : Mem) : Mem :=
  fun x => if a ≤ x then l.getD (x - a) (m x) else m x

/-- The buffer seen from offset `k` on, as pointer arithmetic `m + k` gives it. -/
def shift (m : Mem) (k : Nat) : Mem := fun i => m (k + i)

/-- The function writes the first `n` bytes of its buffer, whatever they were, and no others. -/
def Writes (f : Mem → Mem) (n : Nat) : Prop := ∃ src, ∀ buffer, f buffer = copy src n buffer

/-- The two memories agree at every address outside `[lo, hi)`. -/
def AgreeOff (lo hi : Nat) (m m' : Mem) : Prop := ∀ x, x < lo ∨ hi ≤ x → m' x = m x

/-! ## Loads and stores -/

lemma load_lt (m : Mem) (a n : Nat) : load m a n < 256 ^ n := by
  induction n generalizing a with
  | zero => simp [load]
  | succ n ih =>
    have hb := (m a).toNat_lt
    have ht := ih (a + 1)
    simp only [load, pow_succ]
    omega

lemma load_congr {m m' : Mem} {a n : Nat} (h : ∀ x, a ≤ x → x < a + n → m' x = m x) :
    load m' a n = load m a n := by
  induction n generalizing a with
  | zero => rfl
  | succ n ih =>
    have hhead := h a (by omega) (by omega)
    have htail : load m' (a + 1) n = load m (a + 1) n :=
      ih fun x h1 h2 => h x (by omega) (by omega)
    simp only [load, hhead, htail]

lemma load_shift (m : Mem) (k a n : Nat) : load (shift m k) a n = load m (k + a) n := by
  induction n generalizing a with
  | zero => rfl
  | succ n ih =>
    simp only [load, ih]
    rfl

lemma store_frame (m : Mem) (a n v : Nat) : AgreeOff a (a + n) m (store m a n v) := by
  induction n generalizing a v with
  | zero => exact fun _ _ => rfl
  | succ n ih =>
    intro x hx
    have hne : x ≠ a := by omega
    simp only [store, Function.update_of_ne hne]
    exact ih (a + 1) (v / 256) x (by omega)

/-- What was stored is loaded, reduced to the width of the access. -/
lemma load_store_same (m : Mem) (a n v : Nat) : load (store m a n v) a n = v % 256 ^ n := by
  induction n generalizing a v with
  | zero => simp [load, Nat.mod_one]
  | succ n ih =>
    have htail : load (store m a (n + 1) v) (a + 1) n = load (store m (a + 1) n (v / 256)) (a + 1) n :=
      load_congr fun x h1 _ => by
        have hne : x ≠ a := by omega
        simp only [store, Function.update_of_ne hne]
    have hhead : (store m a (n + 1) v a).toNat = v % 256 := by
      simp [store]
    rw [load, htail, ih, hhead, pow_succ', Nat.mod_mul]

lemma load_store_disjoint (m : Mem) {a n b k : Nat} (v : Nat) (h : a + n ≤ b ∨ b + k ≤ a) :
    load (store m a n v) b k = load m b k :=
  load_congr fun x h1 h2 => store_frame m a n v x (by omega)

lemma load_add (m : Mem) (a n k : Nat) :
    load m a (n + k) = load m a n + 256 ^ n * load m (a + n) k := by
  induction n generalizing a with
  | zero => simp [load]
  | succ n ih =>
    have hlen : n + 1 + k = n + k + 1 := by omega
    have haddr : a + (n + 1) = a + 1 + n := by omega
    rw [hlen, haddr]
    simp only [load, ih, pow_succ']
    ring

/-- The bytes of a number in memory. -/
lemma byte_eq (m : Mem) {a n i : Nat} (hi : i < n) : (m (a + i)).toNat = load m a n / 256 ^ i % 256 := by
  obtain ⟨k, rfl⟩ : ∃ k, n = i + (k + 1) := ⟨n - i - 1, by omega⟩
  have hlow := load_lt m a i
  have hbyte := (m (a + i)).toNat_lt
  rw [load_add, Nat.add_mul_div_left _ _ (by positivity), Nat.div_eq_of_lt hlow, Nat.zero_add, load,
    Nat.add_mul_mod_self_left, Nat.mod_eq_of_lt hbyte]

/-! ## Agreement off a range -/

namespace AgreeOff

lemma refl (lo hi : Nat) (m : Mem) : AgreeOff lo hi m m := fun _ _ => rfl

lemma trans {lo hi m₁ m₂ m₃} (h₁ : AgreeOff lo hi m₁ m₂) (h₂ : AgreeOff lo hi m₂ m₃) :
    AgreeOff lo hi m₁ m₃ :=
  fun x hx => (h₂ x hx).trans (h₁ x hx)

lemma mono {lo hi lo' hi' m m'} (h : AgreeOff lo hi m m') (hlo : lo' ≤ lo) (hhi : hi ≤ hi') :
    AgreeOff lo' hi' m m' :=
  fun x hx => h x (by omega)

lemma store {lo hi m m'} (h : AgreeOff lo hi m m') {a n : Nat} (v : Nat)
    (hlo : lo ≤ a) (hhi : a + n ≤ hi) : AgreeOff lo hi m (ByteMem.store m' a n v) :=
  h.trans ((store_frame m' a n v).mono hlo hhi)

lemma load {lo hi m m'} (h : AgreeOff lo hi m m') {a n : Nat} (hd : a + n ≤ lo ∨ hi ≤ a) :
    ByteMem.load m' a n = ByteMem.load m a n :=
  load_congr fun x h1 h2 => h x (by omega)

end AgreeOff

/-! ## Signed words -/

lemma ofInt32_lt (i : Int) : ofInt32 i < 256 ^ 4 := by
  unfold ofInt32
  omega

/-- A 32-bit signed value survives the trip through its word. -/
lemma toInt32_ofInt32 {i : Int} (hlo : -2 ^ 31 ≤ i) (hhi : i < 2 ^ 31) : toInt32 (ofInt32 i) = i := by
  unfold toInt32 ofInt32
  split <;> omega

/-! ## Buffers -/

/-- The copy loop overwrites exactly the first `n` bytes. -/
lemma copy_apply (src : Mem) (n : Nat) (dst : Mem) (i : Nat) :
    copy src n dst i = if i < n then src i else dst i := by
  induction n with
  | zero => simp [copy]
  | succ n ih =>
    rcases eq_or_ne i n with rfl | hne
    · simp [copy]
    · have : i < n + 1 ↔ i < n := by omega
      simp only [copy, Function.update_of_ne hne, ih, this]

/-- How many bytes a function writes is determined. -/
lemma Writes.unique {f : Mem → Mem} {n m : Nat} (h : Writes f n) (h' : Writes f m) : n = m := by
  obtain ⟨src, hf⟩ := h
  obtain ⟨src', hf'⟩ := h'
  by_contra hne
  have hle : ∀ {n m : Nat} {src src' : Mem}, n < m →
      (∀ buffer, copy src n buffer = copy src' m buffer) → False := by
    intro n m src src' hlt heq
    -- a buffer that holds another byte than the longer copy puts there
    have hbyte := congrFun (heq fun _ => src' n + 1) n
    rw [copy_apply, copy_apply, if_neg (lt_irrefl n), if_pos hlt] at hbyte
    simp at hbyte
  rcases Nat.lt_or_gt_of_ne hne with hlt | hlt
  · exact hle hlt fun buffer => (hf buffer).symm.trans (hf' buffer)
  · exact hle hlt fun buffer => (hf' buffer).symm.trans (hf buffer)

lemma copyAt_apply (src : Mem) (k n : Nat) (dst : Mem) (i : Nat) :
    copyAt src k n dst i = if k ≤ i ∧ i < k + n then src (i - k) else dst i := by
  induction n with
  | zero =>
    have : ¬(k ≤ i ∧ i < k + 0) := by omega
    simp only [copyAt, if_neg this]
  | succ n ih =>
    rcases eq_or_ne i (k + n) with rfl | hne
    · simp [copyAt]
    · have : (k ≤ i ∧ i < k + (n + 1)) ↔ (k ≤ i ∧ i < k + n) := by omega
      simp only [copyAt, Function.update_of_ne hne, ih, this]

lemma load_copyAt_of_le (src : Mem) (k : Nat) (dst : Mem) {n a w : Nat} (h : a + w ≤ k) :
    load (copyAt src k n dst) a w = load dst a w := by
  refine load_congr fun x _ hx => ?_
  rw [copyAt_apply, if_neg (by omega)]

@[simp] lemma length_bytes (m : Mem) (n : Nat) : (bytes m n).length = n := by simp [bytes]

lemma bytes_getElem (m : Mem) {n i : Nat} (h : i < (bytes m n).length) : (bytes m n)[i] = m i := by
  simp [bytes]

lemma bytes_succ (m : Mem) (n : Nat) : bytes m (n + 1) = m 0 :: bytes (shift m 1) n := by
  unfold bytes
  rw [List.range_succ_eq_map, List.map_cons, List.map_map]
  refine congrArg _ (List.map_congr_left fun i _ => ?_)
  simp [shift, Nat.add_comm]

lemma shift_zero (m : Mem) : shift m 0 = m := by
  funext i
  rw [shift, Nat.zero_add]

lemma shift_shift (m : Mem) (k l : Nat) : shift (shift m k) l = shift m (k + l) := by
  funext i
  simp [shift, Nat.add_assoc]

lemma bytes_congr {m m' : Mem} {n : Nat} (h : ∀ i < n, m' i = m i) : bytes m' n = bytes m n :=
  List.map_congr_left fun i hi => h i (List.mem_range.mp hi)

lemma bytes_eq_iff {m m' : Mem} {n : Nat} : bytes m' n = bytes m n ↔ ∀ i < n, m' i = m i := by
  unfold bytes
  rw [List.map_inj_left]
  exact forall_congr' fun i => by rw [List.mem_range]

lemma copy_eq_paste (src : Mem) (n : Nat) (dst : Mem) : copy src n dst = paste (bytes src n) dst := by
  funext i
  rw [copy_apply]
  unfold paste
  split
  · rename_i h
    rw [List.getD_eq_getElem _ _ (by simpa using h), bytes_getElem]
  · rename_i h
    rw [List.getD_eq_default _ _ (by simpa using h)]

lemma bytes_paste {l : List UInt8} {n : Nat} (h : n ≤ l.length) (dst : Mem) :
    bytes (paste l dst) n = l.take n := by
  refine List.ext_getElem (by simp [h]) fun i hi hi' => ?_
  have hlt : i < l.length := (List.length_take_le' n l).trans_lt' hi'
  rw [bytes_getElem, List.getElem_take]
  exact List.getD_eq_getElem _ _ hlt

lemma bytes_take (m : Mem) (k n : Nat) : (bytes m n).take k = bytes m (min k n) := by
  simp [bytes, ← List.map_take, List.take_range]

lemma storeBytes_nil (a : Nat) (m : Mem) : storeBytes a [] m = m := by
  funext x
  unfold storeBytes
  split <;> rfl

/-- Bytes behind bytes. -/
lemma storeBytes_append (a : Nat) (l l' : List UInt8) (m : Mem) :
    storeBytes (a + l.length) l' (storeBytes a l m) = storeBytes a (l ++ l') m := by
  funext x
  unfold storeBytes
  by_cases ha : a ≤ x
  · rw [if_pos ha, if_pos ha]
    split
    · next hl =>
      rw [List.getD_append_right _ _ _ _ (by omega), List.getD_eq_default l _ (by omega),
        Nat.sub_sub]
    · next hl =>
      rw [List.getD_append _ _ _ _ (by omega), List.getD_eq_getElem _ _ (by omega)]
  · rw [if_neg ha, if_neg ha, if_neg (by omega)]

lemma storeBytes_frame (a : Nat) (l : List UInt8) (m : Mem) :
    AgreeOff a (a + l.length) m (storeBytes a l m) := by
  intro x hx
  unfold storeBytes
  split
  · rw [List.getD_eq_default _ _ (by omega)]
  · rfl

lemma update_eq_storeBytes (a : Nat) (c : UInt8) (m : Mem) :
    Function.update m a c = storeBytes a [c] m := by
  funext x
  unfold storeBytes
  rcases lt_trichotomy x a with hlt | rfl | hgt
  · rw [Function.update_of_ne hlt.ne, if_neg (by omega)]
  · rw [Function.update_self, if_pos le_rfl, Nat.sub_self]
    rfl
  · rw [Function.update_of_ne hgt.ne', if_pos hgt.le, List.getD_eq_default]
    rw [List.length_singleton]
    omega

/-- What was written is read back. -/
lemma bytes_storeBytes (a : Nat) (l : List UInt8) (m : Mem) :
    bytes (shift (storeBytes a l m) a) l.length = l := by
  refine List.ext_getElem (length_bytes _ _) fun i hi hi' => ?_
  rw [bytes_getElem, shift, storeBytes, if_pos (Nat.le_add_right _ _), Nat.add_sub_cancel_left,
    List.getD_eq_getElem _ _ hi']

/-! ## Strings -/

/-- The memory at `p` is the string, and its terminator. -/
def Spells (m : Mem) : Nat → List UInt8 → Prop
  | p, [] => m p = 0
  | p, c :: text => c ≠ 0 ∧ m p = c ∧ Spells m (p + 1) text

instance instDecidableSpells (m : Mem) : ∀ p text, Decidable (Spells m p text)
  | p, [] => inferInstanceAs (Decidable (m p = 0))
  | p, c :: text =>
    have := instDecidableSpells m (p + 1) text
    inferInstanceAs (Decidable (c ≠ 0 ∧ m p = c ∧ Spells m (p + 1) text))

variable {m : Mem} {p : Nat} {text : List UInt8}

lemma Spells.end (h : Spells m p []) : m p = 0 := h

lemma Spells.ne_zero (h : Spells m p text) (hne : text ≠ []) : m p ≠ 0 := by
  cases text with
  | nil => exact absurd rfl hne
  | cons c text =>
    rw [h.2.1]
    exact h.1

lemma spells_of_getElem (hnul : 0 ∉ text) (hend : m (p + text.length) = 0)
    (h : ∀ i (hi : i < text.length), m (p + i) = text[i]) : Spells m p text := by
  induction text generalizing p with
  | nil => exact hend
  | cons c text ih =>
    rw [List.mem_cons, not_or] at hnul
    refine ⟨Ne.symm hnul.1, h 0 (Nat.zero_lt_succ _), ih hnul.2 ?_ fun i hi => ?_⟩
    · rwa [Nat.add_right_comm]
    · have hnext := h (i + 1) (Nat.succ_lt_succ hi)
      rwa [← Nat.add_assoc, Nat.add_right_comm] at hnext

/-- `while (lo < hi) { tmp = m[hi]; m[hi--] = m[lo]; m[lo++] = tmp; }`, for `n` rounds at most. -/
def reverseRange : Nat → Nat → Nat → Mem → Mem
  | 0, _, _, m => m
  | n + 1, lo, hi, m =>
    if lo < hi then
      reverseRange n (lo + 1) (hi - 1) (Function.update (Function.update m hi (m lo)) lo (m hi))
    else m

/-- The range is reversed, and nothing else is changed. -/
lemma reverseRange_apply {n lo hi : Nat} (hn : hi ≤ lo + n) (m : Mem) (i : Nat) :
    reverseRange n lo hi m i = if lo ≤ i ∧ i ≤ hi then m (lo + hi - i) else m i := by
  induction n generalizing lo hi m with
  | zero =>
    unfold reverseRange
    split
    · next h => rw [show lo + hi - i = i by omega]
    · rfl
  | succ n ih =>
    unfold reverseRange
    split
    · next hlt =>
      rw [ih (by omega)]
      rcases eq_or_ne i lo with rfl | hlo
      · rw [if_neg (by omega), if_pos (by omega), Function.update_self]
        congr 1
        omega
      · rcases eq_or_ne i hi with rfl | hhi
        · rw [if_neg (by omega), if_pos (by omega), Function.update_of_ne hlo, Function.update_self]
          congr 1
          omega
        · by_cases hin : lo ≤ i ∧ i ≤ hi
          · rw [if_pos (by omega), if_pos hin, Function.update_of_ne (by omega),
              Function.update_of_ne (by omega)]
            congr 1
            omega
          · rw [if_neg (by omega), if_neg hin, Function.update_of_ne hlo, Function.update_of_ne hhi]
    · next hge =>
      split
      · next h => rw [show lo + hi - i = i by omega]
      · rfl

/-- The bytes of a string before its terminator. -/
lemma Spells.getElem (h : Spells m p text) {i : Nat} (hi : i < text.length) :
    m (p + i) = text[i] ∧ text[i] ≠ 0 := by
  induction text generalizing p i with
  | nil => cases hi
  | cons c text ih =>
    obtain ⟨hc, hp, htext⟩ := h
    cases i with
    | zero => exact ⟨hp, hc⟩
    | succ i =>
      have hnext := ih htext (Nat.lt_of_succ_lt_succ hi)
      rwa [Nat.add_assoc, Nat.add_comm 1] at hnext

lemma Spells.terminated (h : Spells m p text) : m (p + text.length) = 0 := by
  induction text generalizing p with
  | nil => exact h
  | cons c text ih =>
    have hnext := ih h.2.2
    rwa [Nat.add_assoc, Nat.add_comm 1] at hnext

lemma Spells.nul_notMem (h : Spells m p text) : 0 ∉ text := by
  intro hmem
  obtain ⟨i, hi, e⟩ := List.getElem_of_mem hmem
  exact (h.getElem hi).2 e

/-- A string does not depend on the rest of the memory. -/
lemma Spells.congr {m' : Mem} (h : Spells m p text) (e : ∀ i ≤ text.length, m' (p + i) = m (p + i)) :
    Spells m' p text := by
  refine spells_of_getElem h.nul_notMem ?_ fun i hi => ?_
  · rw [e _ le_rfl, h.terminated]
  · rw [e i hi.le, (h.getElem hi).1]

/-- The string behind a string without its terminator. -/
lemma spells_append {a b : List UInt8} (ha : ∀ i (hi : i < a.length), m (p + i) = a[i])
    (hnul : 0 ∉ a) (hb : Spells m (p + a.length) b) : Spells m p (a ++ b) := by
  refine spells_of_getElem ?_ ?_ fun i hi => ?_
  · rw [List.mem_append, not_or]
    exact ⟨hnul, hb.nul_notMem⟩
  · rw [List.length_append, ← Nat.add_assoc, hb.terminated]
  · rw [List.getElem_append]
    split
    · next hlt => exact ha i hlt
    · next hge =>
      have hnext := (hb.getElem (i := i - a.length) (by rw [List.length_append] at hi; omega)).1
      rwa [Nat.add_assoc, Nat.add_sub_cancel' (not_lt.mp hge)] at hnext

/-! ## Copying inside one memory -/

/-- `for (i = 0; i < n; i++) m[dst + i] = m[src + i];` -/
def move (src dst : Nat) : Nat → Mem → Mem
  | 0, m => m
  | n + 1, m => Function.update (move src dst n m) (dst + n) (move src dst n m (src + n))

/-- Where the byte number `i` that the loop copies stood before the loop: if the destination lies
behind the source, what is between their beginnings is repeated. -/
def origin (src dst i : Nat) : Nat := if dst ≤ src then src + i else src + i % (dst - src)

lemma origin_of_apart {src dst i : Nat} (h : dst ≤ src ∨ src + i < dst) :
    origin src dst i = src + i := by
  unfold origin
  split
  · rfl
  · rw [Nat.mod_eq_of_lt (by omega)]

/-- The byte the loop reads was copied before, or has not been touched. -/
lemma move_apply (src dst n : Nat) (m : Mem) (x : Nat) :
    move src dst n m x = if dst ≤ x ∧ x < dst + n then m (origin src dst (x - dst)) else m x := by
  induction n generalizing x with
  | zero => rw [if_neg (by omega), move]
  | succ n ih =>
    unfold move
    rcases eq_or_ne x (dst + n) with rfl | hne
    · rw [Function.update_self, if_pos (by omega), Nat.add_sub_cancel_left, ih]
      unfold origin
      by_cases hle : dst ≤ src
      · rw [if_neg (by omega), if_pos hle]
      · rw [if_neg hle, if_neg hle]
        split
        · next hin =>
          rw [show src + n - dst = n - (dst - src) by omega, ← Nat.mod_eq_sub_mod (by omega)]
        · rw [Nat.mod_eq_of_lt (by omega)]
    · rw [Function.update_of_ne hne, ih]
      exact if_congr (by omega) rfl rfl

lemma move_frame (src dst n : Nat) (m : Mem) : AgreeOff dst (dst + n) m (move src dst n m) := by
  intro x hx
  rw [move_apply, if_neg (by omega)]

/-- The next byte that the loop reads. -/
lemma move_next (src dst n : Nat) (m : Mem) :
    move src dst n m (src + n) = m (origin src dst n) := by
  have hself := move_apply src dst (n + 1) m (dst + n)
  rwa [if_pos (by omega), Nat.add_sub_cancel_left, move, Function.update_self] at hself

end ByteMem
