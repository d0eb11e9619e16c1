import Mathlib

/-!
# Ring buffers

A ring buffer is a function of the index with a read index and a count; the indices wrap around at
the size. `contents` is the queue it stands for, oldest element first. Reading an element is taking
the head of the queue (`contents_succ`), and cells outside of the queue do not matter.

A program often has a write index too, and signed variables for all of them. `Indices` says that
they fit together; reading (`Indices.pop`) and writing (`Indices.push`) keep it, and are the two
operations of the queue (`Indices.contents_pop`, `Indices.contents_push`).
-/

namespace Ring

variable {α : Type*}

/-- The `count` cells from index `tail` on, in cyclic order. -/
def contents (buf : Nat → α) (size : Nat) : Nat → Nat → List α
  | _, 0 => []
  | tail, count + 1 => buf tail :: contents buf size ((tail + 1) % size) count

variable (buf : Nat → α) (size tail count : Nat)

lemma contents_succ : contents buf size tail (count + 1) =
    buf tail :: contents buf size ((tail + 1) % size) count := rfl

@[simp] lemma length_contents : (contents buf size tail count).length = count := by
  induction count generalizing tail with
  | zero => rfl
  | succ count ih => rw [contents_succ, List.length_cons, ih]

variable {buf size tail count}

/-- The cell behind the queue becomes its last one. -/
lemma contents_concat (h : tail < size) : contents buf size tail (count + 1) =
    contents buf size tail count ++ [buf ((tail + count) % size)] := by
  induction count generalizing tail with
  | zero =>
    have hcell : (tail + 0) % size = tail := Nat.mod_eq_of_lt h
    rw [hcell]
    rfl
  | succ count ih =>
    have hnext : (tail + 1) % size < size := Nat.mod_lt _ (Nat.zero_lt_of_lt h)
    have hcell : ((tail + 1) % size + count) % size = (tail + (count + 1)) % size := by
      rw [Nat.mod_add_mod, Nat.add_assoc, Nat.add_comm 1 count]
    rw [contents_succ, ih hnext, hcell]
    rfl

lemma contents_congr {buf' : Nat → α} (h : tail < size)
    (hcells : ∀ k < count, buf' ((tail + k) % size) = buf ((tail + k) % size)) :
    contents buf' size tail count = contents buf size tail count := by
  induction count with
  | zero => rfl
  | succ count ih =>
    rw [contents_concat h, contents_concat h, hcells count (Nat.lt_succ_self count),
      ih fun k hk => hcells k (Nat.lt_succ_of_lt hk)]

/-- While the ring is not full, the cells of the queue are apart from the one behind it. -/
lemma cell_ne {k : Nat} (hk : k < count) (hroom : count < size) :
    (tail + k) % size ≠ (tail + count) % size := by
  intro heq
  have hcancel : k % size = count % size := Nat.ModEq.add_left_cancel' tail heq
  rw [Nat.mod_eq_of_lt (hk.trans hroom), Nat.mod_eq_of_lt hroom] at hcancel
  exact hk.ne hcancel

lemma contents_push (h : tail < size) (hroom : count < size) (x : α) :
    contents (Function.update buf ((tail + count) % size) x) size tail (count + 1) =
      contents buf size tail count ++ [x] := by
  rw [contents_concat h, Function.update_self, contents_congr h]
  intro k hk
  exact Function.update_of_ne (cell_ne hk hroom) _ _

/-! ## Signed indices -/

/-- The write index `head`, the read index `tail` and the count fit together. -/
structure Indices (size : Nat) (head tail count : Int) : Prop where
  tail_nonneg : 0 ≤ tail
  tail_lt : tail < size
  count_nonneg : 0 ≤ count
  count_le : count ≤ size
  head : head = (tail + count) % size

namespace Indices

variable {size : Nat} {head tail count : Int}

lemma empty (h : 0 < size) : Indices size 0 0 0 :=
  ⟨le_rfl, by exact_mod_cast h, le_rfl, Int.natCast_nonneg size, (Int.zero_emod _).symm⟩

lemma size_pos (h : Indices size head tail count) : 0 < (size : Int) :=
  h.tail_nonneg.trans_lt h.tail_lt

lemma pop (h : Indices size head tail count) (hpos : 0 < count) :
    Indices size head ((tail + 1) % size) (count - 1) where
  tail_nonneg := Int.emod_nonneg _ h.size_pos.ne'
  tail_lt := Int.emod_lt_of_pos _ h.size_pos
  count_nonneg := by omega
  count_le := by
    have hle := h.count_le
    omega
  head := by
    rw [h.head, Int.emod_add_emod]
    congr 1
    omega

lemma push (h : Indices size head tail count) (hroom : count < size) :
    Indices size ((head + 1) % size) tail (count + 1) where
  tail_nonneg := h.tail_nonneg
  tail_lt := h.tail_lt
  count_nonneg := by
    have hnonneg := h.count_nonneg
    omega
  count_le := hroom
  head := by
    rw [h.head, Int.emod_add_emod, Int.add_assoc]

/-- Reading takes the oldest element. -/
lemma contents_pop (h : Indices size head tail count) (hpos : 0 < count) (buf : Nat → α) :
    contents buf size tail.toNat count.toNat =
      buf tail.toNat :: contents buf size ((tail + 1) % size).toNat (count - 1).toNat := by
  have hcount : count.toNat = (count - 1).toNat + 1 := by omega
  have htail : ((tail + 1) % size).toNat = (tail.toNat + 1) % size := by
    obtain ⟨t, rfl⟩ := Int.eq_ofNat_of_zero_le h.tail_nonneg
    exact congrArg Int.toNat (Int.natCast_mod (t + 1) size).symm
  rw [hcount, contents_succ, htail]

/-- Writing puts an element behind the others. -/
lemma contents_push (h : Indices size head tail count) (hroom : count < size) (buf : Nat → α)
    (x : α) : contents (Function.update buf head.toNat x) size tail.toNat (count + 1).toNat =
      contents buf size tail.toNat count.toNat ++ [x] := by
  have hcount : (count + 1).toNat = count.toNat + 1 := by
    have hnonneg := h.count_nonneg
    omega
  have hhead : head.toNat = (tail.toNat + count.toNat) % size := by
    obtain ⟨t, ht⟩ := Int.eq_ofNat_of_zero_le h.tail_nonneg
    obtain ⟨c, hc⟩ := Int.eq_ofNat_of_zero_le h.count_nonneg
    rw [h.head, ht, hc]
    exact congrArg Int.toNat (Int.natCast_mod (t + c) size).symm
  have htail := h.tail_lt
  have hnonneg := h.tail_nonneg
  rw [hcount, hhead]
  exact Ring.contents_push (by omega) (by omega) x

end Indices

end Ring
