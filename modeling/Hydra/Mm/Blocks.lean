import Hydra.Mm.Alloc
import Hydra.Lib.FirstFit

/-!
# The block list in memory

How the linked list of headers in memory represents an abstract list of blocks. `Seg m p bs q`
walks the headers from pointer `p` to pointer `q` and finds the blocks `bs` there, sizes and free
flags included. The two updates of the list are shown on this representation: `carve_seg` for the
split of `kmalloc` (C `kmalloc`, lines 59-71) and `absorb_seg` for the coalescing of `kfree`
(C `kfree`, lines 91-105). Memory outside of the written headers never matters (`Seg.frame`).
-/

namespace Hydra.Mm
open ByteMem Linked FirstFit

/-- The header of `b` in memory holds its size and its free flag. -/
def HdrAt (m : Mem) (b : Block) : Prop :=
  blkSize m b.addr = b.size ∧ blkFree m b.addr = b.free.toNat

/-- The headers from pointer `p` up to pointer `q` are those of `bs`. -/
def Seg (m : Mem) (p : Nat) (bs : List Block) (q : Nat) : Prop :=
  Linked.Seg (blkNext m) p (bs.map Block.addr) q ∧ ∀ b ∈ bs, HdrAt m b

/-! ## Header fields -/

section Fields

variable (m : Mem) (b v : Nat)

lemma blkSize_lt : blkSize m b < 2 ^ 32 := load_lt m b 4

lemma blkNext_lt : blkNext m b < 2 ^ 64 := load_lt m (b + 8) 8

@[simp] lemma blkSize_setSize : blkSize (setSize m b v) b = v % 2 ^ 32 := load_store_same m b 4 v

@[simp] lemma blkFree_setSize : blkFree (setSize m b v) b = blkFree m b :=
  load_store_disjoint m v (by omega)

@[simp] lemma blkNext_setSize : blkNext (setSize m b v) b = blkNext m b :=
  load_store_disjoint m v (by omega)

@[simp] lemma blkSize_setFree : blkSize (setFree m b v) b = blkSize m b :=
  load_store_disjoint m v (by omega)

@[simp] lemma blkFree_setFree : blkFree (setFree m b v) b = v % 2 ^ 32 :=
  load_store_same m (b + 4) 4 v

@[simp] lemma blkNext_setFree : blkNext (setFree m b v) b = blkNext m b :=
  load_store_disjoint m v (by omega)

@[simp] lemma blkSize_setNext : blkSize (setNext m b v) b = blkSize m b :=
  load_store_disjoint m v (by omega)

@[simp] lemma blkFree_setNext : blkFree (setNext m b v) b = blkFree m b :=
  load_store_disjoint m v (by omega)

@[simp] lemma blkNext_setNext : blkNext (setNext m b v) b = v % 2 ^ 64 :=
  load_store_same m (b + 8) 8 v

lemma agree_setSize : AgreeOff b (b + 16) m (setSize m b v) :=
  (AgreeOff.refl b (b + 16) m).store v (by omega) (by omega)

lemma agree_setFree : AgreeOff b (b + 16) m (setFree m b v) :=
  (AgreeOff.refl b (b + 16) m).store v (by omega) (by omega)

lemma agree_setNext : AgreeOff b (b + 16) m (setNext m b v) :=
  (AgreeOff.refl b (b + 16) m).store v (by omega) (by omega)

end Fields

lemma hdr_of_agree {lo hi : Nat} {m m' : Mem} (h : AgreeOff lo hi m m') {b : Nat}
    (hb : b + 16 ≤ lo ∨ hi ≤ b) :
    blkSize m' b = blkSize m b ∧ blkFree m' b = blkFree m b ∧ blkNext m' b = blkNext m b := by
  refine ⟨h.load ?_, h.load ?_, h.load ?_⟩
  · omega
  · omega
  · omega

/-! ## Segments -/

lemma seg_nil {m : Mem} {p q : Nat} : Seg m p [] q ↔ p = q := by
  simp [Seg, Linked.Seg]

lemma seg_cons {m : Mem} {p q : Nat} {b : Block} {bs : List Block} :
    Seg m p (b :: bs) q ↔ p = b.addr ∧ b.addr ≠ 0 ∧ HdrAt m b ∧ Seg m (blkNext m b.addr) bs q := by
  simp only [Seg, List.map_cons, Linked.Seg, List.forall_mem_cons]
  tauto

lemma seg_append {m : Mem} {p q : Nat} {l₁ l₂ : List Block} :
    Seg m p (l₁ ++ l₂) q ↔ ∃ r, Seg m p l₁ r ∧ Seg m r l₂ q := by
  simp only [Seg, List.map_append, Linked.seg_append, List.forall_mem_append]
  constructor
  · rintro ⟨⟨r, h1, h2⟩, h3, h4⟩
    exact ⟨r, ⟨h1, h3⟩, h2, h4⟩
  · rintro ⟨r, ⟨h1, h3⟩, h2, h4⟩
    exact ⟨⟨r, h1, h2⟩, h3, h4⟩

namespace Seg

variable {m m' : Mem} {p q : Nat} {bs : List Block}

lemma frame {lo hi : Nat} (h : Seg m p bs q) (e : AgreeOff lo hi m m')
    (hb : ∀ b ∈ bs, b.addr + 16 ≤ lo ∨ hi ≤ b.addr) : Seg m' p bs q := by
  obtain ⟨hl, hh⟩ := h
  refine ⟨hl.congr ?_, ?_⟩
  · intro a ha
    obtain ⟨b, hbm, rfl⟩ := List.mem_map.mp ha
    exact (hdr_of_agree e (hb b hbm)).2.2
  · intro b hbm
    obtain ⟨hs, hf, _⟩ := hdr_of_agree e (hb b hbm)
    obtain ⟨h1, h2⟩ := hh b hbm
    exact ⟨hs.trans h1, hf.trans h2⟩

lemma head_eq {b : Block} (h : Seg m p (b :: bs) q) : p = b.addr := (seg_cons.mp h).1

lemma chain (h : Seg m p bs 0) : Chain (blkNext m) p (bs.map Block.addr) := h.1

end Seg

/-! ## Splitting a block -/

/-- A header written field by field reads back, and nothing else changes. -/
lemma write_header (m : Mem) {a s f x : Nat} (hs : s < 2 ^ 32) (hf : f < 2 ^ 32) (hx : x < 2 ^ 64) :
    blkSize (setNext (setFree (setSize m a s) a f) a x) a = s ∧
      blkFree (setNext (setFree (setSize m a s) a f) a x) a = f ∧
      blkNext (setNext (setFree (setSize m a s) a f) a x) a = x ∧
      AgreeOff a (a + 16) m (setNext (setFree (setSize m a s) a f) a x) := by
  refine ⟨?_, ?_, ?_, ?_⟩
  · simpa using Nat.mod_eq_of_lt hs
  · simpa using Nat.mod_eq_of_lt hf
  · simpa using Nat.mod_eq_of_lt hx
  · exact ((agree_setSize m a s).trans (agree_setFree _ a f)).trans (agree_setNext _ a x)

/-- The writes of `split` when it cuts off a remainder. -/
lemma split_of_lt {m : Mem} {b n : Nat} (h : n + 48 < blkSize m b) :
    split m b n =
      setNext (setSize (setNext (setFree (setSize m (b + 16 + n) (blkSize m b - n - 16))
        (b + 16 + n) 1) (b + 16 + n) (blkNext m b)) b n) b (b + 16 + n) := by
  have a := (agree_setSize m (b + 16 + n) (blkSize m b - n - 16)).trans
    (agree_setFree _ (b + 16 + n) 1)
  have e := (hdr_of_agree (b := b) a (by omega)).2.2
  have h' : n + sizeofMemBlock + 32 < blkSize m b := h
  unfold split
  rw [if_pos h', ← e]
  rfl

lemma split_of_not_lt {m : Mem} {b n : Nat} (h : ¬n + 48 < blkSize m b) : split m b n = m :=
  if_neg h

/-- `split` followed by `best_fit->free = 0` carves a block in place: the headers of the carved
blocks stand where the block was, its successor is kept, and nothing outside of it is written. -/
lemma carve_seg {m : Mem} {b : Block} {n q : Nat} (hh : HdrAt m b) (hq : blkNext m b.addr = q)
    (h0 : b.addr ≠ 0) (hfin : b.fin 16 < 2 ^ 64) :
    Seg (setFree (split m b.addr n) b.addr 0) b.addr (carve 16 48 n b) q ∧
      AgreeOff b.addr (b.fin 16) m (setFree (split m b.addr n) b.addr 0) ∧
      blkSize (setFree (split m b.addr n) b.addr 0) b.addr = granted 48 n b := by
  obtain ⟨hs, hf⟩ := hh
  have hsz : b.size < 2 ^ 32 := hs ▸ blkSize_lt m b.addr
  have hq' : q < 2 ^ 64 := hq ▸ blkNext_lt m b.addr
  unfold Block.fin at hfin ⊢
  by_cases hc : n + 48 < b.size
  · -- the remainder gets a header of its own inside the old payload
    rw [split_of_lt (by rw [hs]; exact hc), hs, hq]
    generalize hnew : b.addr + 16 + n = new
    obtain ⟨new_size, new_free, new_next, a₁⟩ := write_header m (a := new)
      (s := b.size - n - 16) (f := 1) (x := q) (by omega) (by omega) hq'
    generalize setNext (setFree (setSize m new (b.size - n - 16)) new 1) new q = m₁ at *
    have a₂ : AgreeOff b.addr (b.addr + 16) m₁
        (setFree (setNext (setSize m₁ b.addr n) b.addr new) b.addr 0) :=
      ((agree_setSize m₁ _ n).trans (agree_setNext _ _ new)).trans (agree_setFree _ _ 0)
    have b_size :
        blkSize (setFree (setNext (setSize m₁ b.addr n) b.addr new) b.addr 0) b.addr = n := by
      simp only [blkSize_setFree, blkSize_setNext, blkSize_setSize]
      omega
    have b_next :
        blkNext (setFree (setNext (setSize m₁ b.addr n) b.addr new) b.addr 0) b.addr = new := by
      simp only [blkNext_setFree, blkNext_setNext]
      omega
    have b_free :
        blkFree (setFree (setNext (setSize m₁ b.addr n) b.addr new) b.addr 0) b.addr = 0 := by
      simp
    generalize setFree (setNext (setSize m₁ b.addr n) b.addr new) b.addr 0 = m₂ at *
    obtain ⟨k₁, k₂, k₃⟩ := hdr_of_agree (b := new) a₂ (by omega)
    refine ⟨?_, ?_, ?_⟩
    · unfold carve
      rw [if_pos hc, hnew]
      refine seg_cons.mpr ⟨rfl, h0, ⟨b_size, b_free⟩, seg_cons.mpr ⟨b_next, ?_, ?_, ?_⟩⟩
      · show new ≠ 0
        omega
      · exact ⟨k₁.trans new_size, k₂.trans new_free⟩
      · exact seg_nil.mpr (k₃.trans new_next)
    · exact (a₁.mono (by omega) (by omega)).trans (a₂.mono le_rfl (by omega))
    · unfold granted
      rw [if_pos hc, b_size]
  · rw [split_of_not_lt (by rw [hs]; exact hc)]
    refine ⟨?_, (agree_setFree m b.addr 0).mono le_rfl (by omega), ?_⟩
    · unfold carve
      rw [if_neg hc]
      refine seg_cons.mpr ⟨rfl, h0, ⟨?_, ?_⟩, seg_nil.mpr ?_⟩
      · simpa using hs
      · simp
      · simpa using hq
    · unfold granted
      rw [if_neg hc, blkSize_setFree, hs]

/-! ## Joining blocks -/

/-- The header writes of both coalescing branches: block `a` takes over the bytes and the link of
the block `c` behind it. -/
def absorb (m : Mem) (a c : Nat) : Mem :=
  let m := setSize m a (blkSize m a + (blkSize m c + sizeofMemBlock))
  setNext m a (blkNext m c)

/-- Absorbing the next block joins the two. -/
lemma absorb_seg {m : Mem} {p : Nat} {a c : Block} {l : List Block}
    (h : Seg m p (a :: c :: l) 0) (haf : a.free = true)
    (hac : a.addr + 16 ≤ c.addr) (hl : ∀ b ∈ l, a.addr + 16 ≤ b.addr)
    (hsz : a.size + (c.size + 16) < 2 ^ 32) :
    Seg (absorb m a.addr c.addr) p (⟨a.addr, a.size + (c.size + 16), true⟩ :: l) 0 ∧
      AgreeOff a.addr (a.addr + 16) m (absorb m a.addr c.addr) := by
  obtain ⟨hp, ha0, ⟨has, haf'⟩, hrest⟩ := seg_cons.mp h
  obtain ⟨_, _, ⟨hcs, _⟩, hl'⟩ := seg_cons.mp hrest
  unfold absorb
  generalize hm1 : setSize m a.addr (blkSize m a.addr + (blkSize m c.addr + sizeofMemBlock)) = m1
  have a1 : AgreeOff a.addr (a.addr + 16) m m1 := hm1 ▸ agree_setSize m _ _
  have c_next : blkNext m1 c.addr = blkNext m c.addr := (hdr_of_agree a1 (by omega)).2.2
  have a2 : AgreeOff a.addr (a.addr + 16) m (setNext m1 a.addr (blkNext m1 c.addr)) :=
    a1.trans (agree_setNext m1 _ _)
  refine ⟨seg_cons.mpr ⟨hp, ha0, ⟨?_, ?_⟩, ?_⟩, a2⟩
  · simp only [blkSize_setNext, ← hm1, blkSize_setSize, has, hcs, sizeofMemBlock]
    omega
  · simp only [blkFree_setNext, ← hm1, blkFree_setSize, haf', haf]
  · have hlt := blkNext_lt m c.addr
    have e : blkNext (setNext m1 a.addr (blkNext m1 c.addr)) a.addr = blkNext m c.addr := by
      simp only [blkNext_setNext, c_next]
      omega
    rw [e]
    exact hl'.frame a2 fun b hb => .inr (hl b hb)

end Hydra.Mm
