import Hydra.Mm.Blocks

/-!
# The allocator refines first fit

`kmalloc` and `kfree` on memory carry out `FirstFit.alloc` and `FirstFit.release` on the block
list. A heap is well-formed (`WF`) for a region when its headers represent a coalesced tiling of
the region whose used bytes are `total_allocated`. In a well-formed heap both functions end, both
keep it well-formed, and both write only inside the headers of the blocks they take part with
(`kmalloc_some`, `kmalloc_none`, `kfree_live`).
-/

namespace Hydra.Mm
open ByteMem Linked FirstFit

/-- A heap region as the linker script provides it: aligned bounds, room for a header, a length
that fits in 32 bits. The address of a linker symbol is not null. -/
structure Region where
  start : Nat
  stop : Nat
  start_pos : 0 < start
  start_aligned : 8 ∣ start
  stop_aligned : 8 ∣ stop
  room : start + sizeofMemBlock ≤ stop
  small : stop < start + 2 ^ 32
  addressable : stop < 2 ^ 64

/-- The heap represents the blocks `bs`, which tile the region and are coalesced. -/
structure WF (r : Region) (h : Heap) (bs : List Block) : Prop where
  seg : Seg h.mem h.heapHead bs 0
  tiles : Tiles 16 8 r.start bs r.stop
  coalesced : Coalesced bs
  accounted : h.totalAllocated = used bs
  heapStart : h.heapStart = r.start
  heapEnd : h.heapEnd = r.stop

/-- The memories differ at most inside the headers of `bs`. -/
def HeadersOnly (bs : List Block) (m m' : Mem) : Prop :=
  ∀ x, (∀ b ∈ bs, x < b.addr ∨ b.addr + 16 ≤ x) → m' x = m x

/-! ## Arithmetic of block sizes -/

/-- The mask `~7` clears the low three bits of a 32-bit word. -/
lemma and_mask {x : Nat} (hx : x < 2 ^ 32) : x &&& (2 ^ 32 - 8) = x / 8 * 8 := by
  have e : x / 8 * 8 = x >>> 3 <<< 3 := by
    rw [Nat.shiftRight_eq_div_pow, Nat.shiftLeft_eq]
  rw [e]
  apply Nat.eq_of_testBit_eq
  intro i
  have hmask := Nat.testBit_two_pow_sub_succ (show 7 < 2 ^ 32 by decide) i
  have h7 := Nat.testBit_two_pow_sub_one 3 i
  rw [Nat.testBit_and, Nat.testBit_shiftLeft, Nat.testBit_shiftRight, hmask, h7]
  by_cases h3 : i < 3
  · simp [h3]
  · have hi : 3 + (i - 3) = i := by omega
    by_cases h32 : i < 32
    · have h3' : 3 ≤ i := by omega
      simp [h3, h32, hi, h3']
    · have hbit : x.testBit i = false :=
        Nat.testBit_lt_two_pow (lt_of_lt_of_le hx (Nat.pow_le_pow_right (by decide) (by omega)))
      simp [hi, hbit]

/-- `alignSize` rounds up to a multiple of 8, and wraps to `0` within 8 of `2 ^ 32`. -/
lemma alignSize_toNat (size : UInt32) :
    (alignSize size).toNat = (size.toNat + 7) % 2 ^ 32 / 8 * 8 := by
  unfold alignSize
  rw [UInt32.toNat_and, UInt32.toNat_add]
  exact and_mask (Nat.mod_lt _ (by decide))

lemma alignSize_dvd (size : UInt32) : 8 ∣ (alignSize size).toNat := by
  rw [alignSize_toNat]
  exact Nat.dvd_mul_left 8 _

lemma alignSize_of_le {size : UInt32} (h : size.toNat ≤ 2 ^ 32 - 8) :
    size.toNat ≤ (alignSize size).toNat ∧ (alignSize size).toNat < size.toNat + 8 := by
  rw [alignSize_toNat]
  omega

lemma used_le {lo hi : Nat} {bs : List Block} (t : Tiles 16 8 lo bs hi) : lo + used bs ≤ hi := by
  induction bs generalizing lo with
  | nil => exact le_of_eq t
  | cons b bs ih =>
    obtain ⟨rfl, _, t⟩ := t
    have h := ih t
    unfold Block.fin at h
    rw [used_cons]
    split <;> omega

namespace WF

variable {r : Region} {h : Heap} {bs : List Block}

lemma heapHead (w : WF r h bs) : h.heapHead = r.start := by
  cases bs with
  | nil =>
    have hroom := r.room
    have t := w.tiles
    unfold Tiles sizeofMemBlock at *
    omega
  | cons b bs => exact w.seg.head_eq.trans w.tiles.1

/-- The bound on the list walks is never reached, whatever blocks tile the region. -/
lemma length_lt_fuel (w : WF r h bs) {l : List Block} (t : Tiles 16 8 r.start l r.stop) :
    (l.map Block.addr).length < h.fuel := by
  have hlen := t.length_le
  have hroom := r.room
  unfold sizeofMemBlock at hroom
  unfold Heap.fuel
  rw [w.heapStart, w.heapEnd, List.length_map]
  omega

lemma fin_lt (w : WF r h bs) {b : Block} (hb : b ∈ bs) : b.fin 16 < 2 ^ 64 :=
  lt_of_le_of_lt (w.tiles.mem_bounds hb).2 r.addressable

lemma addr_pos (w : WF r h bs) {b : Block} (hb : b ∈ bs) : 0 < b.addr :=
  lt_of_lt_of_le r.start_pos (w.tiles.mem_bounds hb).1

/-- The size recorded in front of a payload. -/
lemma payload_size (w : WF r h bs) {b : Block} (hb : b ∈ bs) :
    blkSize h.mem (b.payload 16 - sizeofMemBlock) = b.size := by
  unfold Block.payload sizeofMemBlock
  rw [Nat.add_sub_cancel]
  exact (w.seg.2 b hb).1

/-- The link of a listed block is determined by the list. -/
lemma next_eq (w : WF r h bs) {pre post : List Block} {b : Block} (e : bs = pre ++ b :: post) :
    blkNext h.mem b.addr = (post.map Block.addr).headD 0 := by
  have hchain := w.seg.chain
  rw [e, List.map_append, List.map_cons] at hchain
  exact hchain.next_eq

lemma next_mem (w : WF r h bs) {b : Block} (hb : b ∈ bs) :
    blkNext h.mem b.addr = 0 ∨ ∃ c ∈ bs, c.addr = blkNext h.mem b.addr := by
  obtain ⟨pre, post, e⟩ := List.append_of_mem hb
  rw [w.next_eq e]
  cases post with
  | nil => exact .inl rfl
  | cons c post => exact .inr ⟨c, by simp [e], rfl⟩

/-- A write inside a payload touches no header. -/
lemma payload_write (w : WF r h bs) {b : Block} (hb : b ∈ bs) {m' : Mem}
    (e : AgreeOff (b.payload 16) (b.fin 16) h.mem m') : WF r { h with mem := m' } bs := by
  refine ⟨?_, w.tiles, w.coalesced, w.accounted, w.heapStart, w.heapEnd⟩
  exact w.seg.frame e fun c hc => w.tiles.payload_apart hb hc

end WF

/-! ## Initialisation -/

theorem mmInit_wf (r : Region) {h : Heap} (h0 : h.totalAllocated = 0) :
    WF r (mmInit h r.start r.stop) [⟨r.start, r.stop - r.start - 16, true⟩] := by
  have hroom := r.room
  have hsmall := r.small
  have hpos := r.start_pos
  have hal : (r.start + 7) / 8 * 8 = r.start := by
    have hd := r.start_aligned
    omega
  unfold sizeofMemBlock at hroom
  obtain ⟨hs, hf, hx, _⟩ := write_header h.mem (a := r.start) (s := r.stop - r.start - 16)
    (f := 1) (x := 0) (by omega) (by omega) (by omega)
  unfold mmInit
  simp only [hal, sizeofMemBlock]
  constructor
  · exact seg_cons.mpr ⟨rfl, hpos.ne', ⟨hs, hf⟩, seg_nil.mpr hx⟩
  · refine ⟨rfl, ?_, ?_⟩
    · have hd := Nat.dvd_sub r.stop_aligned r.start_aligned
      exact Nat.dvd_sub hd (by decide)
    · unfold Tiles Block.fin
      simp only
      omega
  · exact .singleton _
  · exact h0
  · rfl
  · rfl

/-! ## Allocation -/

lemma fits_eq {m : Mem} {b : Block} (hb : HdrAt m b) (n : Nat) : fits m n b.addr = b.fits n := by
  obtain ⟨hs, hf⟩ := hb
  unfold fits Block.fits
  rw [hs, hf]
  cases b.free <;> simp

/-- The first-fit loop ends, at the first block that fits. -/
lemma walk_fits {r : Region} {h : Heap} {bs : List Block} (w : WF r h bs) (n : Nat) :
    walk (blkNext h.mem) (fits h.mem n) h.fuel h.heapHead =
      some (((bs.find? (Block.fits n)).map Block.addr).getD 0) := by
  have hfind : bs.find? (fits h.mem n ∘ Block.addr) = bs.find? (Block.fits n) :=
    List.find?_congr fun b hb => fits_eq (w.seg.2 b hb) n
  rw [walk_chain w.seg.chain (w.length_lt_fuel w.tiles), List.find?_map, hfind]

theorem kmalloc_none {r : Region} {h : Heap} {bs : List Block} (w : WF r h bs) {size : UInt32}
    (hb : bs.find? (Block.fits (alignSize size).toNat) = none) : kmalloc h size = some (0, h) := by
  unfold kmalloc
  rw [if_neg (by rw [w.heapHead]; exact r.start_pos.ne')]
  simp only [walk_fits w, hb]
  rfl

/-- With a block that fits, `kmalloc` takes it and returns its payload. -/
lemma kmalloc_eq {r : Region} {h : Heap} {bs : List Block} (w : WF r h bs) {size : UInt32}
    {b : Block} (hb : bs.find? (Block.fits (alignSize size).toNat) = some b) :
    kmalloc h size = some (b.payload 16, take h b.addr (alignSize size).toNat) := by
  have hb0 := (w.addr_pos (List.mem_of_find?_eq_some hb)).ne'
  unfold kmalloc
  rw [if_neg (by rw [w.heapHead]; exact r.start_pos.ne')]
  simp only [walk_fits w, hb, Option.map_some, Option.getD_some, if_neg hb0]
  rfl

lemma take_of_kmalloc {r : Region} {h h' : Heap} {bs : List Block} (w : WF r h bs) {size : UInt32}
    {b : Block} (hb : bs.find? (Block.fits (alignSize size).toNat) = some b) {p : Nat}
    (hcall : kmalloc h size = some (p, h')) : h' = take h b.addr (alignSize size).toNat := by
  rw [kmalloc_eq w hb, Option.some.injEq, Prod.mk.injEq] at hcall
  exact hcall.2.symm

/-- With a block that fits, `kmalloc` carries out the first-fit allocation. -/
theorem kmalloc_some {r : Region} {h : Heap} {bs : List Block} (w : WF r h bs) {size : UInt32}
    {b : Block} (hb : bs.find? (Block.fits (alignSize size).toNat) = some b) :
    ∃ h', kmalloc h size = some (b.payload 16, h') ∧
      WF r h' (alloc 16 48 (alignSize size).toNat bs) ∧
      AgreeOff b.addr (b.fin 16) h.mem h'.mem ∧
      blkSize h'.mem b.addr = granted 48 (alignSize size).toNat b := by
  have hmem : b ∈ bs := List.mem_of_find?_eq_some hb
  have hdvd := alignSize_dvd size
  have hcall := kmalloc_eq w hb
  generalize (alignSize size).toNat = n at *
  have hpos := w.addr_pos hmem
  obtain ⟨pre, post, rfl, hfit, _, halloc⟩ := alloc_of_find 16 48 hb
  obtain ⟨q, hpre, hmid⟩ := seg_append.mp w.seg
  obtain ⟨rfl, hb0, hhdr, hpost⟩ := seg_cons.mp hmid
  obtain ⟨hcarve, hagree, hgranted⟩ := carve_seg (n := n) hhdr rfl hb0 (w.fin_lt hmem)
  have hbounds := w.tiles.mem_bounds hmem
  have hpair := List.pairwise_append.mp w.tiles.pairwise
  have hused : used (alloc 16 48 n (pre ++ b :: post)) = _ := used_alloc hb
  have htiles : Tiles 16 8 r.start (alloc 16 48 n (pre ++ b :: post)) r.stop :=
    tiles_alloc hb hdvd (by decide) (by decide) w.tiles
  have htotal := used_le htiles
  have hsmall := r.small
  refine ⟨take h b.addr n, hcall, ⟨?_, htiles, coalesced_alloc hb w.coalesced, ?_,
    w.heapStart, w.heapEnd⟩, hagree, hgranted⟩
  · rw [halloc, List.append_assoc]
    refine seg_append.mpr ⟨b.addr, ?_, seg_append.mpr ⟨_, hcarve, ?_⟩⟩
    · refine hpre.frame hagree fun a ha => .inl ?_
      have hab := hpair.2.2 a ha b (by simp)
      unfold Block.fin at hab
      omega
    · refine hpost.frame hagree fun c hc => .inr ?_
      exact (List.pairwise_cons.mp hpair.2.1).1 c hc
  · unfold take
    simp only [hgranted, w.accounted]
    rw [hused, Nat.mod_eq_of_lt]
    omega

/-! ## Release -/

/-- The forward branch of `kfree`: a freed block joined with a free successor. -/
lemma mergeNext_seg {m : Mem} {p lo hi : Nat} {b : Block} {l : List Block}
    (h : Seg m p (b :: l) 0) (t : Tiles 16 8 lo (b :: l) hi) (hf : b.free = true)
    (hsmall : hi < lo + 2 ^ 32) :
    Seg (mergeNext m b.addr) p (glue 16 b l) 0 ∧
      AgreeOff b.addr (b.addr + 16) m (mergeNext m b.addr) := by
  obtain ⟨_, _, _, hl⟩ := seg_cons.mp h
  cases l with
  | nil =>
    have hnext : blkNext m b.addr = 0 := seg_nil.mp hl
    have e : mergeNext m b.addr = m := by
      unfold mergeNext
      simp [hnext]
    rw [e]
    exact ⟨h, AgreeOff.refl _ _ m⟩
  | cons c l =>
    obtain ⟨hnext, hc0, ⟨_, hcf⟩, _⟩ := seg_cons.mp hl
    rw [glue_cons]
    by_cases hcfree : c.free = true
    · have e : mergeNext m b.addr = absorb m b.addr c.addr := by
        unfold mergeNext absorb
        simp [hnext, hc0, hcf, hcfree]
      have hle := t.2.2.2.2.le
      obtain ⟨hlo, _, hca, _, t'⟩ := t
      have hlow := fun d hd => (t'.mem_bounds (b := d) hd).1
      unfold Block.fin at hca hle hlow
      rw [if_pos ⟨hf, hcfree⟩, e]
      refine absorb_seg h hf (by omega) (fun d hd => ?_) (by omega)
      have hd' := hlow d hd
      omega
    · have e : mergeNext m b.addr = m := by
        unfold mergeNext
        simp [hcf, hcfree, hnext]
      rw [if_neg (fun hbc => hcfree hbc.2), e]
      exact ⟨h, AgreeOff.refl _ _ m⟩

/-- The backward branch of `kfree`: the block in front takes over the freed block if it is free. -/
lemma mergePrev_seg {m : Mem} {p lo hi : Nat} {a c : Block} {l : List Block}
    (h : Seg m p (a :: c :: l) 0) (t : Tiles 16 8 lo (a :: c :: l) hi) (hf : c.free = true)
    (hsmall : hi < lo + 2 ^ 32) :
    Seg (mergePrev m a.addr c.addr) p (glue 16 a (c :: l)) 0 ∧
      AgreeOff a.addr (a.addr + 16) m (mergePrev m a.addr c.addr) := by
  obtain ⟨_, ha0, ⟨_, haf⟩, _⟩ := seg_cons.mp h
  rw [glue_cons]
  by_cases hafree : a.free = true
  · have e : mergePrev m a.addr c.addr = absorb m a.addr c.addr := by
      unfold mergePrev absorb
      simp [ha0, haf, hafree]
    have hle := t.2.2.2.2.le
    obtain ⟨hlo, _, hca, _, t'⟩ := t
    have hlow := fun d hd => (t'.mem_bounds (b := d) hd).1
    unfold Block.fin at hca hle hlow
    rw [if_pos ⟨hafree, hf⟩, e]
    refine absorb_seg h hafree (by omega) (fun d hd => ?_) (by omega)
    have hd' := hlow d hd
    omega
  · have e : mergePrev m a.addr c.addr = m := by
      unfold mergePrev
      simp [haf, hafree]
    rw [if_neg (fun hac => hafree hac.1), e]
    exact ⟨h, AgreeOff.refl _ _ m⟩

lemma setFree_seg {m : Mem} {p lo hi : Nat} {pre post : List Block} {b : Block}
    (h : Seg m p (pre ++ b :: post) 0) (t : Tiles 16 8 lo (pre ++ b :: post) hi) :
    Seg (setFree m b.addr 1) p (pre ++ { b with free := true } :: post) 0 := by
  obtain ⟨q, hpre, hmid⟩ := seg_append.mp h
  obtain ⟨rfl, hb0, ⟨hs, _⟩, hpost⟩ := seg_cons.mp hmid
  have hpair := List.pairwise_append.mp t.pairwise
  have hagree := agree_setFree m b.addr 1
  refine seg_append.mpr ⟨b.addr, ?_, seg_cons.mpr ⟨rfl, hb0, ⟨?_, ?_⟩, ?_⟩⟩
  · refine hpre.frame hagree fun a ha => .inl ?_
    have hab := hpair.2.2 a ha b (by simp)
    unfold Block.fin at hab
    omega
  · simpa using hs
  · simp
  · simp only [blkNext_setFree]
    refine hpost.frame hagree fun c hc => .inr ?_
    have hbc := (List.pairwise_cons.mp hpair.2.1).1 c hc
    unfold Block.fin at hbc
    omega

/-- Replacing the tail of a segment by one that the new memory represents. -/
lemma seg_replace {m m' : Mem} {p q lo hi : Nat} {pre l l' : List Block} {b : Block}
    (hpre : Seg m p pre q) (hl : Seg m' q l' 0) (t : Tiles 16 8 lo (pre ++ b :: l) hi)
    (e : AgreeOff b.addr (b.addr + 16) m m') : Seg m' p (pre ++ l') 0 := by
  have hpair := List.pairwise_append.mp t.pairwise
  refine seg_append.mpr ⟨q, hpre.frame e fun a ha => .inl ?_, hl⟩
  have hab := hpair.2.2 a ha b (by simp)
  unfold Block.fin at hab
  omega

/-- The backward search and join of `kfree`, when `c` is the freed block. -/
lemma mergePrev_walk {m : Mem} {p lo hi fuel : Nat} {pre l : List Block} {c : Block}
    (h : Seg m p (pre ++ c :: l) 0) (t : Tiles 16 8 lo (pre ++ c :: l) hi) (hf : c.free = true)
    (hsmall : hi < lo + 2 ^ 32) (hfuel : ((pre ++ c :: l).map Block.addr).length < fuel) :
    ∃ current, walk (blkNext m) (fun x => blkNext m x = c.addr) fuel p = some current ∧
      ((pre = [] ∧ current = 0 ∧ Seg (mergePrev m current c.addr) p (c :: l) 0 ∧
          mergePrev m current c.addr = m) ∨
        ∃ pre' a, pre = pre' ++ [a] ∧ current = a.addr ∧
          Seg (mergePrev m current c.addr) p (pre' ++ glue 16 a (c :: l)) 0 ∧
          AgreeOff a.addr (a.addr + 16) m (mergePrev m current c.addr)) := by
  have hwalk : walk (blkNext m) (fun x => blkNext m x = c.addr) fuel p = _ :=
    walk_chain h.chain hfuel
  have hchain := h.chain
  refine ⟨_, hwalk, ?_⟩
  rw [List.map_append, List.map_cons] at hchain ⊢
  rcases pre.eq_nil_or_concat with rfl | ⟨pre', a, rfl⟩
  · have e : mergePrev m 0 c.addr = m := by
      unfold mergePrev
      simp
    left
    simp only [List.map_nil, List.nil_append] at hchain ⊢
    rw [hchain.find_prev_head, Option.getD_none, e]
    exact ⟨trivial, rfl, h, rfl⟩
  · right
    refine ⟨pre', a, List.concat_eq_append, ?_⟩
    simp only [List.concat_eq_append, List.map_append, List.map_cons, List.map_nil,
      List.append_assoc, List.singleton_append] at hchain h t ⊢
    rw [hchain.find_prev, Option.getD_some]
    refine ⟨rfl, ?_⟩
    obtain ⟨q, hpre, hmid⟩ := seg_append.mp h
    obtain ⟨mid, tpre, tmid⟩ := tiles_append.mp t
    have hle := tpre.le
    obtain ⟨hseg, hagree⟩ := mergePrev_seg hmid tmid hf (by omega)
    exact ⟨seg_replace hpre hseg t hagree, hagree⟩

/-- Writes to the header of a listed block stay inside the headers. -/
lemma HeadersOnly.of_agree {bs : List Block} {b : Block} (hb : b ∈ bs) {m m' : Mem}
    (e : AgreeOff b.addr (b.addr + 16) m m') : HeadersOnly bs m m' :=
  fun x hx => e x (hx b hb)

lemma HeadersOnly.trans {bs : List Block} {m₁ m₂ m₃ : Mem} (h₁ : HeadersOnly bs m₁ m₂)
    (h₂ : HeadersOnly bs m₂ m₃) : HeadersOnly bs m₁ m₃ :=
  fun x hx => (h₂ x hx).trans (h₁ x hx)

/-- The writes of `kfree` carry out the release of a used block in memory. -/
lemma kfree_seg {m : Mem} {p lo hi fuel : Nat} {pre post : List Block} {b : Block}
    (h : Seg m p (pre ++ b :: post) 0) (t : Tiles 16 8 lo (pre ++ b :: post) hi)
    (co : Coalesced (pre ++ b :: post)) (hsmall : hi < lo + 2 ^ 32)
    (hfuel : ∀ l, Tiles 16 8 lo l hi → (l.map Block.addr).length < fuel) :
    ∃ m₂ current, m₂ = mergeNext (setFree m b.addr 1) b.addr ∧
      walk (blkNext m₂) (fun x => blkNext m₂ x = b.addr) fuel p = some current ∧
      (current = 0 ∨ ∃ a ∈ pre ++ b :: post, a.addr = current) ∧
      Seg (mergePrev m₂ current b.addr) p (release 16 (b.payload 16) (pre ++ b :: post)) 0 ∧
      HeadersOnly (pre ++ b :: post) m (mergePrev m₂ current b.addr) := by
  have hmem : b ∈ pre ++ b :: post := by simp
  have hne : ∀ a ∈ pre, a.payload 16 ≠ b.payload 16 := fun a ha => t.payload_ne (by decide) ha
  -- the freed block in place
  obtain ⟨f, hf, hfa, hff⟩ : ∃ f : Block, f = { b with free := true } ∧ f.addr = b.addr ∧
      f.free = true := ⟨_, rfl, rfl, rfl⟩
  have hfree := setFree_seg h t
  have hagree := agree_setFree m b.addr 1
  have tfree : Tiles 16 8 lo (pre ++ { b with free := true } :: post) hi := by
    obtain ⟨mid, tpre, tmid⟩ := tiles_append.mp t
    exact tiles_append.mpr ⟨mid, tpre, tmid⟩
  rw [← hf] at hfree tfree
  rw [← hfa] at hfree hagree
  generalize hm₁ : setFree m f.addr 1 = m₁ at hfree hagree
  -- joined with its successor
  obtain ⟨q, hpre, hmid⟩ := seg_append.mp hfree
  obtain ⟨mid, tpre, tmid⟩ := tiles_append.mp tfree
  have hmidle := tpre.le
  obtain ⟨hnext, hnagree⟩ := mergeNext_seg hmid tmid hff (by omega)
  obtain ⟨c, l, hglue, hca, hcf⟩ := glue_head_free 16 f post
  have hseg := seg_replace hpre hnext tfree hnagree
  have tseg := tiles_append.mpr ⟨mid, tpre, tiles_glue (by decide) tmid⟩
  rw [hglue] at hseg tseg
  have h₂ : HeadersOnly (pre ++ b :: post) m (mergeNext m₁ f.addr) :=
    .of_agree hmem (hfa ▸ hagree.trans hnagree)
  generalize hm₂ : mergeNext m₁ f.addr = m₂ at hseg h₂
  -- joined with its predecessor
  obtain ⟨current, hwalk, hprev⟩ :=
    mergePrev_walk hseg tseg (hcf.trans hff) (by omega) (hfuel _ tseg)
  rw [hca, hfa] at hwalk hprev
  refine ⟨m₂, current, ?_, hwalk, ?_, ?_, ?_⟩
  · rw [← hm₂, ← hm₁, hfa]
  · rcases hprev with ⟨_, h0, _⟩ | ⟨pre', a, rfl, ha, _⟩
    · exact .inl h0
    · exact .inr ⟨a, by simp, ha.symm⟩
  · rcases hprev with ⟨rfl, _, hp, _⟩ | ⟨pre', a, rfl, _, hp, _⟩
    · rw [release_append hne, ← hf, hglue]
      exact hp
    · have hco : Coalesced (pre' ++ a :: b :: post) := by simpa using co
      rw [List.append_assoc, List.singleton_append, release_concat hco hne, ← hf, hglue]
      exact hp
  · rcases hprev with ⟨_, _, _, e⟩ | ⟨pre', a, rfl, _, _, e⟩
    · rw [e]
      exact h₂
    · exact h₂.trans (.of_agree (by simp) e)

/-- What `kfree` of the payload of a used block writes, in terms of the block in front of it. -/
lemma kfree_eq {r : Region} {h : Heap} {bs : List Block} (w : WF r h bs) {b : Block} (hb : b ∈ bs)
    (hf : b.free = false) :
    ∃ current m', m' = mergePrev (mergeNext (setFree h.mem b.addr 1) b.addr) current b.addr ∧
      (current = 0 ∨ ∃ a ∈ bs, a.addr = current) ∧
      Seg m' h.heapHead (release 16 (b.payload 16) bs) 0 ∧ HeadersOnly bs h.mem m' ∧
      kfree h (b.payload 16) = some { h with
        mem := m'
        totalAllocated := (h.totalAllocated + (2 ^ 32 - b.size)) % 2 ^ 32 } := by
  obtain ⟨pre, post, rfl⟩ := List.append_of_mem hb
  obtain ⟨hs, hfree⟩ := w.seg.2 b hb
  obtain ⟨m₂, current, hm₂, hwalk, hcurrent, hseg, hheaders⟩ :=
    kfree_seg w.seg w.tiles w.coalesced r.small fun l t => w.length_lt_fuel t
  have hpay : b.payload 16 ≠ 0 := b.payload_ne_zero (by decide)
  have hsub : b.payload 16 - sizeofMemBlock = b.addr := by
    unfold Block.payload sizeofMemBlock
    omega
  refine ⟨current, _, by rw [hm₂], hcurrent, hseg, hheaders, ?_⟩
  unfold kfree
  rw [if_neg hpay, hsub, if_neg (by rw [hfree, hf]; simp)]
  simp only [← hm₂, hwalk, blkSize_setFree, hs]

/-- `kfree` of a live pointer carries out the release of its block. -/
theorem kfree_live {r : Region} {h : Heap} {bs : List Block} (w : WF r h bs) {p : Nat}
    (hp : p ∈ live 16 bs) :
    ∃ h', kfree h p = some h' ∧ WF r h' (release 16 p bs) ∧ HeadersOnly bs h.mem h'.mem := by
  obtain ⟨pre, b, post, rfl, hbf, rfl⟩ := exists_of_mem_live hp
  have hsmall := r.small
  have hle := used_le w.tiles
  have hused := used_release (by decide : 0 < 16) w.tiles hbf
  obtain ⟨_, _, _, _, hseg, hheaders, hcall⟩ := kfree_eq w (b := b) (by simp) hbf
  refine ⟨_, hcall, ⟨hseg, tiles_release (by decide) w.tiles, coalesced_release w.coalesced, ?_,
    w.heapStart, w.heapEnd⟩, hheaders⟩
  have htotal : (used (pre ++ b :: post) + (2 ^ 32 - b.size)) % 2 ^ 32 =
      used (release 16 (b.payload 16) (pre ++ b :: post)) := by
    omega
  rw [← htotal, ← w.accounted]

end Hydra.Mm
