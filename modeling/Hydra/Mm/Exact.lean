import Hydra.Mm.History

/-!
# What one call does

`kmalloc` and `kfree` in any heap a history can reach, exactly. `kmalloc` takes the lowest free
block with room for the rounded size and touches no other block (`Takes`, `kmalloc_first_fit`).
`kfree` of the pointer it just returned gives the heap back, with the same blocks and links
(`kfree_kmalloc`): the remainder of a split is joined again, and no other neighbour of the freed
block is free, since reachable heaps are coalesced.
-/

namespace Hydra.Mm
open ByteMem Linked FirstFit

section Calls

variable {r : Region} {h h' : Heap} {bs : List Block} {size : UInt32}

/-! ## First fit -/

/-- Block `b`, between the blocks `pre` and `post` of the heap `h`, is used for `n` bytes at `p`. -/
structure Takes (h h' : Heap) (n p : Nat) (pre : List Block) (b : Block) (post : List Block) :
    Prop where
  payload : p = b.addr + sizeofMemBlock
  free : b.free = true
  room : n ≤ b.size
  lowest : ∀ a ∈ pre ++ post, a.free = true → n ≤ a.size → b.addr < a.addr
  /-- The rest is cut off if it is large, and given away if it is at most 48 bytes. -/
  blocks :
    (n + 48 < b.size ∧ 40 ≤ b.size - n - sizeofMemBlock ∧
      h'.blocks = some (pre ++ ⟨b.addr, n, false⟩ ::
        ⟨b.addr + sizeofMemBlock + n, b.size - n - sizeofMemBlock, true⟩ :: post)) ∨
    (b.size - n ≤ 48 ∧ h'.blocks = some (pre ++ ⟨b.addr, b.size, false⟩ :: post))
  outside : AgreeOff b.addr (b.addr + sizeofMemBlock + b.size) h.mem h'.mem

/-- A free block that the search passed over is too small, and one behind the chosen block is
higher. -/
lemma lowest_of_find {n lo hi : Nat} {pre post : List Block} {b : Block}
    (t : Tiles 16 8 lo (pre ++ b :: post) hi) (hpre : ∀ a ∈ pre, ¬a.fits n) :
    ∀ a ∈ pre ++ post, a.free = true → n ≤ a.size → b.addr < a.addr := by
  intro a ha hfree hroom
  rcases List.mem_append.mp ha with ha | ha
  · exact absurd (fits_iff.mpr ⟨hfree, hroom⟩) (hpre a ha)
  · have hpair := (List.pairwise_append.mp t.pairwise).2.1
    have hba := (List.pairwise_cons.mp hpair).1 a ha
    unfold Block.fin at hba
    omega

/-- A call that finds a block takes it. -/
lemma kmalloc_takes (w : WF r h bs) {b : Block}
    (hb : bs.find? (Block.fits (alignSize size).toNat) = some b) :
    ∃ h' pre post, bs = pre ++ b :: post ∧ kmalloc h size = some (b.addr + sizeofMemBlock, h') ∧
      Takes h h' (alignSize size).toNat (b.addr + sizeofMemBlock) pre b post := by
  obtain ⟨h', hcall, w', hagree, _⟩ := kmalloc_some w hb
  have hdvd := alignSize_dvd size
  generalize (alignSize size).toNat = n at *
  obtain ⟨pre, post, rfl, hfit, hpre, halloc⟩ := alloc_of_find 16 48 hb
  obtain ⟨hfree, hroom⟩ := fits_iff.mp hfit
  have hsize : 8 ∣ b.size := w.tiles.dvd_size (by simp)
  refine ⟨h', pre, post, rfl, hcall, rfl, hfree, hroom, lowest_of_find w.tiles hpre, ?_, hagree⟩
  have hblocks := w'.blocks
  rw [halloc] at hblocks
  unfold sizeofMemBlock
  by_cases hc : n + 48 < b.size
  · left
    refine ⟨hc, by omega, ?_⟩
    simpa [carve, hc] using hblocks
  · right
    refine ⟨by omega, ?_⟩
    simpa [carve, hc] using hblocks

/-- `kmalloc` returns null exactly if every free block is too small for the rounded size, and then
changes nothing; otherwise it takes the lowest free block with room. -/
theorem kmalloc_first_fit (r : Region) (m : Mem) (ops : List HeapOp)
    (hok : History.Contract r m ops) (s : History) (hrun : History.run r m ops = some s)
    (size : UInt32) (hsize : size.toNat ≤ 2 ^ 32 - 8) :
    ∃ bs p h', s.heap.blocks = some bs ∧ kmalloc s.heap size = some (p, h') ∧
      (p = 0 ↔ ∀ b ∈ bs, b.free = true → b.size < (size.toNat + 7) / 8 * 8) ∧
      (p = 0 → h' = s.heap) ∧
      (p ≠ 0 → ∃ pre b post, bs = pre ++ b :: post ∧
        Takes s.heap h' ((size.toNat + 7) / 8 * 8) p pre b post) := by
  obtain ⟨bs, w, _⟩ := History.inv_of_run hok hrun
  have hn : (alignSize size).toNat = (size.toNat + 7) / 8 * 8 := by
    rw [alignSize_toNat]
    omega
  cases hfind : bs.find? (Block.fits (alignSize size).toNat) with
  | none =>
    refine ⟨bs, 0, s.heap, w.blocks, kmalloc_none w hfind, iff_of_true rfl ?_, fun _ => rfl,
      fun h0 => absurd rfl h0⟩
    intro b hb hfree
    have hnot := List.find?_eq_none.mp hfind b hb
    rw [hn, fits_iff] at hnot
    by_contra hlt
    exact hnot ⟨hfree, by omega⟩
  | some b =>
    obtain ⟨h', pre, post, hbs, hcall, htakes⟩ := kmalloc_takes w hfind
    have hp : b.addr + sizeofMemBlock ≠ 0 := by
      unfold sizeofMemBlock
      omega
    obtain ⟨hb, hfree, hroom⟩ := fits_of_find hfind
    rw [hn] at htakes hroom
    refine ⟨bs, _, h', w.blocks, hcall, iff_of_false hp fun hall => ?_, fun h0 => absurd h0 hp,
      fun _ => ⟨pre, b, post, hbs, htakes⟩⟩
    have hlt := hall b hb hfree
    omega

/-- The first block that is large enough is behind the one that is in use. -/
theorem kmalloc_first_fit_small :
    ∃ s bs h', History.run smallRegion (fun _ => 0) [.kmalloc 10] = some s ∧
      s.heap.blocks = some bs ∧ kmalloc s.heap 21 = some (4144, h') ∧
      ∃ pre b post, bs = pre ++ b :: post ∧ Takes s.heap h' 24 4144 pre b post := by
  have hok : History.Contract smallRegion (fun _ => 0) [.kmalloc 10] := by decide +kernel
  have hptr : ((History.run smallRegion (fun _ => 0) [.kmalloc 10]).bind fun s =>
      (kmalloc s.heap 21).map Prod.fst) = some 4144 := by decide +kernel
  obtain ⟨s, hrun, hptr⟩ := Option.bind_eq_some_iff.mp hptr
  obtain ⟨bs, p, h', hbs, hcall, _, _, htakes⟩ :=
    kmalloc_first_fit smallRegion (fun _ => 0) [.kmalloc 10] hok s hrun 21 (by decide)
  rw [hcall, Option.map_some, Option.some.injEq] at hptr
  obtain rfl : p = 4144 := hptr
  exact ⟨s, bs, h', hrun, hbs, hcall, htakes (by decide)⟩

/-! ## Free after malloc -/

/-- Heaps that represent the same blocks have the same static variables and the same links. -/
lemma WF.same (w : WF r h bs) (w' : WF r h' bs) :
    h'.state = h.state ∧ ∀ b ∈ bs, blkNext h'.mem b.addr = blkNext h.mem b.addr := by
  constructor
  · unfold Heap.state
    rw [w.heapHead, w'.heapHead, w.heapStart, w'.heapStart, w.heapEnd, w'.heapEnd, w.accounted,
      w'.accounted, w.blocks, w'.blocks]
  · intro b hb
    obtain ⟨pre, post, e⟩ := List.append_of_mem hb
    rw [w.next_eq e, w'.next_eq e]

/-- Freeing what was just allocated undoes the allocation on the block list. -/
lemma kfree_alloc (w : WF r h bs) {b : Block}
    (hb : bs.find? (Block.fits (alignSize size).toNat) = some b)
    (hcall : kmalloc h size = some (b.payload 16, h')) :
    ∃ h'', kfree h' (b.payload 16) = some h'' ∧ WF r h'' bs := by
  obtain ⟨h₁, hcall₁, w₁, _, _⟩ := kmalloc_some w hb
  rw [hcall, Option.some.injEq, Prod.mk.injEq] at hcall₁
  obtain ⟨-, rfl⟩ := hcall₁
  have hlive : b.payload 16 ∈ live 16 (alloc 16 48 (alignSize size).toNat bs) :=
    (live_alloc hb).mem_iff.mpr List.mem_cons_self
  obtain ⟨h'', hfree, w'', _⟩ := kfree_live w₁ hlive
  rw [release_alloc (by decide) (by decide) w.tiles w.coalesced hb] at w''
  exact ⟨h'', hfree, w''⟩

/-- `kfree` undoes `kmalloc`: the static variables are back, and the list has the same blocks with
the same links. -/
theorem kfree_kmalloc (r : Region) (m : Mem) (ops : List HeapOp) (hok : History.Contract r m ops)
    (s : History) (hrun : History.run r m ops = some s) (size : UInt32) (p : Nat) (h' : Heap)
    (hcall : kmalloc s.heap size = some (p, h')) (hp : p ≠ 0) :
    ∃ h'' bs, kfree h' p = some h'' ∧ h''.state = s.heap.state ∧ s.heap.blocks = some bs ∧
      ∀ b ∈ bs, blkNext h''.mem b.addr = blkNext s.heap.mem b.addr := by
  obtain ⟨bs, w, _⟩ := History.inv_of_run hok hrun
  cases hfind : bs.find? (Block.fits (alignSize size).toNat) with
  | none =>
    rw [kmalloc_none w hfind, Option.some.injEq, Prod.mk.injEq] at hcall
    exact absurd hcall.1.symm hp
  | some b =>
    obtain ⟨h₁, hcall₁, _⟩ := kmalloc_some w hfind
    rw [hcall₁, Option.some.injEq, Prod.mk.injEq] at hcall
    obtain ⟨rfl, rfl⟩ := hcall
    obtain ⟨h'', hfree, w''⟩ := kfree_alloc w hfind hcall₁
    obtain ⟨hstate, hlinks⟩ := w.same w''
    exact ⟨h'', bs, hfree, hstate, w.blocks, hlinks⟩

theorem kfree_kmalloc_small :
    ∃ s p h' h'', History.run smallRegion (fun _ => 0) [.kmalloc 10] = some s ∧
      kmalloc s.heap 24 = some (p, h') ∧ p ≠ 0 ∧ kfree h' p = some h'' ∧
      h''.state = s.heap.state := by
  have hok : History.Contract smallRegion (fun _ => 0) [.kmalloc 10] := by decide +kernel
  obtain ⟨s, hrun, _⟩ := History.run_inv hok
  have hmap : ((History.run smallRegion (fun _ => 0) [.kmalloc 10]).bind fun s =>
      (kmalloc s.heap 24).map Prod.fst) = some 4144 := by decide +kernel
  rw [hrun, Option.bind_some, Option.map_eq_some_iff] at hmap
  obtain ⟨⟨p, h'⟩, hcall, hp⟩ := hmap
  have hp0 : p ≠ 0 := by
    intro h0
    simp [h0] at hp
  obtain ⟨h'', _, hfree, hstate, _⟩ :=
    kfree_kmalloc smallRegion (fun _ => 0) [.kmalloc 10] hok s hrun 24 p h' hcall hp0
  exact ⟨s, p, h', h'', hrun, hcall, hp0, hfree, hstate⟩

end Calls

end Hydra.Mm
