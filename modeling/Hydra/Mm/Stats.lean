import Hydra.Mm.History

/-!
# The heap statistics

C `mm_stats` walks over the block list, counts the blocks and the free ones, and adds up the free
sizes. What it prints accounts for every byte of the region, and tells how large a request will
still be met: a free block is at least as large as the free blocks are on average, and at most as
large as all of them together (`stats_account`).
-/

namespace Hydra.Mm
open ByteMem FirstFit

/-- The numbers that `mm_stats` prints. The sum of the free sizes is added up in 32 bits. -/
structure Stats where
  numBlocks : Nat
  numFreeBlocks : Nat
  totalAllocated : Nat
  totalFree : Nat
  deriving DecidableEq, Repr

/-- Count one block. -/
def Stats.add (st : Stats) (m : Mem) (current : Nat) : Stats :=
  let st := { st with numBlocks := st.numBlocks + 1 }
  if blkFree m current ≠ 0 then
    { st with
      numFreeBlocks := st.numFreeBlocks + 1
      totalFree := (st.totalFree + blkSize m current) % 2 ^ 32 }
  else st

/-- The loop of `mm_stats`, with at most `fuel` tests of its condition. -/
def statsLoop (m : Mem) : Nat → Nat → Stats → Option Stats
  | 0, _, _ => none
  | fuel + 1, current, st =>
    if current = 0 then some st else statsLoop m fuel (blkNext m current) (st.add m current)

/-- C `mm_stats`. -/
def mmStats (h : Heap) : Option Stats :=
  statsLoop h.mem h.fuel h.heapHead ⟨0, 0, h.totalAllocated, 0⟩

/-- The loop counts the blocks that the headers represent. -/
lemma statsLoop_seg {m : Mem} {p fuel : Nat} {bs : List Block} (h : Seg m p bs 0)
    (hf : bs.length < fuel) (st : Stats) (hsmall : st.totalFree + vacant bs < 2 ^ 32) :
    statsLoop m fuel p st = some
      { st with
        numBlocks := st.numBlocks + bs.length
        numFreeBlocks := st.numFreeBlocks + (bs.filter Block.free).length
        totalFree := st.totalFree + vacant bs } := by
  induction bs generalizing p fuel st with
  | nil =>
    obtain ⟨n, rfl⟩ : ∃ n, fuel = n + 1 := ⟨fuel - 1, by rw [List.length_nil] at hf; omega⟩
    simp [statsLoop, seg_nil.mp h, vacant]
  | cons b bs ih =>
    obtain ⟨n, rfl⟩ : ∃ n, fuel = n + 1 := ⟨fuel - 1, by omega⟩
    obtain ⟨rfl, h0, ⟨hs, hfree⟩, hrest⟩ := seg_cons.mp h
    have hlen : bs.length < n := by simpa using hf
    rw [vacant_cons] at hsmall ⊢
    unfold statsLoop
    rw [if_neg h0]
    cases hb : b.free with
    | false =>
      have hzero : blkFree m b.addr = 0 := by simp [hfree, hb]
      rw [hb] at hsmall
      have hadd : st.add m b.addr = { st with numBlocks := st.numBlocks + 1 } := by
        unfold Stats.add
        rw [if_neg (not_not_intro hzero)]
      rw [hadd, ih hrest hlen _ (by simpa using hsmall)]
      simp [hb, Nat.add_assoc, Nat.add_comm 1]
    | true =>
      have hone : blkFree m b.addr ≠ 0 := by simp [hfree, hb]
      simp only [hb, if_true] at hsmall ⊢
      have hmod : (st.totalFree + b.size) % 2 ^ 32 = st.totalFree + b.size :=
        Nat.mod_eq_of_lt (by omega)
      have hadd : st.add m b.addr = ⟨st.numBlocks + 1, st.numFreeBlocks + 1, st.totalAllocated,
          st.totalFree + b.size⟩ := by
        unfold Stats.add
        rw [if_pos hone, hs, hmod]
      rw [hadd, ih hrest hlen _ (by simpa [Nat.add_assoc] using hsmall)]
      simp [hb, Nat.add_assoc, Nat.add_comm 1]

section Account

variable {r : Region} {h : Heap} {bs : List Block}

lemma mmStats_eq (w : WF r h bs) :
    mmStats h = some ⟨bs.length, (bs.filter Block.free).length, used bs, vacant bs⟩ := by
  have hsizes := w.tiles.sizes
  have hsmall := r.small
  unfold mmStats
  rw [statsLoop_seg w.seg (by simpa using w.length_lt_fuel w.tiles) _ (by simp; omega), w.accounted]
  simp

/-- A request is met if it is at most the average size of the free blocks. -/
lemma find_of_average {n : Nat} (hne : (bs.filter Block.free).length ≠ 0)
    (h : (bs.filter Block.free).length * n ≤ vacant bs) :
    ∃ b, bs.find? (Block.fits n) = some b := by
  have hsum : ((bs.filter Block.free).map fun _ => n).sum ≤
      ((bs.filter Block.free).map Block.size).sum := by
    simpa [vacant] using h
  have hfrees : bs.filter Block.free ≠ [] := List.ne_nil_of_length_pos (Nat.pos_of_ne_zero hne)
  obtain ⟨b, hb, hle⟩ := List.exists_le_of_sum_le hfrees _ _ hsum
  obtain ⟨hmem, hfree⟩ := List.mem_filter.mp hb
  cases hfind : bs.find? (Block.fits n) with
  | some b => exact ⟨b, rfl⟩
  | none => exact absurd (fits_iff.mpr ⟨hfree, hle⟩) (List.find?_eq_none.mp hfind b hmem)

/-- A request is not met if it is larger than all free blocks together. -/
lemma find_none_of_vacant {n : Nat} (h : vacant bs < n) : bs.find? (Block.fits n) = none := by
  refine List.find?_eq_none.mpr fun b hb hfit => ?_
  obtain ⟨hfree, hle⟩ := fits_iff.mp hfit
  have hle' : b.size ≤ vacant bs :=
    List.single_le_sum (fun _ _ => Nat.zero_le _) _
      (List.mem_map_of_mem (List.mem_filter.mpr ⟨hb, hfree⟩))
  omega

end Account

/-- On every reachable heap, `mm_stats` prints the number of its blocks, the number and the sizes of
the free ones among them, and the sizes of the used ones, which are as many as there are live
pointers. The allocated bytes, the free bytes and the headers add up to the region, and at most one
more block is free than used. A request is met if it is at most the average size of the free blocks,
and not if it is larger than all free bytes. -/
theorem stats_account (r : Region) (m : Mem) (ops : List HeapOp) (hok : History.Contract r m ops)
    (s : History) (hrun : History.run r m ops = some s) :
    ∃ bs st, Represents r s bs ∧ mmStats s.heap = some st ∧
      (st.numBlocks = bs.length ∧ st.numFreeBlocks = (bs.filter Block.free).length ∧
        st.totalFree = ((bs.filter Block.free).map Block.size).sum ∧
        st.totalAllocated = ((bs.filter fun b => !b.free).map Block.size).sum ∧
        st.numBlocks = s.livePtrs.length + st.numFreeBlocks) ∧
      st.totalAllocated + st.totalFree + sizeofMemBlock * st.numBlocks = r.stop - r.start ∧
      st.totalAllocated = s.heap.totalAllocated ∧ 2 * st.numFreeBlocks ≤ st.numBlocks + 1 ∧
      ∀ size : UInt32,
        (st.numFreeBlocks ≠ 0 → st.numFreeBlocks * (alignSize size).toNat ≤ st.totalFree →
          ∃ p h', kmalloc s.heap size = some (p, h') ∧ p ≠ 0) ∧
        (st.totalFree < (alignSize size).toNat → kmalloc s.heap size = some (0, s.heap)) := by
  have hinv := History.inv_of_run hok hrun
  obtain ⟨bs, hrep⟩ := hinv.represents
  obtain ⟨bs', w, -⟩ := hinv
  obtain rfl : bs' = bs := Option.some.inj (w.blocks.symm.trans hrep.walked)
  have hsizes := w.tiles.sizes
  have hlive : bs'.length = s.livePtrs.length + (bs'.filter Block.free).length := by
    rw [hrep.live.length_eq, List.length_map, List.length_eq_length_filter_add Block.free]
    exact Nat.add_comm _ _
  refine ⟨bs', _, hrep, mmStats_eq w, ⟨rfl, rfl, rfl, rfl, hlive⟩, ?_, w.accounted.symm,
    w.coalesced.length_le, fun size => ⟨?_, ?_⟩⟩
  · show used bs' + vacant bs' + 16 * bs'.length = _
    omega
  · intro hne hle
    obtain ⟨b, hb⟩ := find_of_average hne hle
    obtain ⟨h', e, _⟩ := kmalloc_some w hb
    exact ⟨_, h', e, b.payload_ne_zero (by decide)⟩
  · intro hlt
    exact kmalloc_none w (find_none_of_vacant hlt)

/-- The first block is free again, the second one is used, and the rest of the region is free. -/
theorem stats_account_small :
    ∃ s bs, History.run smallRegion (fun _ => 0) [.kmalloc 10, .kmalloc 24, .kfree 4112] = some s ∧
      Represents smallRegion s bs ∧ mmStats s.heap = some ⟨3, 2, 24, 184⟩ ∧ bs.length = 3 ∧
      (bs.filter Block.free).length = 2 ∧ ((bs.filter Block.free).map Block.size).sum = 184 := by
  have hok : History.Contract smallRegion (fun _ => 0) [.kmalloc 10, .kmalloc 24, .kfree 4112] := by
    decide +kernel
  have hstats : ((History.run smallRegion (fun _ => 0)
      [.kmalloc 10, .kmalloc 24, .kfree 4112]).bind fun s => mmStats s.heap) =
      some ⟨3, 2, 24, 184⟩ := by
    decide +kernel
  obtain ⟨s, hrun, e'⟩ := Option.bind_eq_some_iff.mp hstats
  obtain ⟨bs, st, hrep, e, ⟨hblocks, hfrees, hvacant, _⟩, _⟩ :=
    stats_account smallRegion (fun _ => 0) _ hok s hrun
  obtain rfl := Option.some.inj (e.symm.trans e')
  exact ⟨s, bs, hrun, hrep, e', hblocks.symm, hfrees.symm, hvacant.symm⟩

end Hydra.Mm
