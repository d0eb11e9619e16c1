import Hydra.LibC.Stdlib
import Hydra.Mm.Frame

/-!
# calloc and realloc

The two remaining allocation functions of `lib/libc/stdlib.c`. `calloc` multiplies in 64 bits and
zeroes that many bytes, whatever the allocator granted; `calloc_zeroed` says exactly when the call
keeps its promise. `realloc` does not know the size of the old block and copies as many bytes as the
new one has. Which bytes it reads is in `realloc_reads`; as far as both blocks reach, the contents
are kept, and no other payload is touched (`realloc_keeps`).
-/

namespace Hydra.LibC
open ByteMem FirstFit Hydra.Mm

/-- `for (i = 0; i < n; i++) byte_ptr[i] = 0;` -/
def zeroBytes (bytePtr : Nat) : Nat → Mem → Mem
  | 0, m => m
  | n + 1, m => Function.update (zeroBytes bytePtr n m) (bytePtr + n) 0

/-- C `calloc`: the product is a 64-bit number. -/
def calloc (h : Heap) (num size : UInt64) : Option (Nat × Heap) :=
  let totalSize := num * size
  (malloc h totalSize).map fun (ptr, h) =>
    if ptr = 0 then (ptr, h) else (ptr, { h with mem := zeroBytes ptr totalSize.toNat h.mem })

/-- `for (i = 0; i < n; i++) new_bytes[i] = old_bytes[i];`, with the indices that were read. Both
buffers lie in the same memory. -/
def copyBytes (oldBytes newBytes : Nat) : Nat → Mem → Mem × List Nat
  | 0, m => (m, [])
  | n + 1, m =>
    let (m, reads) := copyBytes oldBytes newBytes n m
    (Function.update m (newBytes + n) (m (oldBytes + n)), reads ++ [n])

/-- What `realloc` does before it frees the old block: allocate and copy. -/
def reallocCopy (h : Heap) (ptr : Nat) (size : UInt64) : Option (Nat × Heap × List Nat) :=
  (malloc h size).map fun (newPtr, h) =>
    if newPtr = 0 then (0, h, [])
    else
      -- the old size is not known, so the new one is copied
      let (m, reads) := copyBytes ptr newPtr size.toNat h.mem
      (newPtr, { h with mem := m }, reads)

/-- C `realloc`. -/
def realloc (h : Heap) (ptr : Nat) (size : UInt64) : Option (Nat × Heap) :=
  if ptr = 0 then malloc h size
  else if size = 0 then (free h ptr).map fun h => (0, h)
  else
    (reallocCopy h ptr size).bind fun (newPtr, h, _) =>
      if newPtr = 0 then some (0, h) else (free h ptr).map fun h => (newPtr, h)

/-- The indices of the bytes that `realloc` reads from the old block. -/
def reallocReads (h : Heap) (ptr : Nat) (size : UInt64) : List Nat :=
  if ptr = 0 ∨ size = 0 then []
  else ((reallocCopy h ptr size).map fun c => c.2.2).getD []

/-! ## The loops -/

lemma zeroBytes_apply (p n : Nat) (m : Mem) (x : Nat) :
    zeroBytes p n m x = if p ≤ x ∧ x < p + n then 0 else m x := by
  induction n with
  | zero =>
    rw [if_neg (by omega)]
    rfl
  | succ n ih =>
    rcases eq_or_ne x (p + n) with rfl | hne
    · simp [zeroBytes]
    · have hiff : (p ≤ x ∧ x < p + (n + 1)) ↔ (p ≤ x ∧ x < p + n) := by omega
      simp only [zeroBytes, Function.update_of_ne hne, ih, hiff]

lemma copyBytes_reads (old new n : Nat) (m : Mem) : (copyBytes old new n m).2 = List.range n := by
  induction n with
  | zero => rfl
  | succ n ih =>
    simp only [copyBytes]
    rw [ih, List.range_succ]

lemma copyBytes_frame (old new n : Nat) (m : Mem) :
    AgreeOff new (new + n) m (copyBytes old new n m).1 := by
  induction n with
  | zero => exact fun _ _ => rfl
  | succ n ih =>
    intro x hx
    have hne : x ≠ new + n := by omega
    simp only [copyBytes, Function.update_of_ne hne]
    exact ih x (by omega)

/-- Bytes that the loop does not overwrite itself are copied. -/
lemma copyBytes_apply {old new n i : Nat} (m : Mem) (hi : i < n)
    (hd : old + i < new ∨ new + n ≤ old + i) :
    (copyBytes old new n m).1 (new + i) = m (old + i) := by
  induction n with
  | zero => omega
  | succ n ih =>
    rcases eq_or_ne i n with rfl | hne
    · simp only [copyBytes, Function.update_self]
      exact copyBytes_frame old new i m _ (by omega)
    · have hne' : new + i ≠ new + n := by omega
      simp only [copyBytes, Function.update_of_ne hne']
      exact ih (by omega) (by omega)

variable {r : Region} {h : Heap} {bs : List Block}

/-! ## calloc -/

/-- A call of `calloc` returned null or a zeroed payload for `n` bytes, and wrote nothing else but
block headers. -/
def CallocOk (h : Heap) (n : Nat) (call : Option (Nat × Heap)) : Prop :=
  ∃ p h' bs', call = some (p, h') ∧ h'.blocks = some bs' ∧
    (p ≠ 0 → n ≤ blkSize h'.mem (p - sizeofMemBlock) ∧ ∀ i < n, h'.mem (p + i) = 0) ∧
    ∀ x, ¬(p ≠ 0 ∧ p ≤ x ∧ x < p + blkSize h'.mem (p - sizeofMemBlock)) →
      (∀ b ∈ bs', x < b.addr ∨ b.addr + sizeofMemBlock ≤ x) → h'.mem x = h.mem x

lemma toUInt32_mul (num size : UInt64) :
    (num * size).toUInt32 = UInt32.ofNat (num.toNat * size.toNat) := by
  apply UInt32.toNat_inj.mp
  rw [UInt64.toNat_toUInt32, UInt64.toNat_mul, UInt32.toNat_ofNat']
  exact Nat.mod_mod_of_dvd _ (by decide)

lemma calloc_eq {num size : UInt64} {p : Nat} {h' : Heap}
    (hcall : malloc h (num * size) = some (p, h')) :
    calloc h num size = some (if p = 0 then (p, h') else
      (p, { h' with mem := zeroBytes p (num * size).toNat h'.mem })) := by
  simp only [calloc, hcall, Option.map_some]

/-- A product that does not wrap when it is rounded up is granted and zeroed. -/
lemma calloc_ok (w : WF r h bs) {num size : UInt64}
    (hn : num.toNat * size.toNat ≤ 2 ^ 32 - 8) :
    CallocOk h (num.toNat * size.toNat) (calloc h num size) := by
  have htotal : (num * size).toNat = num.toNat * size.toNat := by
    rw [UInt64.toNat_mul]
    omega
  have hsize : (num * size).toUInt32.toNat = num.toNat * size.toNat := by
    rw [UInt64.toNat_toUInt32, htotal]
    omega
  have hround := (alignSize_of_le (hsize ▸ hn)).1
  rw [hsize] at hround
  cases hfind : bs.find? (Block.fits (alignSize (num * size).toUInt32).toNat) with
  | none =>
    exact ⟨0, h, bs, calloc_eq (kmalloc_none w hfind), w.blocks, fun h0 => absurd rfl h0,
      fun _ _ _ => rfl⟩
  | some b =>
    obtain ⟨h', hcall, w', hroom, hheaders⟩ := kmalloc_block w hfind
    have hnew : ⟨b.addr, granted 48 (alignSize (num * size).toUInt32).toNat b, false⟩ ∈
        alloc 16 48 (alignSize (num * size).toUInt32).toNat bs := mem_alloc hfind
    generalize alloc 16 48 (alignSize (num * size).toUInt32).toNat bs = bs' at *
    generalize granted 48 (alignSize (num * size).toUInt32).toNat b = g at *
    have hpay : b.payload 16 ≠ 0 := b.payload_ne_zero (by decide)
    have hfill : ∀ x, zeroBytes (b.payload 16) (num * size).toNat h'.mem x =
        if b.payload 16 ≤ x ∧ x < b.payload 16 + num.toNat * size.toNat then 0 else h'.mem x := by
      intro x
      rw [zeroBytes_apply, htotal]
    have hinside : AgreeOff (b.payload 16) (Block.fin 16 ⟨b.addr, g, false⟩) h'.mem
        (zeroBytes (b.payload 16) (num * size).toNat h'.mem) := by
      intro x hx
      rw [hfill, if_neg]
      unfold Block.payload Block.fin at *
      dsimp only at hx
      omega
    have w'' := w'.payload_write hnew hinside
    have hpsize := w''.payload_size hnew
    refine ⟨b.payload 16, _, bs', (calloc_eq hcall).trans (congrArg some (if_neg hpay)), w''.blocks,
      fun _ => ⟨?_, fun i hi => ?_⟩, fun x hx hout => ?_⟩
    · exact (hround.trans hroom).trans hpsize.ge
    · exact (hfill _).trans (if_pos (by omega))
    · have hx' : ¬(b.payload 16 ≤ x ∧ x < b.payload 16 + num.toNat * size.toNat) := by
        rintro ⟨hlo, hhi⟩
        refine hx ⟨hpay, hlo, hhi.trans_le ?_⟩
        have hle := (hround.trans hroom).trans hpsize.ge
        exact Nat.add_le_add_left hle _
      exact ((hfill x).trans (if_neg hx')).trans (hheaders x hout)

/-- `calloc` keeps its promise only if `malloc` keeps the size guarantee for the exact product. -/
lemma guarantee_of_calloc (w : WF r h bs) {num size : UInt64} {n : Nat}
    (hc : CallocOk h n (calloc h num size)) : SizeGuarantee h n (malloc h (num * size)) := by
  obtain ⟨p, h', _, hcall, _, hpay, _⟩ := hc
  by_cases hs : Satisfiable h (alignSize (num * size).toUInt32).toNat
  · obtain ⟨b, hb, hfree, _, h₁, hmalloc, hgranted⟩ := kmalloc_granted w hs
    have hp0 : b.payload 16 ≠ 0 := b.payload_ne_zero (by decide)
    rw [calloc_eq hmalloc, if_neg hp0, Option.some.injEq, Prod.mk.injEq] at hcall
    obtain ⟨rfl, rfl⟩ := hcall
    -- the zeroing loop starts behind the header
    have hsame : blkSize (zeroBytes (b.payload 16) (num * size).toNat h₁.mem)
        (b.payload 16 - sizeofMemBlock) = blkSize h₁.mem (b.payload 16 - sizeofMemBlock) := by
      refine load_congr fun x _ hx => ?_
      rw [zeroBytes_apply, if_neg]
      unfold Block.payload sizeofMemBlock at *
      omega
    have hle := (hpay hp0).1
    dsimp only at hle
    rw [hsame] at hle
    refine ⟨_, h₁, hmalloc, fun _ => hle, fun hns => absurd ?_ hns⟩
    rw [hgranted] at hle
    refine (satisfiable_iff w n).mpr ⟨b, hb, hfree, hle.trans ?_⟩
    unfold granted
    split <;> omega
  · have hmalloc := kmalloc_none w ((find_eq_none_iff w _).mpr hs)
    exact ⟨0, h, hmalloc, fun h0 => absurd rfl h0, fun _ => rfl⟩

/-- A call of `calloc` returns null or a zeroed payload for the exact product, and writes nothing
else but headers, exactly when the product does not wrap on its way to the allocator. -/
theorem calloc_zeroed (r : Region) (m : Mem) (ops : List HeapOp)
    (hok : History.Contract r m ops) (s : History) (hrun : History.run r m ops = some s)
    (num size : UInt64) :
    CallocOk s.heap (num.toNat * size.toNat) (calloc s.heap num size) ↔
      NoWrap s.heap (num.toNat * size.toNat) := by
  obtain ⟨bs, w, _⟩ := History.inv_of_run hok hrun
  constructor
  · intro hc
    exact (guarantee_iff w (toUInt32_mul num size)).mp (guarantee_of_calloc w hc)
  · rintro (hle | hns)
    · exact calloc_ok w hle
    · have hcall := kmalloc_none w ((find_eq_none_iff w _).mpr hns)
      rw [← toUInt32_mul] at hcall
      exact ⟨0, s.heap, bs, calloc_eq hcall, w.blocks, fun h0 => absurd rfl h0, fun _ _ _ => rfl⟩

theorem calloc_zeroed_small :
    ∃ s, History.run smallRegion (fun _ => 7) [.kmalloc 10] = some s ∧
      CallocOk s.heap 15 (calloc s.heap 3 5) := by
  have hok : History.Contract smallRegion (fun _ => 7) [.kmalloc 10] := by decide +kernel
  obtain ⟨s, hrun, _⟩ := History.run_inv hok
  exact ⟨s, hrun, (calloc_zeroed smallRegion (fun _ => 7) [.kmalloc 10] hok s hrun 3 5).mpr
    (.inl (by decide))⟩

/-- The product of `2 ^ 63` and 2 is 0 in 64 bits, and the call returns a payload of no bytes. -/
theorem calloc_zeroed_fails :
    History.run smallRegion (fun _ => 0) [] = some (History.init smallRegion fun _ => 0) ∧
      ¬CallocOk (History.init smallRegion fun _ => 0).heap 18446744073709551616
        (calloc (History.init smallRegion fun _ => 0).heap 9223372036854775808 2) := by
  refine ⟨rfl, ?_⟩
  rintro ⟨p, h', _, hcall, _, hpay, _⟩
  have hmap : (calloc (History.init smallRegion fun _ => 0).heap 9223372036854775808 2).map
      (fun c => (c.1, blkSize c.2.mem (c.1 - sizeofMemBlock))) = some (4112, 0) := by
    decide +kernel
  rw [hcall, Option.map_some, Option.some.injEq, Prod.mk.injEq] at hmap
  obtain ⟨hp, hsize⟩ := hmap
  dsimp only at hp hsize
  have hle := (hpay (by omega)).1
  omega

/-! ## realloc -/

lemma reallocCopy_none {size : UInt64} (ptr : Nat) (hcall : malloc h size = some (0, h)) :
    reallocCopy h ptr size = some (0, h, []) := by
  simp [reallocCopy, hcall]

lemma reallocCopy_some {size : UInt64} {q : Nat} {h' : Heap} (ptr : Nat)
    (hcall : malloc h size = some (q, h')) (hq : q ≠ 0) :
    reallocCopy h ptr size =
      some (q, { h' with mem := (copyBytes ptr q size.toNat h'.mem).1 }, List.range size.toNat) := by
  simp [reallocCopy, hcall, hq, copyBytes_reads]

/-- The indices read are those below the new size, if there is a new block at all. -/
lemma mem_reallocReads (w : WF r h bs) {p : Nat} (hp : p ≠ 0) (size : UInt64) (i : Nat) :
    i ∈ reallocReads h p size ↔
      i < size.toNat ∧ Satisfiable h (alignSize size.toUInt32).toNat := by
  unfold reallocReads
  by_cases h0 : size = 0
  · subst h0
    simp
  · rw [if_neg (by tauto)]
    by_cases hs : Satisfiable h (alignSize size.toUInt32).toNat
    · obtain ⟨b, _, _, _, h', hcall, _⟩ := kmalloc_granted w hs
      have hpay : b.payload 16 ≠ 0 := b.payload_ne_zero (by decide)
      rw [reallocCopy_some p hcall hpay]
      simp [hs]
    · rw [reallocCopy_none p (kmalloc_none w ((find_eq_none_iff w _).mpr hs))]
      simp [hs]

/-- `realloc` reads the bytes of the old block up to the new size if it gets a new block, and no
others. So it stays inside the old payload exactly if that is as long as the new size, or if there
is no block to copy to. -/
theorem realloc_reads (r : Region) (m : Mem) (ops : List HeapOp)
    (hok : History.Contract r m ops) (s : History) (hrun : History.run r m ops = some s)
    (p : Nat) (hp : p ∈ s.livePtrs) (size : UInt64) :
    (∀ i, i ∈ reallocReads s.heap p size ↔
      i < size.toNat ∧ Satisfiable s.heap (alignSize size.toUInt32).toNat) ∧
    ((∀ i ∈ reallocReads s.heap p size, i < blkSize s.heap.mem (p - sizeofMemBlock)) ↔
      size.toNat ≤ blkSize s.heap.mem (p - sizeofMemBlock) ∨
        ¬Satisfiable s.heap (alignSize size.toUInt32).toNat) := by
  obtain ⟨bs, w, hlive⟩ := History.inv_of_run hok hrun
  obtain ⟨c, _, _, rfl⟩ := mem_live.mp (hlive.mem_iff.mp hp)
  have hp0 : c.payload 16 ≠ 0 := c.payload_ne_zero (by decide)
  have hreads := mem_reallocReads w hp0 size
  refine ⟨hreads, ?_⟩
  generalize blkSize s.heap.mem (c.payload 16 - sizeofMemBlock) = n
  constructor
  · intro hall
    by_contra hcon
    obtain ⟨hlt, hs⟩ := not_or.mp hcon
    have hn := hall n ((hreads n).mpr ⟨by omega, not_not.mp hs⟩)
    omega
  · rintro (hle | hns) i hi
    · have hlt := ((hreads i).mp hi).1
      omega
    · exact absurd ((hreads i).mp hi).2 hns

theorem realloc_reads_small :
    ∃ s, History.run smallRegion (fun _ => 0) [.kmalloc 24] = some s ∧ 4112 ∈ s.livePtrs ∧
      ∀ i ∈ reallocReads s.heap 4112 10, i < blkSize s.heap.mem (4112 - sizeofMemBlock) := by
  have hok : History.Contract smallRegion (fun _ => 0) [.kmalloc 24] := by decide +kernel
  have hmap : (History.run smallRegion (fun _ => 0) [.kmalloc 24]).map (fun s =>
      (s.livePtrs, blkSize s.heap.mem (4112 - sizeofMemBlock))) = some ([4112], 24) := by
    decide +kernel
  obtain ⟨s, hrun, hs⟩ := Option.map_eq_some_iff.mp hmap
  obtain ⟨hlive, hsize⟩ := Prod.mk.inj hs
  have hp : 4112 ∈ s.livePtrs := by simp [hlive]
  refine ⟨s, hrun, hp, ?_⟩
  refine (realloc_reads smallRegion (fun _ => 0) [.kmalloc 24] hok s hrun 4112 hp 10).2.mpr (.inl ?_)
  rw [hsize]
  decide

/-- Growing a block of 24 bytes to 32 reads the eight bytes behind it, which are the header of the
next block. -/
theorem realloc_reads_fails :
    ∃ s, History.run smallRegion (fun _ => 0) [.kmalloc 24] = some s ∧ 4112 ∈ s.livePtrs ∧
      24 ∈ reallocReads s.heap 4112 32 ∧ ¬24 < blkSize s.heap.mem (4112 - sizeofMemBlock) := by
  have hmap : (History.run smallRegion (fun _ => 0) [.kmalloc 24]).map (fun s =>
      (s.livePtrs, blkSize s.heap.mem (4112 - sizeofMemBlock),
        decide (24 ∈ reallocReads s.heap 4112 32))) = some ([4112], 24, true) := by
    decide +kernel
  obtain ⟨s, hrun, hs⟩ := Option.map_eq_some_iff.mp hmap
  simp only [Prod.mk.injEq, decide_eq_true_eq] at hs
  obtain ⟨hlive, hsize, hread⟩ := hs
  exact ⟨s, hrun, by simp [hlive], hread, by omega⟩

/-- Payloads of different blocks do not overlap. -/
lemma payload_off (w : WF r h bs) {b d : Block} (hb : b ∈ bs) (hd : d ∈ bs) (hbd : b ≠ d) {i : Nat}
    (hi : i < d.size) :
    d.payload 16 + i < b.payload 16 ∨ b.payload 16 + b.size ≤ d.payload 16 + i := by
  have hapart := w.tiles.payloads_apart hb hd hbd
  unfold Block.payload Block.fin at *
  omega

/-- A call that finds no block for the new size changes nothing. -/
lemma realloc_none (w : WF r h bs) {size : UInt64} {p : Nat} (hp : p ≠ 0) (h0 : size ≠ 0)
    (hb : bs.find? (Block.fits (alignSize size.toUInt32).toNat) = none) :
    realloc h p size = some (0, h) := by
  unfold realloc
  rw [if_neg hp, if_neg h0, reallocCopy_none p (kmalloc_none w hb)]
  rfl

/-- A call that finds a block `b` for the new size moves the bytes of the used block `c` there and
frees `c`. The payloads of used blocks, that of `c` included, are not written. -/
lemma realloc_moves (w : WF r h bs) {size : UInt64} {b c : Block}
    (hb : bs.find? (Block.fits (alignSize size.toUInt32).toNat) = some b) (hc : c ∈ bs)
    (hf : c.free = false) (h0 : size ≠ 0) (hle : size.toNat ≤ (alignSize size.toUInt32).toNat) :
    ∃ h', realloc h (c.payload 16) size = some (b.payload 16, h') ∧
      WF r h' (release 16 (c.payload 16) (alloc 16 48 (alignSize size.toUInt32).toNat bs)) ∧
      (∀ i < c.size, i < size.toNat → h'.mem (b.payload 16 + i) = h.mem (c.payload 16 + i)) ∧
      ∀ d ∈ bs, d.free = false →
        ∀ i < d.size, h'.mem (d.payload 16 + i) = h.mem (d.payload 16 + i) := by
  obtain ⟨h₁, hcall, w₁, hroom, hheaders₁⟩ := kmalloc_block w hb
  obtain ⟨hbmem, _, hbroom⟩ := fits_of_find hb
  have hfit : granted 48 (alignSize size.toUInt32).toNat b ≤ b.size := (granted_le hbroom).2
  have hnew : ⟨b.addr, granted 48 (alignSize size.toUInt32).toNat b, false⟩ ∈
      alloc 16 48 (alignSize size.toUInt32).toNat bs := mem_alloc hb
  have hkept : ∀ d ∈ bs, d.free = false → d ∈ alloc 16 48 (alignSize size.toUInt32).toNat bs :=
    fun d hd hdf => mem_alloc_of_used hb hd hdf
  generalize alloc 16 48 (alignSize size.toUInt32).toNat bs = bs₁ at *
  generalize granted 48 (alignSize size.toUInt32).toNat b = g at *
  -- the copy writes inside the new payload
  have hcopy := copyBytes_frame (c.payload 16) (b.payload 16) size.toNat h₁.mem
  have hbytes : ∀ i < size.toNat,
      c.payload 16 + i < b.payload 16 ∨ b.payload 16 + size.toNat ≤ c.payload 16 + i →
      (copyBytes (c.payload 16) (b.payload 16) size.toNat h₁.mem).1 (b.payload 16 + i) =
        h₁.mem (c.payload 16 + i) := fun i hi hd => copyBytes_apply h₁.mem hi hd
  generalize hm₂ : (copyBytes (c.payload 16) (b.payload 16) size.toNat h₁.mem).1 = m₂ at *
  have w₂ : WF r { h₁ with mem := m₂ } bs₁ := by
    refine w₁.payload_write hnew (hcopy.mono le_rfl ?_)
    unfold Block.payload Block.fin
    dsimp only
    omega
  have hoff : ∀ d ∈ bs, d.free = false → ∀ i < d.size,
      d.payload 16 + i < b.payload 16 ∨ b.payload 16 + size.toNat ≤ d.payload 16 + i := by
    intro d hd hdf i hi
    have h := payload_off w hbmem hd (ne_of_find hb hdf) hi
    omega
  -- the old block is freed
  have hlive : c.payload 16 ∈ live 16 bs₁ := mem_live.mpr ⟨c, hkept c hc hf, hf, rfl⟩
  obtain ⟨h', hfree, w', hheaders'⟩ := kfree_live w₂ hlive
  have hpc : c.payload 16 ≠ 0 := c.payload_ne_zero (by decide)
  have hpb : b.payload 16 ≠ 0 := b.payload_ne_zero (by decide)
  refine ⟨h', ?_, w', fun i hi hlt => ?_, fun d hd hdf i hi => ?_⟩
  · unfold realloc
    rw [if_neg hpc, if_neg h0, reallocCopy_some _ hcall hpb, Option.bind_some]
    simp only [if_neg hpb, hm₂, free, hfree, Option.map_some]
  · have hnewByte := hheaders'.payload w₂ hnew (hlt.trans_le (hle.trans hroom))
    have hold := hheaders₁.payload w₁ (hkept c hc hf) hi
    exact (hnewByte.trans (hbytes i hlt (hoff c hc hf i hi))).trans hold
  · have hlast := hheaders'.payload w₂ (hkept d hd hdf) hi
    have hmid := hcopy _ (hoff d hd hdf i hi)
    have hfirst := hheaders₁.payload w₁ (hkept d hd hdf) hi
    exact (hlast.trans hmid).trans hfirst

/-- The live pointers after a move from `c` to `b`. -/
lemma live_realloc {n p : Nat} {b : Block} {livePtrs : List Nat}
    (hb : bs.find? (Block.fits n) = some b) (hlive : livePtrs.Perm (live 16 bs)) (hp : p ∈ livePtrs)
    (hbp : b.payload 16 ≠ p) (t : Tiles 16 8 r.start (alloc 16 48 n bs) r.stop) :
    (b.payload 16 :: livePtrs.erase p).Perm (live 16 (release 16 p (alloc 16 48 n bs))) := by
  have halloc : (live 16 (alloc 16 48 n bs)).Perm (b.payload 16 :: live 16 bs) := live_alloc hb
  have hmem : p ∈ live 16 (alloc 16 48 n bs) :=
    halloc.mem_iff.mpr (List.mem_cons_of_mem _ (hlive.mem_iff.mp hp))
  have herase := (live_release_of_mem (by decide) t hmem).trans (halloc.erase p)
  rw [List.erase_cons_tail (by simpa using hbp)] at herase
  exact ((hlive.erase p).cons _).trans herase.symm

/-- `realloc` of a live pointer to a size that fits in 32 bits after rounding. When it returns null
nothing has changed. Otherwise the new pointer is live instead of the old one, its payload has room
for the new size and begins with the old contents, and the other payloads are as they were. -/
theorem realloc_keeps (r : Region) (m : Mem) (ops : List HeapOp)
    (hok : History.Contract r m ops) (s : History) (hrun : History.run r m ops = some s)
    (p : Nat) (hp : p ∈ s.livePtrs) (size : UInt64) (hpos : 1 ≤ size.toNat)
    (hle : size.toNat ≤ 2 ^ 32 - 8) :
    ∃ q h', realloc s.heap p size = some (q, h') ∧ (q = 0 → h' = s.heap) ∧
      (q ≠ 0 →
        (∃ bs', Represents r ⟨h', q :: s.livePtrs.erase p⟩ bs') ∧ p ∉ q :: s.livePtrs.erase p ∧
        size.toNat ≤ blkSize h'.mem (q - sizeofMemBlock) ∧
        (∀ i < min (blkSize s.heap.mem (p - sizeofMemBlock)) size.toNat,
          h'.mem (q + i) = s.heap.mem (p + i)) ∧
        ∀ c ∈ s.livePtrs, c ≠ p →
          blkSize h'.mem (c - sizeofMemBlock) = blkSize s.heap.mem (c - sizeofMemBlock) ∧
          ∀ i < blkSize s.heap.mem (c - sizeofMemBlock), h'.mem (c + i) = s.heap.mem (c + i)) := by
  obtain ⟨bs, w, hlive⟩ := History.inv_of_run hok hrun
  have h0 : size ≠ 0 := by
    rintro rfl
    exact absurd hpos (by decide)
  have hsize : size.toUInt32.toNat = size.toNat := by
    rw [UInt64.toNat_toUInt32]
    omega
  have hround := (alignSize_of_le (hsize ▸ hle)).1
  rw [hsize] at hround
  obtain ⟨c, hc, hf, rfl⟩ := mem_live.mp (hlive.mem_iff.mp hp)
  cases hfind : bs.find? (Block.fits (alignSize size.toUInt32).toNat) with
  | none =>
    have hpc : c.payload 16 ≠ 0 := c.payload_ne_zero (by decide)
    have hcall := realloc_none w hpc h0 hfind
    exact ⟨0, s.heap, hcall, fun _ => rfl, fun hq => absurd rfl hq⟩
  | some b =>
    obtain ⟨h', hcall, w', hmoved, hkept⟩ := realloc_moves w hfind hc hf h0 hround
    obtain ⟨hb, _, hroom⟩ := fits_of_find hfind
    have hbc : b.payload 16 ≠ c.payload 16 := fun e =>
      ne_of_find hfind hf (w.tiles.payload_inj (by decide) hb hc e)
    have hnew : ⟨b.addr, granted 48 (alignSize size.toUInt32).toNat b, false⟩ ∈
        release 16 (c.payload 16) (alloc 16 48 (alignSize size.toUInt32).toNat bs) :=
      mem_release_of_used (mem_alloc hfind) rfl hbc
    have hptrs := live_realloc hfind hlive hp hbc
      (tiles_alloc hfind (alignSize_dvd _) (by decide) (by decide) w.tiles)
    have hnodup : s.livePtrs.Nodup := hlive.nodup_iff.mpr (w.tiles.live_nodup (by decide))
    have hgone : c.payload 16 ∉ b.payload 16 :: s.livePtrs.erase (c.payload 16) := by
      rw [List.mem_cons]
      rintro (e | hmem)
      · exact hbc e.symm
      · exact hnodup.not_mem_erase hmem
    have hsizes := w'.payload_size hnew
    refine ⟨_, h', hcall, fun hq => ?_, fun _ => ⟨History.Inv.represents ⟨_, w', hptrs⟩, hgone,
      ?_, fun i hi => ?_, fun q hq hqp => ?_⟩⟩
    · exact absurd hq (b.payload_ne_zero (by decide))
    · exact (hround.trans (granted_le hroom).1).trans hsizes.ge
    · rw [w.payload_size hc] at hi
      exact hmoved i (by omega) (by omega)
    · obtain ⟨d, hd, hdf, rfl⟩ := mem_live.mp (hlive.mem_iff.mp hq)
      rw [w'.payload_size (mem_release_of_used (mem_alloc_of_used hfind hd hdf) hdf hqp),
        w.payload_size hd]
      exact ⟨rfl, hkept d hd hdf⟩

/-- A block of 16 bytes is moved to one of 24. -/
theorem realloc_keeps_small :
    ∃ s h', History.run smallRegion UInt8.ofNat [.kmalloc 10] = some s ∧ 4112 ∈ s.livePtrs ∧
      realloc s.heap 4112 24 = some (4144, h') ∧
      (∃ bs', Represents smallRegion ⟨h', 4144 :: s.livePtrs.erase 4112⟩ bs') ∧
      4112 ∉ 4144 :: s.livePtrs.erase 4112 ∧ 24 ≤ blkSize h'.mem (4144 - sizeofMemBlock) ∧
      ∀ i < 16, s.heap.mem (4112 + i) = UInt8.ofNat (16 + i) ∧
        h'.mem (4144 + i) = UInt8.ofNat (16 + i) := by
  have hok : History.Contract smallRegion UInt8.ofNat [.kmalloc 10] := by decide +kernel
  have hmap : (History.run smallRegion UInt8.ofNat [.kmalloc 10]).map (fun s =>
      (s.livePtrs, blkSize s.heap.mem (4112 - sizeofMemBlock),
        (realloc s.heap 4112 24).map Prod.fst)) = some ([4112], 16, some 4144) := by
    decide +kernel
  have hbytes : ∀ i < 16, (History.run smallRegion UInt8.ofNat [.kmalloc 10]).map (fun s =>
      s.heap.mem (4112 + i)) = some (UInt8.ofNat (16 + i)) := by
    decide +kernel
  obtain ⟨s, hrun, hs⟩ := Option.map_eq_some_iff.mp hmap
  obtain ⟨hlive, hs⟩ := Prod.mk.inj hs
  obtain ⟨hsize, hptr⟩ := Prod.mk.inj hs
  have hp : 4112 ∈ s.livePtrs := by simp [hlive]
  obtain ⟨q, h', hcall, _, hmoved⟩ := realloc_keeps smallRegion UInt8.ofNat [.kmalloc 10] hok s hrun
    4112 hp 24 (by decide) (by decide)
  rw [hcall, Option.map_some, Option.some.injEq] at hptr
  obtain rfl : q = 4144 := hptr
  obtain ⟨hrep, hdead, hroom, hkept, _⟩ := hmoved (by decide)
  refine ⟨s, h', hrun, hp, hcall, hrep, hdead, hroom, fun i hi => ?_⟩
  have hbyte := hbytes i hi
  rw [hrun, Option.map_some, Option.some.injEq] at hbyte
  have hlt : i < min (blkSize s.heap.mem (4112 - sizeofMemBlock)) (24 : UInt64).toNat := by
    rw [hsize]
    exact lt_min hi (hi.trans (by decide))
  exact ⟨hbyte, (hkept i hlt).trans hbyte⟩

end Hydra.LibC
