import Hydra.Mm.History

/-!
# malloc and the size guarantee

The wrappers of `lib/libc/stdlib.c` around the kernel heap, and what they and `kmalloc` guarantee
about sizes. `kmalloc` rounds its 32-bit argument up to a multiple of 8 in 32-bit arithmetic, and
`malloc` hands a 64-bit size to that 32-bit argument, so a request beyond `2 ^ 32 - 8` is served
from its wrapped size. `size_guarantee` says exactly when a call still keeps its promise, in
every heap that a history can reach.
-/

namespace Hydra.LibC
open ByteMem FirstFit Hydra.Mm

/-- C `malloc`: the size is passed to the 32-bit parameter of `kmalloc`. -/
def malloc (h : Heap) (size : UInt64) : Option (Nat × Heap) := kmalloc h size.toUInt32

/-- C `free`. -/
def free (h : Heap) (ptr : Nat) : Option Heap := kfree h ptr

/-- Some free block has room for `n` bytes. -/
def Satisfiable (h : Heap) (n : Nat) : Prop :=
  ∃ bs, h.blocks = some bs ∧ ∃ b ∈ bs, b.free = true ∧ n ≤ b.size

/-- A call that asked for `n` bytes returned: a payload of at least `n` bytes or null, and null if
the request could not be satisfied. -/
def SizeGuarantee (h : Heap) (n : Nat) (call : Option (Nat × Heap)) : Prop :=
  ∃ p h', call = some (p, h') ∧ (p ≠ 0 → n ≤ blkSize h'.mem (p - sizeofMemBlock)) ∧
    (¬Satisfiable h n → p = 0)

/-- The size does not wrap when it is rounded up in 32 bits, or no free block has room for the
wrapped size either. -/
def NoWrap (h : Heap) (n : Nat) : Prop :=
  n ≤ 2 ^ 32 - 8 ∨ ¬Satisfiable h (alignSize (UInt32.ofNat n)).toNat

variable {r : Region} {h : Heap} {bs : List Block}

lemma satisfiable_iff (w : WF r h bs) (n : Nat) :
    Satisfiable h n ↔ ∃ b ∈ bs, b.free = true ∧ n ≤ b.size := by
  constructor
  · rintro ⟨bs', hbs', hb⟩
    obtain rfl : bs' = bs := Option.some.inj (hbs'.symm.trans w.blocks)
    exact hb
  · intro hb
    exact ⟨bs, w.blocks, hb⟩

lemma find_eq_none_iff (w : WF r h bs) (n : Nat) :
    bs.find? (Block.fits n) = none ↔ ¬Satisfiable h n := by
  rw [satisfiable_iff w, List.find?_eq_none]
  simp [Block.fits]

/-- Block sizes are multiples of 8, so rounding the request up loses no block. -/
lemma satisfiable_align (w : WF r h bs) {size : UInt32} (hn : size.toNat ≤ 2 ^ 32 - 8) :
    Satisfiable h (alignSize size).toNat ↔ Satisfiable h size.toNat := by
  obtain ⟨hle, hlt⟩ := alignSize_of_le hn
  have hdvd := alignSize_dvd size
  rw [satisfiable_iff w, satisfiable_iff w]
  constructor
  · rintro ⟨b, hb, hf, hs⟩
    exact ⟨b, hb, hf, by omega⟩
  · rintro ⟨b, hb, hf, hs⟩
    have hd := w.tiles.dvd_size hb
    exact ⟨b, hb, hf, by omega⟩

/-- A call that finds a block returns its payload, whose size is the granted one. -/
lemma kmalloc_granted (w : WF r h bs) {size : UInt32}
    (hs : Satisfiable h (alignSize size).toNat) :
    ∃ b ∈ bs, b.free = true ∧ (alignSize size).toNat ≤ b.size ∧
      ∃ h', kmalloc h size = some (b.payload 16, h') ∧
        blkSize h'.mem (b.payload 16 - sizeofMemBlock) = granted 48 (alignSize size).toNat b := by
  cases hfind : bs.find? (Block.fits (alignSize size).toNat) with
  | none => exact absurd hs ((find_eq_none_iff w _).mp hfind)
  | some b =>
    obtain ⟨h', hcall, _, _, hgranted⟩ := kmalloc_some w hfind
    obtain ⟨hb, hfree, hroom⟩ := fits_of_find hfind
    have hsub : b.payload 16 - sizeofMemBlock = b.addr := Nat.add_sub_cancel b.addr 16
    exact ⟨b, hb, hfree, hroom, h', hcall, hsub ▸ hgranted⟩

/-- A request for `n` bytes that reaches the kernel as `size` keeps its promise exactly if it does
not wrap. -/
lemma guarantee_iff (w : WF r h bs) {size : UInt32} {n : Nat} (hn : size = UInt32.ofNat n) :
    SizeGuarantee h n (kmalloc h size) ↔ NoWrap h n := by
  have hsmall := r.small
  by_cases hle : n ≤ 2 ^ 32 - 8
  · have hsize : size.toNat = n := by
      rw [hn, UInt32.toNat_ofNat']
      omega
    refine iff_of_true ?_ (.inl hle)
    by_cases hs : Satisfiable h (alignSize size).toNat
    · obtain ⟨b, _, _, hfit, h', hcall, hgranted⟩ := kmalloc_granted w hs
      refine ⟨_, h', hcall, fun _ => ?_, fun hns => ?_⟩
      · have hround := (alignSize_of_le (hsize ▸ hle)).1
        rw [hgranted]
        unfold granted
        split <;> omega
      · rw [satisfiable_align w (hsize ▸ hle), hsize] at hs
        exact absurd hs hns
    · have hcall := kmalloc_none w ((find_eq_none_iff w _).mpr hs)
      exact ⟨0, h, hcall, fun h0 => absurd rfl h0, fun _ => rfl⟩
  · subst hn
    have hround : (alignSize (UInt32.ofNat n)).toNat < n := by
      have hlt := (alignSize (UInt32.ofNat n)).toNat_lt
      have hdvd := alignSize_dvd (UInt32.ofNat n)
      omega
    constructor
    · rintro ⟨p, h₁, hcall₁, hpay, _⟩
      right
      intro hs
      -- the granted payload is shorter than the request
      obtain ⟨b, hb, _, _, h', hcall, hgranted⟩ := kmalloc_granted w hs
      rw [hcall, Option.some.injEq, Prod.mk.injEq] at hcall₁
      obtain ⟨rfl, rfl⟩ := hcall₁
      have hbounds := w.tiles.mem_bounds hb
      have hp := hpay (by unfold Block.payload; omega)
      rw [hgranted] at hp
      unfold granted at hp
      unfold Block.fin at hbounds
      split at hp <;> omega
    · rintro (hle' | hns)
      · exact absurd hle' hle
      · have hcall := kmalloc_none w ((find_eq_none_iff w _).mpr hns)
        exact ⟨0, h, hcall, fun h0 => absurd rfl h0, fun _ => rfl⟩

/-- The size guarantee of both entry points, in every reachable heap: a call keeps it exactly when
its size does not wrap. -/
theorem size_guarantee (r : Region) (m : Mem) (ops : List HeapOp)
    (hok : History.Contract r m ops) (s : History) (hrun : History.run r m ops = some s) :
    (∀ size : UInt32,
      SizeGuarantee s.heap size.toNat (kmalloc s.heap size) ↔ NoWrap s.heap size.toNat) ∧
    (∀ size : UInt64,
      SizeGuarantee s.heap size.toNat (malloc s.heap size) ↔ NoWrap s.heap size.toNat) := by
  obtain ⟨bs, w, _⟩ := History.inv_of_run hok hrun
  refine ⟨fun size => guarantee_iff w ?_, fun size => guarantee_iff w ?_⟩
  · exact UInt32.ofNat_toNat.symm
  · exact (UInt32.ofNat_uInt64ToNat size).symm

theorem size_guarantee_small :
    ∃ s, History.run smallRegion (fun _ => 0) [.kmalloc 10] = some s ∧
      SizeGuarantee s.heap 24 (kmalloc s.heap 24) ∧ SizeGuarantee s.heap 24 (malloc s.heap 24) := by
  have hok : History.Contract smallRegion (fun _ => 0) [.kmalloc 10] := by decide +kernel
  obtain ⟨s, hrun, _⟩ := History.run_inv hok
  obtain ⟨hk, hm⟩ := size_guarantee smallRegion (fun _ => 0) [.kmalloc 10] hok s hrun
  exact ⟨s, hrun, (hk 24).mpr (.inl (by decide)), (hm 24).mpr (.inl (by decide))⟩

lemma not_guarantee {h : Heap} {n p q : Nat} {call : Option (Nat × Heap)}
    (hc : call.map (fun c => (c.1, blkSize c.2.mem (c.1 - sizeofMemBlock))) = some (p, q))
    (hp : p ≠ 0) (hq : q < n) : ¬SizeGuarantee h n call := by
  rintro ⟨p', h', rfl, hpay, _⟩
  rw [Option.map_some, Option.some.injEq, Prod.mk.injEq] at hc
  obtain ⟨hp', hq'⟩ := hc
  subst hp' hq'
  have hle := hpay hp
  dsimp only at hle hq
  omega

/-- In the fresh heap the largest 32-bit request gets a payload of no bytes, and so does the
smallest size that no longer fits in 32 bits. -/
theorem size_guarantee_fails :
    History.run smallRegion (fun _ => 0) [] = some (History.init smallRegion fun _ => 0) ∧
      ¬SizeGuarantee (History.init smallRegion fun _ => 0).heap 4294967295
        (kmalloc (History.init smallRegion fun _ => 0).heap 4294967295) ∧
      ¬SizeGuarantee (History.init smallRegion fun _ => 0).heap 4294967296
        (malloc (History.init smallRegion fun _ => 0).heap 4294967296) := by
  refine ⟨rfl, ?_, ?_⟩
  · exact not_guarantee (p := 4112) (q := 0) (by decide +kernel) (by decide) (by decide)
  · exact not_guarantee (p := 4112) (q := 0) (by decide +kernel) (by decide) (by decide)

end Hydra.LibC
