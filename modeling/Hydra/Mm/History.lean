import Hydra.Mm.Refine
import Hydra.Lib.Run

/-!
# Heap histories

Runs of the allocator from boot: `mm_init` on a region, then any sequence of `kmalloc`, `kfree` and
writes by callers inside their own payloads. A history records the pointers that are live, so that
the contract of `kfree` can be stated: null, a live pointer, or a pointer the double-free check
catches. Every history keeps the heap well-formed with exactly the recorded pointers in use
(`History.step_inv`), which gives the representation invariant of the heap
(`heap_representation`) and the reclamation of all memory in any order (`heap_reclaimed`).
-/

namespace Hydra.Mm
open ByteMem Linked FirstFit

/-- The blocks found by walking the list from `current`, as `mm_stats` does. -/
def walkBlocks (m : Mem) : Nat → Nat → Option (List Block)
  | 0, _ => none
  | fuel + 1, current =>
    if current = 0 then some []
    else (walkBlocks m fuel (blkNext m current)).map
      (⟨current, blkSize m current, blkFree m current ≠ 0⟩ :: ·)

/-- The block list of a heap. -/
def Heap.blocks (h : Heap) : Option (List Block) := walkBlocks h.mem h.fuel h.heapHead

/-- The static variables of `mm.c` at boot (the `.bss` section is cleared), over any memory. -/
def bootHeap (m : Mem) : Heap := ⟨m, 0, 0, 0, 0⟩

/-- What kernel code does with the heap: the two calls, and writing a byte. -/
inductive HeapOp where
  | kmalloc (size : UInt32)
  | kfree (p : Nat)
  | write (a : Nat) (v : UInt8)

/-- A heap with the pointers that were returned and not yet freed. -/
structure History where
  heap : Heap
  livePtrs : List Nat

namespace History

/-- The history after `mm_init` on a region. -/
def init (r : Region) (m : Mem) : History := ⟨mmInit (bootHeap m) r.start r.stop, []⟩

def step (s : History) : HeapOp → Option History
  | .kmalloc size =>
    (kmalloc s.heap size).map fun (p, h) => ⟨h, if p = 0 then s.livePtrs else p :: s.livePtrs⟩
  | .kfree p => (kfree s.heap p).map fun h => ⟨h, s.livePtrs.erase p⟩
  | .write a v => some ⟨{ s.heap with mem := Function.update s.heap.mem a v }, s.livePtrs⟩

/-- The contract of callers: free null, live pointers or what the double-free check catches, and
write inside live payloads. -/
def ok (s : History) : HeapOp → Prop
  | .kmalloc _ => True
  | .kfree p =>
    p = 0 ∨ p ∈ s.livePtrs ∨
      (sizeofMemBlock ≤ p ∧ p ∉ s.livePtrs ∧ blkFree s.heap.mem (p - sizeofMemBlock) ≠ 0)
  | .write a _ => ∃ p ∈ s.livePtrs, p ≤ a ∧ a < p + blkSize s.heap.mem (p - sizeofMemBlock)

instance (s : History) : ∀ op, Decidable (ok s op)
  | .kmalloc _ => inferInstanceAs (Decidable True)
  | .kfree _ => inferInstanceAs (Decidable (_ ∨ _))
  | .write _ _ => inferInstanceAs (Decidable (∃ p ∈ s.livePtrs, _))

/-- The run of a list of operations from boot. -/
abbrev run (r : Region) (m : Mem) (ops : List HeapOp) : Option History :=
  Run.run step (init r m) ops

/-- The operations keep to the contract of callers. -/
abbrev Contract (r : Region) (m : Mem) (ops : List HeapOp) : Prop :=
  Run.Admissible step ok (init r m) ops

/-- The heap is well-formed and its used blocks are the live pointers. -/
def Inv (r : Region) (s : History) : Prop :=
  ∃ bs, WF r s.heap bs ∧ s.livePtrs.Perm (live 16 bs)

lemma init_inv (r : Region) (m : Mem) : Inv r (init r m) :=
  ⟨_, mmInit_wf r rfl, .nil⟩

/-- A byte inside a live payload belongs to no header. -/
lemma write_wf {r : Region} {h : Heap} {bs : List Block} (w : WF r h bs) {b : Block} (hb : b ∈ bs)
    {a : Nat} (hlo : b.payload 16 ≤ a) (hhi : a < b.payload 16 + b.size) (v : UInt8) :
    WF r { h with mem := Function.update h.mem a v } bs := by
  refine w.payload_write hb fun x hx => ?_
  have hne : x ≠ a := by
    unfold Block.payload Block.fin at *
    omega
  exact Function.update_of_ne hne v h.mem

/-! ## What a step can do -/

section Cases

variable {r : Region} {s : History} {bs : List Block} (w : WF r s.heap bs)
  (hlive : s.livePtrs.Perm (live 16 bs))
include w hlive

/-- An allocation that finds no block changes nothing, any other returns a new live pointer. -/
lemma kmalloc_cases (size : UInt32) :
    (bs.find? (Block.fits (alignSize size).toNat) = none ∧ step s (.kmalloc size) = some s) ∨
    ∃ b h', bs.find? (Block.fits (alignSize size).toNat) = some b ∧
      kmalloc s.heap size = some (b.payload 16, h') ∧
      step s (.kmalloc size) = some ⟨h', b.payload 16 :: s.livePtrs⟩ ∧
      WF r h' (alloc 16 48 (alignSize size).toNat bs) ∧
      (b.payload 16 :: s.livePtrs).Perm (live 16 (alloc 16 48 (alignSize size).toNat bs)) := by
  cases hfind : bs.find? (Block.fits (alignSize size).toNat) with
  | none =>
    left
    simp [step, kmalloc_none w hfind]
  | some b =>
    right
    obtain ⟨h', hcall, w', _, _⟩ := kmalloc_some w hfind
    have hpay : b.payload 16 ≠ 0 := b.payload_ne_zero (by decide)
    refine ⟨b, h', rfl, hcall, ?_, w', (hlive.cons _).trans (live_alloc hfind).symm⟩
    simp [step, hcall, hpay]

/-- A release of a live pointer takes it from the live ones, any other that the contract lets
through, of null or of what the double-free check catches, changes nothing. -/
lemma kfree_cases {p : Nat} (hop : ok s (.kfree p)) :
    (p ∉ s.livePtrs ∧ step s (.kfree p) = some s) ∨
    ∃ b ∈ bs, ∃ h', b.free = false ∧ p = b.payload 16 ∧ kfree s.heap p = some h' ∧
      step s (.kfree p) = some ⟨h', s.livePtrs.erase p⟩ ∧ WF r h' (release 16 p bs) ∧
      (s.livePtrs.erase p).Perm (live 16 (release 16 p bs)) := by
  by_cases hp : p ∈ s.livePtrs
  · right
    have hpb := hlive.mem_iff.mp hp
    obtain ⟨h', hcall, w', _⟩ := kfree_live w hpb
    obtain ⟨b, hb, hf, hpay⟩ := mem_live.mp hpb
    refine ⟨b, hb, h', hf, hpay.symm, hcall, ?_, w', ?_⟩
    · simp [step, hcall]
    · exact (hlive.erase _).trans (live_release_of_mem (by decide) w.tiles hpb).symm
  · left
    have hsame : kfree s.heap p = some s.heap := by
      rcases hop with rfl | hp' | ⟨hp16, _, hcaught⟩
      · rfl
      · exact absurd hp' hp
      · have hp0 : p ≠ 0 := by
          unfold sizeofMemBlock at hp16
          omega
        unfold kfree
        simp only [if_neg hp0, if_pos hcaught]
    refine ⟨hp, ?_⟩
    simp [step, hsame, List.erase_of_not_mem hp]

/-- The contract lets a caller write inside the payload of a used block only. -/
lemma exists_of_write {a : Nat} {v : UInt8} (hop : ok s (.write a v)) :
    ∃ b ∈ bs, b.free = false ∧ b.payload 16 ∈ s.livePtrs ∧ b.payload 16 ≤ a ∧
      a < b.payload 16 + b.size := by
  obtain ⟨p, hp, hlo, hhi⟩ := hop
  obtain ⟨b, hb, hf, rfl⟩ := mem_live.mp (hlive.mem_iff.mp hp)
  rw [w.payload_size hb] at hhi
  exact ⟨b, hb, hf, hp, hlo, hhi⟩

end Cases

lemma kmalloc_inv {r : Region} {s : History} (hs : Inv r s) (size : UInt32) :
    ∃ s', step s (.kmalloc size) = some s' ∧ Inv r s' := by
  obtain ⟨bs, w, hlive⟩ := hs
  rcases kmalloc_cases w hlive size with ⟨_, hstep⟩ | ⟨b, h', _, _, hstep, w', hlive'⟩
  · exact ⟨s, hstep, bs, w, hlive⟩
  · exact ⟨_, hstep, _, w', hlive'⟩

lemma kfree_inv {r : Region} {s : History} (hs : Inv r s) {p : Nat} (hop : ok s (.kfree p)) :
    ∃ s', step s (.kfree p) = some s' ∧ Inv r s' := by
  obtain ⟨bs, w, hlive⟩ := hs
  rcases kfree_cases w hlive hop with ⟨_, hstep⟩ | ⟨b, _, h', _, _, _, hstep, w', hlive'⟩
  · exact ⟨s, hstep, bs, w, hlive⟩
  · exact ⟨_, hstep, _, w', hlive'⟩

lemma write_inv {r : Region} {s : History} (hs : Inv r s) {a : Nat} (v : UInt8)
    (hop : ok s (.write a v)) : ∃ s', step s (.write a v) = some s' ∧ Inv r s' := by
  obtain ⟨bs, w, hlive⟩ := hs
  obtain ⟨b, hb, _, _, hlo, hhi⟩ := exists_of_write w hlive hop
  exact ⟨_, rfl, _, write_wf w hb hlo hhi v, hlive⟩

theorem step_inv {r : Region} (s : History) (op : HeapOp) (hs : Inv r s) (hop : ok s op) :
    ∃ s', step s op = some s' ∧ Inv r s' := by
  cases op with
  | kmalloc size => exact kmalloc_inv hs size
  | kfree p => exact kfree_inv hs hop
  | write a v => exact write_inv hs v hop

theorem run_inv {r : Region} {m : Mem} {ops : List HeapOp} (hok : Contract r m ops) :
    ∃ s, run r m ops = some s ∧ Inv r s :=
  hok.inv (init_inv r m) step_inv

lemma inv_of_run {r : Region} {m : Mem} {ops : List HeapOp} {s : History}
    (hok : Contract r m ops) (hrun : run r m ops = some s) : Inv r s :=
  hok.inv_of_run hrun (init_inv r m) step_inv

end History

/-! ## The representation invariant -/

/-- The walk over the headers reads back the blocks they represent. -/
lemma walkBlocks_seg {m : Mem} {p fuel : Nat} {bs : List Block} (h : Seg m p bs 0)
    (hf : bs.length < fuel) : walkBlocks m fuel p = some bs := by
  induction bs generalizing p fuel with
  | nil =>
    obtain ⟨n, rfl⟩ : ∃ n, fuel = n + 1 := ⟨fuel - 1, by rw [List.length_nil] at hf; omega⟩
    simp [walkBlocks, seg_nil.mp h]
  | cons b bs ih =>
    obtain ⟨n, rfl⟩ : ∃ n, fuel = n + 1 := ⟨fuel - 1, by omega⟩
    obtain ⟨rfl, h0, ⟨hs, hf'⟩, hrest⟩ := seg_cons.mp h
    have hrec := ih hrest (by simpa using hf)
    unfold walkBlocks
    rw [if_neg h0, hrec, Option.map_some, hs, hf']
    cases b with
    | mk addr size free => cases free <;> rfl

lemma WF.blocks {r : Region} {h : Heap} {bs : List Block} (w : WF r h bs) : h.blocks = some bs :=
  walkBlocks_seg w.seg (by simpa using w.length_lt_fuel w.tiles)

/-- The block list of a heap partitions its region into used and free blocks. -/
structure Represents (r : Region) (s : History) (bs : List Block) : Prop where
  walked : s.heap.blocks = some bs
  increasing : bs.Pairwise fun a b => a.addr < b.addr
  first : ∃ b ∈ bs.head?, b.addr = r.start
  touching : bs.IsChain fun a b => b.addr = a.addr + sizeofMemBlock + a.size
  last : ∃ b ∈ bs.getLast?, b.addr + sizeofMemBlock + b.size = s.heap.heapEnd
  end_eq : s.heap.heapEnd = r.stop
  sizes : ∀ b ∈ bs, 8 ∣ b.size
  coalesced : bs.IsChain fun a b => ¬(a.free = true ∧ b.free = true)
  live : s.livePtrs.Perm ((bs.filter fun b => !b.free).map fun b => b.addr + sizeofMemBlock)
  disjoint : (bs.filter fun b => !b.free).Pairwise fun a b =>
    a.addr + sizeofMemBlock + a.size ≤ b.addr + sizeofMemBlock
  aligned : ∀ p ∈ s.livePtrs, 8 ∣ p
  inside : ∀ b ∈ bs, r.start ≤ b.addr ∧ b.addr + sizeofMemBlock + b.size ≤ r.stop
  headers : ∀ b ∈ bs, ∀ c ∈ bs,
    c.addr + sizeofMemBlock ≤ b.addr + sizeofMemBlock ∨ b.addr + sizeofMemBlock + b.size ≤ c.addr
  accounted : s.heap.totalAllocated = ((bs.filter fun b => !b.free).map Block.size).sum

lemma History.Inv.represents {r : Region} {s : History} (hs : s.Inv r) :
    ∃ bs, Represents r s bs := by
  obtain ⟨bs, w, hlive⟩ := hs
  have hpair := w.tiles.pairwise
  have hne : bs ≠ [] := by
    rintro rfl
    have hroom := r.room
    have t := w.tiles
    unfold Tiles sizeofMemBlock at *
    omega
  refine ⟨bs, w.blocks, ?_, ?_, w.tiles.isChain, ?_, w.heapEnd, ?_, w.coalesced, hlive, ?_, ?_, ?_,
    ?_, w.accounted⟩
  · refine hpair.imp fun {a b} hab => ?_
    unfold Block.fin at hab
    omega
  · obtain ⟨b, hb⟩ := Option.isSome_iff_exists.mp (List.isSome_head?.mpr hne)
    exact ⟨b, hb, w.tiles.head_addr hb⟩
  · have hb := List.getLast?_eq_some_getLast hne
    exact ⟨_, hb, (w.tiles.last_fin hb).trans w.heapEnd.symm⟩
  · intro b hb
    exact w.tiles.dvd_size hb
  · refine (hpair.filter _).imp fun {a b} hab => ?_
    unfold Block.fin at hab
    unfold sizeofMemBlock
    omega
  · intro p hp
    obtain ⟨b, hmem, _, rfl⟩ := mem_live.mp (hlive.mem_iff.mp hp)
    have hb := w.tiles.dvd_addr (by decide) r.start_aligned hmem
    exact Nat.dvd_add hb (by decide)
  · intro b hb
    exact w.tiles.mem_bounds hb
  · intro b hb c hc
    exact w.tiles.payload_apart hb hc

/-- The representation invariant: after every run of the contract the block list is an exact,
coalesced and correctly accounted partition of the region, used by the live pointers. -/
theorem heap_representation (r : Region) (m : Mem) (ops : List HeapOp)
    (hok : History.Contract r m ops) :
    ∃ s bs, History.run r m ops = some s ∧ Represents r s bs := by
  obtain ⟨s, hrun, hs⟩ := History.run_inv hok
  obtain ⟨bs, hbs⟩ := hs.represents
  exact ⟨s, bs, hrun, hbs⟩

/-- Freeing a list of pointers that is a permutation of the live ones frees them all. -/
lemma History.run_kfree {r : Region} {s : History} (hs : s.Inv r) {ps : List Nat}
    (hperm : ps.Perm s.livePtrs) :
    ∃ s', Run.run History.step s (ps.map .kfree) = some s' ∧ s'.Inv r ∧ s'.livePtrs = [] := by
  induction ps generalizing s with
  | nil => exact ⟨s, rfl, hs, hperm.nil_eq.symm⟩
  | cons p ps ih =>
    have hp : p ∈ s.livePtrs := hperm.mem_iff.mp (by simp)
    obtain ⟨s₁, hstep, hs₁⟩ := History.step_inv s (.kfree p) hs (.inr (.inl hp))
    have hlive : s₁.livePtrs = s.livePtrs.erase p := by
      obtain ⟨h', _, rfl⟩ := Option.map_eq_some_iff.mp hstep
      rfl
    have hrest : ps.Perm s₁.livePtrs := by
      rw [hlive]
      simpa using hperm.erase p
    obtain ⟨s', hrun, hs', hnil⟩ := ih hs₁ hrest
    exact ⟨s', (Run.run_cons hstep).trans hrun, hs', hnil⟩

/-- What the allocator's later behaviour depends on: its static variables and the block list. -/
def Heap.state (h : Heap) : Nat × Nat × Nat × Nat × Option (List Block) :=
  (h.heapHead, h.heapStart, h.heapEnd, h.totalAllocated, h.blocks)

/-- A well-formed heap without live pointers is in the state `mm_init` produces. -/
lemma WF.state_of_empty {r : Region} {h : Heap} {bs : List Block} (w : WF r h bs)
    (hl : FirstFit.live 16 bs = []) :
    h.state = (r.start, r.start, r.stop, 0,
      some [⟨r.start, r.stop - r.start - sizeofMemBlock, true⟩]) ∧ blkNext h.mem r.start = 0 := by
  have hroom := r.room
  have hlt : r.start < r.stop := by
    unfold sizeofMemBlock at hroom
    omega
  obtain rfl := w.tiles.eq_singleton w.coalesced hl hlt
  obtain ⟨_, _, _, hnext⟩ := seg_cons.mp w.seg
  refine ⟨?_, seg_nil.mp hnext⟩
  unfold Heap.state
  rw [w.heapHead, w.heapStart, w.heapEnd, w.accounted, w.blocks]
  rfl

/-- Full reclamation: freeing the live pointers in any order gives back the heap of `mm_init`, one
free block of the initial size. -/
theorem heap_reclaimed (r : Region) (m : Mem) (ops : List HeapOp) (hok : History.Contract r m ops)
    (s : History) (hrun : History.run r m ops = some s) (ps : List Nat)
    (hperm : ps.Perm s.livePtrs) :
    ∃ s', History.run r m (ops ++ ps.map .kfree) = some s' ∧ s'.livePtrs = [] ∧
      s'.heap.blocks = some [⟨r.start, r.stop - r.start - sizeofMemBlock, true⟩] ∧
      blkNext s'.heap.mem s'.heap.heapHead = 0 ∧ s'.heap.totalAllocated = 0 ∧
      s'.heap.state = (History.init r m).heap.state := by
  have hs := History.inv_of_run hok hrun
  obtain ⟨s', hfree, ⟨bs, w, hlive⟩, hnil⟩ := History.run_kfree hs hperm
  have hbs : FirstFit.live 16 bs = [] := (hnil ▸ hlive).nil_eq.symm
  obtain ⟨hstate, hnext⟩ := w.state_of_empty hbs
  have hinit := ((mmInit_wf r rfl : WF r (History.init r m).heap _).state_of_empty rfl).1
  refine ⟨s', ?_, hnil, ?_, ?_, ?_, hstate.trans hinit.symm⟩
  · have hpre : Run.run History.step (History.init r m) ops = some s := hrun
    show Run.run History.step (History.init r m) _ = _
    rw [Run.run_append, hpre]
    exact hfree
  · exact congrArg (fun t => t.2.2.2.2) hstate
  · rw [w.heapHead]
    exact hnext
  · exact congrArg (fun t => t.2.2.2.1) hstate

/-! The example heaps begin at 4096. -/

lemma page_pos : 0 < 4096 := by decide

lemma page_aligned : 8 ∣ 4096 := by decide

/-- A heap region of 256 bytes. -/
def smallRegion : Region where
  start := 4096
  stop := 4352
  start_pos := page_pos
  start_aligned := page_aligned
  stop_aligned := by decide
  room := by decide
  small := by decide
  addressable := by decide

/-- Two allocations, a write into the second, a double free of the first, the largest request. -/
def smallOps : List HeapOp :=
  [.kmalloc 10, .kmalloc 24, .write 4144 7, .kfree 4112, .kfree 4112, .kmalloc 4294967295]

theorem heap_representation_small :
    ∃ s bs, History.run smallRegion (fun _ => 0) smallOps = some s ∧
      Represents smallRegion s bs :=
  heap_representation smallRegion (fun _ => 0) smallOps (by decide +kernel)

/-- Two allocations, the first freed. -/
def reclaimOps : List HeapOp := [.kmalloc 10, .kmalloc 24, .kmalloc 1, .kfree 4112]

theorem heap_reclaimed_small :
    ∃ s s', History.run smallRegion (fun _ => 0) reclaimOps = some s ∧
      [4144, 4184].Perm s.livePtrs ∧
      History.run smallRegion (fun _ => 0) (reclaimOps ++ [4144, 4184].map .kfree) = some s' ∧
      s'.heap.totalAllocated = 0 := by
  have hok : History.Contract smallRegion (fun _ => 0) reclaimOps := by decide +kernel
  obtain ⟨s, hrun, _⟩ := History.run_inv hok
  have hptrs : (History.run smallRegion (fun _ => 0) reclaimOps).map History.livePtrs =
      some [4184, 4144] := by decide +kernel
  rw [hrun] at hptrs
  have hlive : s.livePtrs = [4184, 4144] := Option.some.inj hptrs
  have hperm : [4144, 4184].Perm s.livePtrs := by
    rw [hlive]
    exact .swap 4184 4144 []
  obtain ⟨s', hrun', _, _, _, htotal, _⟩ :=
    heap_reclaimed smallRegion (fun _ => 0) reclaimOps hok s hrun [4144, 4184] hperm
  exact ⟨s, s', hrun, hperm, hrun', htotal⟩

end Hydra.Mm
