import Hydra.Mm.Frame

/-!
# Stale frees

`kfree` recognises a pointer that is not in use by the free flag in front of it. A `Ledger` is a
history that remembers every pointer `kmalloc` has returned, so that the stale ones can be named.
The header in front of a stale pointer may have been joined into a larger block and handed out
again, and its flag is then a word of somebody's payload. `Spares` says of a step that it leaves
these flags set. In a run of such steps every stale free is caught (`stale_free`); without the
condition a caller that clears its own payload brings an old header back to life
(`stale_free_fails`).
-/

namespace Hydra.Mm
open ByteMem Linked FirstFit

/-- A history with every pointer that was ever returned. -/
structure Ledger extends History where
  returned : List Nat

/-- Where `kmalloc` will put a new header, if it is going to split a block. -/
def splitAddr (h : Heap) (size : UInt32) : Option Nat :=
  let size := (alignSize size).toNat
  match walk (blkNext h.mem) (fits h.mem size) h.fuel h.heapHead with
  | none => none
  | some bestFit =>
    if bestFit ≠ 0 ∧ size + sizeofMemBlock + 32 < blkSize h.mem bestFit then
      some (bestFit + sizeofMemBlock + size)
    else none

namespace Ledger

/-- The ledger after `mm_init` on a region. -/
def init (r : Region) (m : Mem) : Ledger := ⟨History.init r m, []⟩

/-- A step of the history. A pointer that `kmalloc` returns is live after the call. -/
def step (s : Ledger) (op : HeapOp) : Option Ledger :=
  (s.toHistory.step op).map fun s' => ⟨s', s'.livePtrs ∪ s.returned⟩

/-- The pointers that were returned and are not live. -/
def stale (s : Ledger) : List Nat := s.returned.filter fun p => p ∉ s.livePtrs

/-- What callers may do: the contract of a history, and to free any pointer they once got. -/
def ok (s : Ledger) (op : HeapOp) : Prop :=
  s.toHistory.ok op ∨ ∃ p ∈ s.returned, op = .kfree p

instance (s : Ledger) : ∀ op, Decidable (ok s op)
  | .kmalloc _ => .isTrue (.inl trivial)
  | .kfree p => decidable_of_iff (s.toHistory.ok (.kfree p) ∨ p ∈ s.returned) (by simp [ok])
  | .write a v => decidable_of_iff (s.toHistory.ok (.write a v)) (by simp [ok])

/-- The step leaves the free flags of stale pointers set: the byte written clears none of them, and
no block is split 8 bytes in front of an old header, where the link of the remainder would cover
the flag. -/
def Spares (s : Ledger) : HeapOp → Prop
  | .kmalloc size => ∀ p ∈ s.stale, splitAddr s.heap size ≠ some (p - sizeofMemBlock - 8)
  | .kfree _ => True
  | .write a v =>
    ∀ p ∈ s.stale, blkFree (Function.update s.heap.mem a v) (p - sizeofMemBlock) ≠ 0

instance (s : Ledger) : ∀ op, Decidable (Spares s op)
  | .kmalloc _ => inferInstanceAs (Decidable (∀ p ∈ s.stale, _))
  | .kfree _ => inferInstanceAs (Decidable True)
  | .write _ _ => inferInstanceAs (Decidable (∀ p ∈ s.stale, _))

/-- The run of a list of operations from boot. -/
abbrev run (r : Region) (m : Mem) (ops : List HeapOp) : Option Ledger :=
  Run.run step (init r m) ops

/-- The header in front of a stale pointer: its flag is set, and no listed header covers the flag
with its link. -/
def Caught (h : Heap) (bs : List Block) (p : Nat) : Prop :=
  ∃ x, p = x + sizeofMemBlock ∧ 8 ∣ x ∧ blkFree h.mem x ≠ 0 ∧ ∀ b ∈ bs, x ≠ b.addr + 8

/-- The invariant of histories, and every stale pointer is caught. -/
def Inv (r : Region) (s : Ledger) : Prop :=
  ∃ bs, WF r s.heap bs ∧ s.livePtrs.Perm (live 16 bs) ∧ ∀ p ∈ s.stale, Caught s.heap bs p

/-! ## One step -/

lemma mem_stale {s : Ledger} {p : Nat} : p ∈ s.stale ↔ p ∈ s.returned ∧ p ∉ s.livePtrs := by
  unfold stale
  rw [List.mem_filter, decide_eq_true_iff]

lemma step_of_history {s : Ledger} {op : HeapOp} {s' : History}
    (h : s.toHistory.step op = some s') : s.step op = some ⟨s', s'.livePtrs ∪ s.returned⟩ :=
  congrArg (Option.map _) h

/-- A pointer that is stale after a step was stale before it, or live. -/
lemma stale_of_step {s s' : Ledger} {op : HeapOp} (h : s.step op = some s') {p : Nat}
    (hp : p ∈ s'.stale) : p ∉ s'.livePtrs ∧ (p ∈ s.stale ∨ p ∈ s.livePtrs) := by
  obtain ⟨h', _, rfl⟩ := Option.map_eq_some_iff.mp h
  obtain ⟨hret, hlive⟩ := mem_stale.mp hp
  refine ⟨hlive, ?_⟩
  have hold : p ∈ s.returned := (List.mem_union_iff.mp hret).resolve_left hlive
  by_cases hl : p ∈ s.livePtrs
  · exact .inr hl
  · exact .inl (mem_stale.mpr ⟨hold, hl⟩)

/-- The double-free check catches the pointer. -/
lemma Caught.kfree {h : Heap} {bs : List Block} {p : Nat} (hc : Caught h bs p) :
    kfree h p = some h := by
  obtain ⟨x, rfl, _, hflag, _⟩ := hc
  unfold Mm.kfree
  have h0 : x + sizeofMemBlock ≠ 0 := by
    unfold sizeofMemBlock
    omega
  rw [if_neg h0, Nat.add_sub_cancel, if_pos hflag]

lemma init_inv (r : Region) (m : Mem) : Inv r (init r m) :=
  ⟨_, mmInit_wf r rfl, .nil, by simp [stale, init]⟩

lemma splitAddr_eq {r : Region} {h : Heap} {bs : List Block} (w : WF r h bs) {size : UInt32}
    {b : Block} (hb : bs.find? (Block.fits (alignSize size).toNat) = some b)
    (hlt : (alignSize size).toNat + 48 < b.size) :
    splitAddr h size = some (b.addr + 16 + (alignSize size).toNat) := by
  have hmem : b ∈ bs := List.mem_of_find?_eq_some hb
  have h0 := (w.addr_pos hmem).ne'
  obtain ⟨hs, _⟩ := w.seg.2 b hmem
  unfold splitAddr
  simp only [walk_fits w, hb, Option.map_some, Option.getD_some, hs]
  exact if_pos ⟨h0, hlt⟩

/-- An allocation that puts no header across the flag of a caught pointer leaves it caught, unless
it hands this pointer out. -/
lemma Caught.alloc {r : Region} {h : Heap} {bs : List Block} (w : WF r h bs) {size : UInt32}
    {b : Block} (hb : bs.find? (Block.fits (alignSize size).toNat) = some b) {p : Nat}
    (hc : Caught h bs p) (hp : p ≠ b.payload 16)
    (hspare : splitAddr h size ≠ some (p - sizeofMemBlock - 8)) :
    Caught (take h b.addr (alignSize size).toNat) (alloc 16 48 (alignSize size).toNat bs) p := by
  obtain ⟨x, rfl, hx, hflag, hne⟩ := hc
  have hmem : b ∈ bs := List.mem_of_find?_eq_some hb
  have hbd : 8 ∣ b.addr := w.tiles.dvd_addr (by decide) r.start_aligned hmem
  obtain ⟨hs, _⟩ := w.seg.2 b hmem
  have hxb : x ≠ b.addr := by
    rintro rfl
    exact hp rfl
  have hnew : (alignSize size).toNat + 48 < b.size →
      x ≠ b.addr + 16 + (alignSize size).toNat + 8 := by
    rintro hlt rfl
    refine hspare ((splitAddr_eq w hb hlt).trans ?_)
    simp [sizeofMemBlock]
  refine ⟨x, rfl, hx, take_flag hx hbd (alignSize_dvd size) hxb (hne b hmem) ?_ hflag, ?_⟩
  · rwa [hs]
  · obtain ⟨pre, post, rfl, _, _, halloc⟩ := alloc_of_find 16 48 hb
    intro c hc
    rw [halloc, List.append_assoc] at hc
    rcases List.mem_append.mp hc with hc | hc
    · exact hne c (by simp [hc])
    · rcases List.mem_append.mp hc with hc | hc
      · -- the carved blocks
        unfold carve at hc
        split at hc
        · rename_i hlt
          rcases List.mem_pair.mp hc with rfl | rfl
          · exact hne b hmem
          · exact hnew hlt
        · obtain rfl := List.mem_singleton.mp hc
          exact hne b hmem
      · exact hne c (by simp [hc])

lemma kmalloc_inv {r : Region} {s : Ledger} (hs : Inv r s) {size : UInt32}
    (hspare : s.Spares (.kmalloc size)) : ∃ s', s.step (.kmalloc size) = some s' ∧ Inv r s' := by
  obtain ⟨bs, w, hlive, hstale⟩ := hs
  rcases History.kmalloc_cases w hlive size with
    ⟨_, hstep⟩ | ⟨b, h', hfind, hcall, hstep, w', hlive'⟩
  · have hstep' := step_of_history hstep
    refine ⟨_, hstep', bs, w, hlive, fun p hp => ?_⟩
    obtain ⟨hnot, hold⟩ := stale_of_step hstep' hp
    exact hstale p (hold.resolve_right hnot)
  · obtain rfl := take_of_kmalloc w hfind hcall
    have hstep' := step_of_history hstep
    refine ⟨_, hstep', _, w', hlive', fun p hp => ?_⟩
    obtain ⟨hnot, hold⟩ := stale_of_step hstep' hp
    obtain ⟨hpb, hpl⟩ := not_or.mp (List.mem_cons.not.mp hnot)
    have hp' := hold.resolve_right hpl
    exact (hstale p hp').alloc w hfind hpb (hspare p hp')

/-- A release leaves caught pointers caught. -/
lemma Caught.release {r : Region} {h h' : Heap} {bs : List Block} (w : WF r h bs) {b : Block}
    (hb : b ∈ bs) (hf : b.free = false) (hcall : Mm.kfree h (b.payload 16) = some h') {x : Nat}
    (hx : 8 ∣ x) (hflag : x = b.addr ∨ blkFree h.mem x ≠ 0) (hne : ∀ c ∈ bs, x ≠ c.addr + 8) :
    Caught h' (release 16 (b.payload 16) bs) (x + sizeofMemBlock) := by
  refine ⟨x, rfl, hx, ?_, fun c hc => ?_⟩
  · rw [kfree_flag w hb hf hcall hx hne]
    split
    · decide
    · rename_i hxb
      exact hflag.resolve_left hxb
  · obtain ⟨d, hd, e⟩ := mem_release hc
    exact e ▸ hne d hd

/-- No header of a tiling begins 8 bytes in front of another one. -/
lemma addr_ne_add {lo hi : Nat} {bs : List Block} (t : Tiles 16 8 lo bs hi) {b : Block}
    (hb : b ∈ bs) : ∀ c ∈ bs, b.addr ≠ c.addr + 8 := by
  intro c hc
  rcases t.header_apart hb hc with rfl | hbc | hcb
  · omega
  · omega
  · omega

lemma kfree_live_inv {r : Region} {s : Ledger} (hs : Inv r s) {p : Nat} (hp : p ∈ s.livePtrs) :
    ∃ s', s.step (.kfree p) = some s' ∧ Inv r s' := by
  obtain ⟨bs, w, hlive, hstale⟩ := hs
  rcases History.kfree_cases w hlive (.inr (.inl hp)) with
    ⟨hno, _⟩ | ⟨b, hmem, h', hbf, rfl, hcall, hstep, w', hlive'⟩
  · exact absurd hp hno
  · have hstep' := step_of_history hstep
    refine ⟨_, hstep', _, w', hlive', fun q hq => ?_⟩
    obtain ⟨hnot, hold⟩ := stale_of_step hstep' hq
    have hbd : 8 ∣ b.addr := w.tiles.dvd_addr (by decide) r.start_aligned hmem
    rcases hold with hold | hold
    · obtain ⟨x, rfl, hx, hflag, hne⟩ := hstale q hold
      exact Caught.release w hmem hbf hcall hx (.inr hflag) hne
    · -- the only live pointer that is not live any more is the freed one
      have hq : q = b.payload 16 := by
        by_contra hne
        exact hnot ((List.mem_erase_of_ne hne).mpr hold)
      rw [hq]
      exact Caught.release w hmem hbf hcall hbd (.inl rfl) (addr_ne_add w.tiles hmem)

/-- A free that changes nothing. -/
lemma kfree_same_inv {r : Region} {s : Ledger} (hs : Inv r s) {p : Nat}
    (hstep : s.toHistory.step (.kfree p) = some s.toHistory) :
    ∃ s', s.step (.kfree p) = some s' ∧ Inv r s' := by
  obtain ⟨bs, w, hlive, hstale⟩ := hs
  have hstep' := step_of_history hstep
  refine ⟨_, hstep', bs, w, hlive, fun q hq => ?_⟩
  obtain ⟨hnot, hold⟩ := stale_of_step hstep' hq
  exact hstale q (hold.resolve_right hnot)

lemma kfree_inv {r : Region} {s : Ledger} (hs : Inv r s) {p : Nat} (hop : s.ok (.kfree p)) :
    ∃ s', s.step (.kfree p) = some s' ∧ Inv r s' := by
  by_cases hp : p ∈ s.livePtrs
  · exact kfree_live_inv hs hp
  · refine kfree_same_inv hs ?_
    obtain ⟨bs, w, hlive, hstale⟩ := hs
    rcases hop with hop | ⟨q, hq, e⟩
    · rcases History.kfree_cases w hlive hop with
        ⟨_, hstep⟩ | ⟨b, hb, _, hf, e, _⟩
      · exact hstep
      · exact absurd (hlive.mem_iff.mpr (mem_live.mpr ⟨b, hb, hf, e.symm⟩)) hp
    · cases e
      have hcall := (hstale p (mem_stale.mpr ⟨hq, hp⟩)).kfree
      simp [History.step, hcall, List.erase_of_not_mem hp]

lemma write_inv {r : Region} {s : Ledger} (hs : Inv r s) {a : Nat} {v : UInt8}
    (hop : s.ok (.write a v)) (hspare : s.Spares (.write a v)) :
    ∃ s', s.step (.write a v) = some s' ∧ Inv r s' := by
  obtain ⟨bs, w, hlive, hstale⟩ := hs
  have hop' : s.toHistory.ok (.write a v) := hop.resolve_right (by simp)
  obtain ⟨b, hb, _, _, hlo, hhi⟩ := History.exists_of_write w hlive hop'
  have hstep : s.step (.write a v) = some ⟨⟨{ s.heap with mem := Function.update s.heap.mem a v },
      s.livePtrs⟩, s.livePtrs ∪ s.returned⟩ := rfl
  refine ⟨_, hstep, bs, History.write_wf w hb hlo hhi v, hlive, fun p hp => ?_⟩
  obtain ⟨hnot, hold⟩ := stale_of_step hstep hp
  have hp' := hold.resolve_right hnot
  obtain ⟨x, rfl, hx, _, hne⟩ := hstale p hp'
  exact ⟨x, rfl, hx, hspare _ hp', hne⟩

/-- What callers may do, as long as the flags of stale pointers are spared, keeps every stale
pointer caught. -/
theorem step_inv {r : Region} (s : Ledger) (op : HeapOp) (hs : Inv r s)
    (hop : s.ok op ∧ s.Spares op) : ∃ s', s.step op = some s' ∧ Inv r s' := by
  cases op with
  | kmalloc size => exact kmalloc_inv hs hop.2
  | kfree p => exact kfree_inv hs hop.1
  | write a v => exact write_inv hs hop.1 hop.2

end Ledger

/-- In a run whose steps all spare the flags of stale pointers, `kfree` of a stale pointer changes
nothing. -/
theorem stale_free (r : Region) (m : Mem) (ops : List HeapOp)
    (hok : Run.Admissible Ledger.step (fun s op => s.ok op ∧ s.Spares op) (Ledger.init r m) ops) :
    ∃ s, Ledger.run r m ops = some s ∧
      ∀ p ∈ s.returned, p ∉ s.livePtrs → kfree s.heap p = some s.heap := by
  obtain ⟨s, hrun, bs, _, _, hstale⟩ := hok.inv (Ledger.init_inv r m) Ledger.step_inv
  exact ⟨s, hrun, fun p hp hnot => (hstale p (Ledger.mem_stale.mpr ⟨hp, hnot⟩)).kfree⟩

/-- Two blocks that are joined again when they are freed, and handed out as one. -/
def staleOps : List HeapOp := [.kmalloc 8, .kmalloc 8, .kfree 4112, .kfree 4136, .kmalloc 64]

theorem stale_free_small :
    ∃ s, Ledger.run smallRegion (fun _ => 0) (staleOps ++ [.write 4124 1]) = some s ∧
      ∀ p ∈ s.returned, p ∉ s.livePtrs → kfree s.heap p = some s.heap := by
  obtain ⟨s, hrun, hfree⟩ :=
    stale_free smallRegion (fun _ => 0) (staleOps ++ [.write 4124 1]) (by decide +kernel)
  exact ⟨s, hrun, hfree⟩

/-- The new owner of the joined block clears a byte of its own payload, and the stale free of the
second pointer is not caught: it changes the count of allocated bytes. -/
theorem stale_free_fails :
    Run.Admissible Ledger.step Ledger.ok (Ledger.init smallRegion fun _ => 0)
        (staleOps ++ [.write 4124 0]) ∧
      ∃ s h', Ledger.run smallRegion (fun _ => 0) (staleOps ++ [.write 4124 0]) = some s ∧
        4136 ∈ s.returned ∧ 4136 ∉ s.livePtrs ∧ kfree s.heap 4136 = some h' ∧
        h'.totalAllocated ≠ s.heap.totalAllocated ∧ h'.mem 4124 ≠ s.heap.mem 4124 := by
  refine ⟨by decide +kernel, ?_⟩
  have hmap : ((Ledger.run smallRegion (fun _ => 0) (staleOps ++ [.write 4124 0])).bind fun s =>
      (kfree s.heap 4136).map fun h => (decide (4136 ∈ s.returned ∧ 4136 ∉ s.livePtrs),
        s.heap.totalAllocated, h.totalAllocated, s.heap.mem 4124, h.mem 4124)) =
      some (true, 64, 4294967144, 0, 1) := by decide +kernel
  obtain ⟨s, hrun, hmap⟩ := Option.bind_eq_some_iff.mp hmap
  obtain ⟨h', hfree, hmap⟩ := Option.map_eq_some_iff.mp hmap
  simp only [Prod.mk.injEq, decide_eq_true_eq] at hmap
  obtain ⟨⟨hret, hnot⟩, htotal, htotal', hbyte, hbyte'⟩ := hmap
  refine ⟨s, h', hrun, hret, hnot, hfree, ?_, ?_⟩
  · omega
  · rw [hbyte, hbyte']
    decide

end Hydra.Mm
