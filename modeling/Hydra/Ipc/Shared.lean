import Hydra.Ipc.Apart

/-!
# One memory

Runs of the calls of the allocator, the message system and their callers on one memory, from the
heap that any history of the allocator has left behind and `ipc_init`. As long as the callers keep
to their contract, every call has the answer that it has on blocks, cells and messages that are
apart from one another (`memory_apart`).
-/

namespace Hydra.Ipc
open ByteMem Linked FirstFit Hydra.Mm

/-! ## The operations -/

/-- The calls, and what their callers do with the memory. -/
inductive MemOp where
  | kmalloc (size : UInt32)
  | kfree (p : Nat)
  | read (a : Nat)
  | write (a : Nat) (v : UInt8)
  | sendMessage (currentTask receiverPid : Int) (data : Nat) (size : Int)
  | recvMessage (currentTask senderPid : Int) (buffer : Nat) (maxSize : Int)

/-- What an operation gives the one who calls it. -/
inductive Answer where
  | pointer (p : Nat)
  | byte (v : UInt8)
  | result (ret : Int)
  | done
  deriving DecidableEq

/-- An operation on the memory. -/
def Shared.exec (k : Shared) : MemOp → Option (Answer × Shared)
  | .kmalloc size => (kmalloc k.heap size).map fun x => (.pointer x.1, { k with heap := x.2 })
  | .kfree p => (kfree k.heap p).map fun h => (.done, { k with heap := h })
  | .read a => some (.byte (k.heap.mem a), k)
  | .write a v => some (.done, k.setMem (Function.update k.heap.mem a v))
  | .sendMessage t receiver data size =>
    let x := k.sendMessage t receiver data size
    some (.result x.1, x.2)
  | .recvMessage t sender buffer maxSize =>
    let x := k.recvMessage t sender buffer maxSize
    some (.result x.1, x.2)

/-- First fit on the blocks; what is in the new block is not known. -/
def Parts.kmalloc (s : Parts) (size : UInt32) : Nat × Parts :=
  let n := (alignSize size).toNat
  match s.blocks.find? (Block.fits n) with
  | none => (0, s)
  | some b => (b.payload 16,
      { s with
        blocks := alloc 16 48 n s.blocks
        owned := b.payload 16 :: s.owned
        cells := fun a => if b.payload 16 ≤ a ∧ a < b.payload 16 + granted 48 n b then none
          else s.cells a })

/-- The block is released, and no caller owns it any more. -/
def Parts.kfree (s : Parts) (p : Nat) : Parts :=
  if p = 0 then s else { s with blocks := release 16 p s.blocks, owned := s.owned.erase p }

/-- An operation on the parts. -/
def Parts.exec (s : Parts) : MemOp → Answer × Parts
  | .kmalloc size => (.pointer (s.kmalloc size).1, (s.kmalloc size).2)
  | .kfree p => (.done, s.kfree p)
  | .read a => (.byte ((s.cells a).getD 0), s)
  | .write a v => (.done, { s with cells := Function.update s.cells a (some v) })
  | .sendMessage t receiver data size =>
    let x := sendMessage s.ipc t receiver (s.buffer data) size
    (.result x.1, { s with ipc := x.2 })
  | .recvMessage t sender buffer maxSize =>
    let x := recvMessage s.ipc t sender (s.buffer buffer) maxSize
    (.result x.ret, s.received buffer maxSize x)

/-- The contract of callers: free null or what they own, read what has been written, write in cells
they may use, and send and receive in such buffers. -/
def Parts.ok (r : Region) (s : Parts) : MemOp → Prop
  | .kmalloc _ => True
  | .kfree p => p = 0 ∨ p ∈ s.owned
  | .read a => Accessible r s a ∧ s.cells a ≠ none
  | .write a _ => Accessible r s a
  | .sendMessage t receiver data size => (-2 ^ 31 ≤ t ∧ t < 2 ^ 31) ∧
      (Sendable receiver (s.buffer data) size →
        ∀ i < size.toNat, Accessible r s (data + i) ∧ s.cells (data + i) ≠ none)
  | .recvMessage t _ buffer maxSize => Receivable t (s.buffer buffer) maxSize →
      ∀ i < maxSize.toNat, Accessible r s (buffer + i)

instance instDecidableParts (r : Region) (s : Parts) : ∀ op, Decidable (s.ok r op)
  | .kmalloc _ => inferInstanceAs (Decidable True)
  | .kfree _ => inferInstanceAs (Decidable (_ ∨ _))
  | .read _ => inferInstanceAs (Decidable (_ ∧ _))
  | .write _ _ => inferInstanceAs (Decidable (Accessible _ _ _))
  | .sendMessage _ _ _ _ => inferInstanceAs (Decidable (_ ∧ (_ ∧ _ ∧ _ → _)))
  | .recvMessage _ _ _ _ => inferInstanceAs (Decidable (_ ∧ _ ∧ _ ∧ _ → _))

def Shared.step (x : Shared × List Answer) (op : MemOp) : Option (Shared × List Answer) :=
  (x.1.exec op).map fun y => (y.2, x.2 ++ [y.1])

def Parts.step (x : Parts × List Answer) (op : MemOp) : Option (Parts × List Answer) :=
  some ((x.1.exec op).2, x.2 ++ [(x.1.exec op).1])

/-- The parts after `ipc_init`: the pointers that were live before belong to callers, and the whole
memory is known. -/
def Parts.start (hist : Mm.History) (h : Heap) (s : IpcState) : Parts :=
  ⟨h.blocks.getD [], hist.livePtrs, fun a => some (hist.heap.mem a), s⟩

/-! ## The heap -/

namespace Layout

variable {r : Region} {S : Set Nat} {s : Parts} {k : Shared}

/-- Other blocks are made and joined, but those of the callers and the slots are kept. -/
lemma reblock (h : Layout r S s k) {bs : List Block} {owned : List Nat} {heap : Heap}
    (w : WF r heap bs) (hsub : ∀ p ∈ owned, p ∈ s.owned) (honce : owned.Nodup)
    (hkeep : ∀ c ∈ s.blocks, c.free = false → c.payload 16 ∈ owned ∨ c.payload 16 ∈ S → c ∈ bs)
    (hpayload : ∀ c ∈ s.blocks, c.free = false → c ∈ bs → ∀ i < c.size,
      heap.mem (c.payload 16 + i) = k.heap.mem (c.payload 16 + i))
    (hout : ∀ x, x < r.start ∨ r.stop ≤ x → heap.mem x = k.heap.mem x) :
    Layout r S { s with blocks := bs, owned := owned } { k with heap := heap } := by
  have howned : ∀ p ∈ owned, ∃ c ∈ s.blocks, c.free = false ∧ c.payload 16 = p ∧ c ∈ bs := by
    intro p hp
    obtain ⟨c, hc, hused, rfl⟩ := mem_live.mp (h.used p (hsub p hp))
    exact ⟨c, hc, hused, rfl, hkeep c hc hused (.inl hp)⟩
  refine ⟨w, fun p hp => ?_, fun p hp => h.foreign p (hsub p hp), fun p hp => ?_, honce,
    fun p hp => ?_, h.free, h.queues, fun a v ha hv => ?_⟩
  · obtain ⟨c, hc, hused, rfl, hsize⟩ := h.slot p hp
    exact ⟨c, hkeep c hc hused (.inr hp), hused, rfl, hsize⟩
  · obtain ⟨c, _, hused, rfl, hc⟩ := howned p hp
    exact mem_live.mpr ⟨c, hc, hused, rfl⟩
  · obtain ⟨c, hc, hused, rfl, hsize⟩ := h.slot p hp
    refine (h.stored _ hp).congr fun x hlo hhi => ?_
    obtain ⟨i, rfl⟩ := Nat.exists_eq_add_of_le hlo
    exact hpayload c hc hused (hkeep c hc hused (.inr hp)) i (by omega)
  · rcases ha with hfar | ⟨c, hc, hused, hown, hlo, hhi⟩
    · exact (hout a hfar).trans (h.cells a v (.inl hfar) hv)
    · obtain ⟨d, hd, hused', e, hd'⟩ := howned _ hown
      obtain rfl := w.tiles.payload_inj (by decide) hc hd' e.symm
      have hold := h.cells a v (.inr ⟨c, hd, hused, hsub _ hown, hlo, hhi⟩) hv
      obtain ⟨i, rfl⟩ := Nat.exists_eq_add_of_le hlo
      refine (hpayload c hd hused hd' i ?_).trans hold
      unfold Block.payload Block.fin at *
      omega

/-- No header is outside of the region. -/
lemma headers_out {heap : Heap} {bs : List Block} (w : WF r heap bs) {m m' : Mem}
    (e : HeadersOnly bs m m') {x : Nat} (hx : x < r.start ∨ r.stop ≤ x) : m' x = m x := by
  refine e x fun b hb => ?_
  have hbounds := w.tiles.mem_bounds hb
  unfold Block.fin at hbounds
  omega

/-- A block is handed out. -/
lemma kmalloc (h : Layout r S s k) {size : UInt32} {b : Block}
    (hb : s.blocks.find? (Block.fits (alignSize size).toNat) = some b) :
    ∃ heap, Mm.kmalloc k.heap size = some (b.payload 16, heap) ∧
      HeadersOnly (alloc 16 48 (alignSize size).toNat s.blocks) k.heap.mem heap.mem ∧
      Layout r S { s with blocks := alloc 16 48 (alignSize size).toNat s.blocks }
        { k with heap := heap } := by
  obtain ⟨heap, hcall, w, _, hheaders⟩ := kmalloc_block h.wf hb
  refine ⟨heap, hcall, hheaders, h.reblock w (fun _ hp => hp) h.once
    (fun c hc hused _ => mem_alloc_of_used hb hc hused) (fun c _ _ hc i hi => ?_)
    fun x hx => headers_out w hheaders hx⟩
  exact hheaders.payload w hc hi

/-- The block that is handed out belonged to nobody. -/
lemma fresh (h : Layout r S s k) {n : Nat} {b : Block}
    (hb : s.blocks.find? (Block.fits n) = some b) : b.payload 16 ∉ s.owned ∧ b.payload 16 ∉ S := by
  obtain ⟨hmem, hfree, _⟩ := fits_of_find hb
  have hno : ∀ c ∈ s.blocks, c.free = false → c.payload 16 ≠ b.payload 16 := by
    intro c hc hused e
    obtain rfl := h.wf.tiles.payload_inj (by decide) hc hmem e
    rw [hfree] at hused
    cases hused
  constructor
  · intro hown
    obtain ⟨c, hc, hused, e⟩ := mem_live.mp (h.used _ hown)
    exact hno c hc hused e
  · intro hslot
    obtain ⟨c, hc, hused, e, _⟩ := h.slot _ hslot
    exact hno c hc hused e

/-- A caller gets a used block. -/
lemma own (h : Layout r S s k) {c : Block} (hc : c ∈ s.blocks) (hused : c.free = false)
    (hown : c.payload 16 ∉ s.owned) (hslot : c.payload 16 ∉ S) :
    Layout r S
      { s with
        owned := c.payload 16 :: s.owned
        cells := fun a => if c.payload 16 ≤ a ∧ a < c.payload 16 + c.size then none
          else s.cells a } k := by
  refine ⟨h.wf, h.slot, fun p hp => ?_, fun p hp => ?_, List.nodup_cons.mpr ⟨hown, h.once⟩,
    h.stored, h.free, h.queues, fun a v ha hv => ?_⟩
  · rcases List.mem_cons.mp hp with rfl | hp
    · exact hslot
    · exact h.foreign p hp
  · rcases List.mem_cons.mp hp with rfl | hp
    · exact mem_live.mpr ⟨c, hc, hused, rfl⟩
    · exact h.used p hp
  · simp only at hv
    by_cases hin : c.payload 16 ≤ a ∧ a < c.payload 16 + c.size
    · rw [if_pos hin] at hv
      cases hv
    · rw [if_neg hin] at hv
      refine h.cells a v ?_ hv
      rcases ha with hfar | ⟨d, hd, hused', hmem, hlo, hhi⟩
      · exact .inl hfar
      · rcases List.mem_cons.mp hmem with e | hmem
        · obtain rfl := h.wf.tiles.payload_inj (by decide) hd hc e
          unfold Block.payload Block.fin at *
          omega
        · exact .inr ⟨d, hd, hused', hmem, hlo, hhi⟩

/-- The message system gets a used block. -/
lemma addSlot (h : Layout r S s k) {c : Block} (hc : c ∈ s.blocks) (hused : c.free = false)
    (hsize : 280 ≤ c.size) (hown : c.payload 16 ∉ s.owned) (hslot : c.payload 16 ∉ S) {m' : Mem}
    (e : AgreeOff (c.payload 16) (c.payload 16 + 280) k.heap.mem m') {msg : Message}
    (hmsg : MessageAt m' (c.payload 16) msg) :
    Layout r (insert (c.payload 16) S) { s with ipc := s.ipc.setMsg (c.payload 16) msg }
      (k.setMem m') := by
  have hwider : ∀ p ∈ insert (c.payload 16) S,
      ∃ d ∈ s.blocks, d.free = false ∧ d.payload 16 = p ∧ 280 ≤ d.size := by
    rintro p (rfl | hp)
    · exact ⟨c, hc, hused, rfl, hsize⟩
    · exact h.slot p hp
  have hfar : ∀ p ∈ S, c.payload 16 + 280 ≤ p ∨ p + 280 ≤ c.payload 16 := by
    intro p hp
    obtain ⟨d, hd, _, rfl, hsize'⟩ := h.slot p hp
    have hne : c ≠ d := by
      rintro rfl
      exact hslot hp
    have hapart := h.wf.tiles.payloads_apart hc hd hne
    unfold Block.payload Block.fin at *
    omega
  refine ⟨wf_congr h.wf fun b hb x hlo hhi => e x ?_, hwider, fun p hp => ?_, h.used, h.once,
    fun p hp => ?_, h.free, h.queues, fun a v ha hv => ?_⟩
  · have hapart := h.wf.tiles.payload_apart hc hb
    unfold Block.payload Block.fin at *
    omega
  · rintro (rfl | hin)
    · exact hown hp
    · exact h.foreign p hp hin
  · show MessageAt m' p (Function.update s.ipc.msgs (c.payload 16) msg p)
    rcases hp with rfl | hp
    · rw [Function.update_self]
      exact hmsg
    · have hne : p ≠ c.payload 16 := by
        rintro rfl
        exact hslot hp
      rw [Function.update_of_ne hne]
      have hapart := hfar p hp
      exact (h.stored p hp).congr fun x hlo hhi => e x (by omega)
  · refine (e a ?_).trans (h.cells a v ha hv)
    have hbounds := h.wf.tiles.mem_bounds hc
    rcases ha with hout | ⟨d, hd, _, hmem, hlo, hhi⟩
    · unfold Block.payload Block.fin at *
      omega
    · have hne : c ≠ d := by
        rintro rfl
        exact hown hmem
      have hapart := h.wf.tiles.payloads_apart hc hd hne
      unfold Block.payload Block.fin at *
      omega

/-- A caller gives a block back. -/
lemma kfree (h : Layout r S s k) {p : Nat} (hp : p ∈ s.owned) :
    ∃ heap, Mm.kfree k.heap p = some heap ∧
      Layout r S { s with blocks := release 16 p s.blocks, owned := s.owned.erase p }
        { k with heap := heap } := by
  obtain ⟨heap, hcall, w, hheaders⟩ := kfree_live h.wf (h.used p hp)
  refine ⟨heap, hcall, h.reblock w (fun q hq => List.mem_of_mem_erase hq) (h.once.erase p)
    (fun c hc hused hwho => mem_release_of_used hc hused ?_) (fun c hc _ _ i hi => ?_)
    fun x hx => headers_out h.wf hheaders hx⟩
  · rintro rfl
    rcases hwho with hown | hslot
    · exact h.once.not_mem_erase hown
    · exact h.foreign _ hp hslot
  · exact hheaders.payload h.wf hc hi

end Layout

/-! ## ipc_init -/

/-- Allocation keeps every header where it is. -/
lemma exists_addr_alloc {n : Nat} {bs : List Block} {b d : Block}
    (hb : bs.find? (Block.fits n) = some b) (hd : d ∈ bs) :
    ∃ c ∈ alloc 16 48 n bs, c.addr = d.addr := by
  obtain ⟨pre, post, rfl, _, _, e⟩ := alloc_of_find 16 48 hb
  rw [e]
  rcases List.mem_append.mp hd with hpre | hd
  · exact ⟨d, List.mem_append_left _ (List.mem_append_left _ hpre), rfl⟩
  · rcases List.mem_cons.mp hd with rfl | hpost
    · obtain ⟨c, hc, e'⟩ := (mem_carve n d).1
      exact ⟨c, List.mem_append_left _ (List.mem_append_right _ hc), e'⟩
    · exact ⟨d, List.mem_append_right _ hpost, rfl⟩

/-- The memories differ at most in headers and slots. -/
def SameElsewhere (S : Set Nat) (bs : List Block) (m m' : Mem) : Prop :=
  ∀ x, (∀ b ∈ bs, x < b.addr ∨ b.addr + 16 ≤ x) → (∀ p ∈ S, x < p ∨ p + 280 ≤ x) → m' x = m x

lemma messageAt_read (m : Mem) (p : Nat) : MessageAt m p (readMessage m p) :=
  ⟨rfl, rfl, rfl, fun _ _ => rfl, rfl⟩

section Init

variable {r : Region} {s : Parts} {k : Shared}

/-- On the bytes the loop of `ipc_init` obtains the same slots as on the structs. -/
lemma preallocate_layout (n : Nat) {slots : List Nat} {h : Heap} (w : WF r h s.blocks)
    (hl : Layout r {p | p ∈ slots} s k) (hc : Chain s.ipc.next s.ipc.freeMessages slots)
    (hsame : SameElsewhere {p | p ∈ slots} s.blocks h.mem k.heap.mem) :
    ∃ h' bs ipc slots' k', preallocate n slots.length h s.ipc = some (slots'.length, h', ipc) ∧
      Shared.preallocate n slots.length k = some (slots'.length, k') ∧ WF r h' bs ∧
      Layout r {p | p ∈ slots'} { s with blocks := bs, ipc := ipc } k' ∧
      Chain ipc.next ipc.freeMessages slots' ∧ ipc.messageQueues = s.ipc.messageQueues := by
  induction n generalizing s k h slots with
  | zero => exact ⟨h, s.blocks, s.ipc, slots, k, rfl, rfl, w, hl, hc, rfl⟩
  | succ n ih =>
    cases hfind : s.blocks.find? (Block.fits (alignSize sizeofMessage).toNat) with
    | none =>
      obtain ⟨h', bs, ipc, slots', k', e, e', hrest⟩ := ih w hl hc hsame
      refine ⟨h', bs, ipc, slots', k', ?_, ?_, hrest⟩
      · unfold preallocate
        simpa only [kmalloc_none w hfind, if_true] using e
      · unfold Shared.preallocate
        simpa only [kmalloc_none hl.wf hfind, if_true] using e'
    | some b =>
      obtain ⟨h₁, hcall, w₁, hround, hheaders⟩ := kmalloc_block w hfind
      obtain ⟨heap, hcall', hheaders', hl₁⟩ := hl.kmalloc hfind
      obtain ⟨hown, hslot⟩ := hl.fresh hfind
      have hp0 : b.payload 16 ≠ 0 := b.payload_ne_zero (by decide)
      obtain ⟨c, hmem, hused, hpc, hsize⟩ :
          ∃ c ∈ alloc 16 48 (alignSize sizeofMessage).toNat s.blocks,
            c.free = false ∧ c.payload 16 = b.payload 16 ∧ 280 ≤ c.size :=
        ⟨_, mem_alloc hfind, rfl, rfl, hround⟩
      generalize b.payload 16 = p at *
      subst hpc
      -- outside of the slots the memories do not differ, so the new slot holds the same in both
      have hrest : ∀ x, (∀ d ∈ alloc 16 48 (alignSize sizeofMessage).toNat s.blocks,
          x < d.addr ∨ d.addr + 16 ≤ x) → (∀ q ∈ slots, x < q ∨ q + 280 ≤ x) →
          heap.mem x = h₁.mem x := by
        intro x hx hslots
        have hx' : ∀ d ∈ s.blocks, x < d.addr ∨ d.addr + 16 ≤ x := by
          intro d hd
          obtain ⟨d', hd', e⟩ := exists_addr_alloc hfind hd
          rw [← e]
          exact hx d' hd'
        exact (hheaders' x hx).trans ((hsame x hx' hslots).trans (hheaders x hx).symm)
      have hread : MessageAt heap.mem (c.payload 16) (readMessage h₁.mem (c.payload 16)) := by
        refine (messageAt_read h₁.mem _).congr fun x hlo hhi =>
          hrest x (fun d hd => ?_) fun q hq => ?_
        · have hapart := w₁.tiles.payload_apart hmem hd
          unfold Block.payload Block.fin at *
          omega
        · obtain ⟨d, hd, _, rfl, hsize'⟩ := hl₁.slot q hq
          have hne : c ≠ d := by
            rintro rfl
            exact hslot hq
          have hapart := w₁.tiles.payloads_apart hmem hd hne
          unfold Block.payload Block.fin at *
          omega
      have hfree : s.ipc.freeMessages < 2 ^ 64 := by
        cases slots with
        | nil =>
          rw [Chain.nil_iff.mp hc]
          decide
        | cons f slots =>
          rw [hc.1]
          exact hl.slot_lt List.mem_cons_self
      have hframe := (store_frame heap.mem (c.payload 16 + 272) 8 s.ipc.freeMessages).mono
        (show c.payload 16 ≤ _ by omega) (show _ ≤ c.payload 16 + 280 by omega)
      have hl₂ := hl₁.addSlot hmem hused hsize hown hslot hframe (hread.setMsgNext hfree)
      have hset : insert (c.payload 16) {q | q ∈ slots} = {q | q ∈ c.payload 16 :: slots} := by
        ext q
        exact List.mem_cons.symm
      rw [hset] at hl₂
      generalize hipc : ({ s.ipc.setMsg (c.payload 16)
        { readMessage h₁.mem (c.payload 16) with next := s.ipc.freeMessages } with
          freeMessages := c.payload 16 } : IpcState) = ipc₁
      have hl₃ : Layout r {q | q ∈ c.payload 16 :: slots}
          { s with blocks := alloc 16 48 (alignSize sizeofMessage).toNat s.blocks, ipc := ipc₁ }
          { ({ k with heap := heap } : Shared).setMem
            (setMsgNext heap.mem (c.payload 16) s.ipc.freeMessages) with
              freeMessages := c.payload 16 } := by
        subst hipc
        exact ⟨hl₂.wf, hl₂.slot, hl₂.foreign, hl₂.used, hl₂.once, hl₂.stored, rfl, hl₂.queues,
          hl₂.cells⟩
      have hc₃ : Chain ipc₁.next ipc₁.freeMessages (c.payload 16 :: slots) := by
        subst hipc
        refine hc.push hp0 (by simp [IpcState.next, IpcState.setMsg]) fun q hq => ?_
        have hne : q ≠ c.payload 16 := by
          rintro rfl
          exact hslot hq
        simp [IpcState.next, IpcState.setMsg, hne]
      obtain ⟨h', bs, ipc, slots', k', e, e', w', hl', hc', hqueues⟩ := ih w₁ hl₃ hc₃
        fun x hx hslots => (hframe x (hslots _ List.mem_cons_self)).trans
          (hrest x hx fun q hq => hslots q (List.mem_cons_of_mem _ hq))
      refine ⟨h', bs, ipc, slots', k', ?_, ?_, w', hl', hc', ?_⟩
      · unfold preallocate
        simp only [hcall, if_neg hp0, hipc]
        exact e
      · unfold Shared.preallocate
        simp only [hcall', if_neg hp0, hl.free]
        exact e'
      · rw [hqueues, ← hipc]
        rfl

lemma ipcInit_layout {hist : Mm.History} {bs : List Block} (w : WF r hist.heap bs)
    (hlive : hist.livePtrs.Perm (live 16 bs)) :
    ∃ h ipc slots k, ipcInit hist.heap (bootIpc hist.heap.mem) = some (slots.length, h, ipc) ∧
      Shared.ipcInit (.boot hist.heap) = some (slots.length, k) ∧
      Layout r {p | p ∈ slots} (.start hist h ipc) k ∧
      Rep {p | p ∈ slots} ipc slots fun _ => [] := by
  have hstart : Layout r {p | p ∈ ([] : List Nat)}
      ⟨bs, hist.livePtrs, fun a => some (hist.heap.mem a), { bootIpc hist.heap.mem with
        messageQueues := fun i => if 0 ≤ i ∧ i < maxTasks then ⟨0, 0, 0⟩ else ⟨0, 0, 0⟩ }⟩
      { Shared.boot hist.heap with
        messageQueues := fun i => if 0 ≤ i ∧ i < maxTasks then ⟨0, 0, 0⟩ else ⟨0, 0, 0⟩ } := by
    refine ⟨w, fun p hp => absurd hp List.not_mem_nil, fun p _ => List.not_mem_nil,
      fun p hp => hlive.mem_iff.mp hp, ?_, fun p hp => absurd hp List.not_mem_nil, rfl, rfl,
      fun a v _ hv => Option.some.inj hv⟩
    exact hlive.nodup_iff.mpr (w.tiles.live_nodup (by decide))
  obtain ⟨h, bs', ipc, slots, k, e, e', w', hl, hc, hqueues⟩ :=
    preallocate_layout maxMessages w hstart rfl fun x _ _ => rfl
  refine ⟨h, ipc, slots, k, e, e', ?_, Rep.of_pool hc fun i => ?_⟩
  · unfold Parts.start
    rw [w'.blocks]
    exact hl
  · rw [hqueues]
    simp

end Init

/-! ## Runs -/

section Runs

variable {r : Region} {S : Set Nat} {s : Parts} {k : Shared}

/-- A request has the answer that first fit gives. -/
lemma Layout.exec_kmalloc (h : Layout r S s k) (size : UInt32) :
    ∃ k', k.exec (.kmalloc size) = some (.pointer (s.kmalloc size).1, k') ∧
      Layout r S (s.kmalloc size).2 k' ∧ (s.kmalloc size).2.ipc = s.ipc := by
  simp only [Shared.exec, Parts.kmalloc]
  cases hfind : s.blocks.find? (Block.fits (alignSize size).toNat) with
  | none =>
    rw [kmalloc_none h.wf hfind]
    exact ⟨k, rfl, h, rfl⟩
  | some b =>
    obtain ⟨heap, hcall, _, h₁⟩ := h.kmalloc hfind
    obtain ⟨hown, hslot⟩ := h.fresh hfind
    rw [hcall]
    exact ⟨_, rfl, h₁.own (mem_alloc hfind) rfl hown hslot, rfl⟩

lemma Layout.exec_kfree (h : Layout r S s k) {p : Nat} (hp : p = 0 ∨ p ∈ s.owned) :
    ∃ k', k.exec (.kfree p) = some (.done, k') ∧ Layout r S (s.kfree p) k' ∧
      (s.kfree p).ipc = s.ipc := by
  simp only [Shared.exec, Parts.kfree]
  by_cases h0 : p = 0
  · have hsame : Mm.kfree k.heap p = some k.heap := by
      unfold Mm.kfree
      rw [if_pos h0]
    rw [hsame, if_pos h0]
    exact ⟨k, rfl, h, rfl⟩
  · obtain ⟨heap, hcall, h₁⟩ := h.kfree (hp.resolve_left h0)
    rw [hcall, if_neg h0]
    exact ⟨_, rfl, h₁, rfl⟩

lemma Layout.exec_write (h : Layout r S s k) {a : Nat} (ha : Accessible r s a) (v : UInt8) :
    Layout r S { s with cells := Function.update s.cells a (some v) }
      (k.setMem (Function.update k.heap.mem a v)) := by
  refine h.setCells (fun x hx => ?_) fun x u hx hu => ?_
  · have hne : x ≠ a := by
      rintro rfl
      exact hx ha
    exact Function.update_of_ne hne v k.heap.mem
  · rcases eq_or_ne x a with rfl | hne
    · rw [Function.update_self] at hu ⊢
      exact Option.some.inj hu
    · rw [Function.update_of_ne hne] at hu ⊢
      exact h.cells x u hx hu

/-- Every operation that the contract allows has the answer that it has on the parts. -/
lemma exec_layout (h : Layout r S s k) {free : List Nat} {box : Int → List Letter}
    (hrep : Rep S s.ipc free box) {op : MemOp} (hok : s.ok r op) :
    ∃ k', k.exec op = some ((s.exec op).1, k') ∧ Layout r S (s.exec op).2 k' ∧
      ∃ free' box', Rep S (s.exec op).2.ipc free' box' := by
  cases op with
  | kmalloc size =>
    obtain ⟨k', e, h', hipc⟩ := h.exec_kmalloc size
    refine ⟨k', e, h', free, box, ?_⟩
    rw [Parts.exec, hipc]
    exact hrep
  | kfree p =>
    obtain ⟨k', e, h', hipc⟩ := h.exec_kfree hok
    refine ⟨k', e, h', free, box, ?_⟩
    rw [Parts.exec, hipc]
    exact hrep
  | read a =>
    obtain ⟨hacc, hne⟩ := hok
    obtain ⟨v, hv⟩ := Option.ne_none_iff_exists'.mp hne
    refine ⟨k, ?_, h, free, box, hrep⟩
    rw [Shared.exec, Parts.exec, hv, h.cells a v hacc hv]
    rfl
  | write a v => exact ⟨_, rfl, h.exec_write hok v, free, box, hrep⟩
  | sendMessage t receiver data size =>
    obtain ⟨hret, h'⟩ := h.sendMessage hrep hok.1 hok.2
    refine ⟨_, ?_, h', sendMessage_rep hrep t receiver _ size⟩
    rw [Shared.exec, Parts.exec, hret]
  | recvMessage t sender buffer maxSize =>
    obtain ⟨hret, h'⟩ := h.recvMessage hrep sender hok
    refine ⟨_, ?_, h', recvMessage_rep hrep t sender _ maxSize⟩
    rw [Shared.exec, Parts.exec, hret]

/-- What a run keeps: the parts are in the memory, and the answers so far are the same. -/
def Together (r : Region) (S : Set Nat) (x : Shared × List Answer) (y : Parts × List Answer) :
    Prop :=
  (Layout r S y.1 x.1 ∧ ∃ free box, Rep S y.1.ipc free box) ∧ x.2 = y.2

lemma Together.step {x : Shared × List Answer} {y : Parts × List Answer}
    (h : Together r S x y) {op : MemOp} (hok : y.1.ok r op) :
    ∃ x' y', Shared.step x op = some x' ∧ Parts.step y op = some y' ∧ Together r S x' y' := by
  obtain ⟨⟨hl, free, box, hrep⟩, hanswers⟩ := h
  obtain ⟨k', e, hl', hrep'⟩ := exec_layout hl hrep hok
  refine ⟨(k', x.2 ++ [(y.1.exec op).1]), _, ?_, rfl, ⟨hl', hrep'⟩, by rw [hanswers]⟩
  unfold Shared.step
  rw [e]
  rfl

end Runs

/-- On one memory, the allocator, the message system and callers that keep to their contract get the
answers that they get on blocks, cells and messages that are apart from one another, from the heap
that any history of the allocator and `ipc_init` leave behind. The block list in memory is that of
the parts, and every queued message stands in its slot, where no caller may write. -/
theorem memory_apart (r : Region) (m : Mem) (ops : List HeapOp) (hok : Mm.History.Contract r m ops)
    (hist : Mm.History) (hrun : Mm.History.run r m ops = some hist) (n : Nat) (h : Heap)
    (s : IpcState) (hinit : ipcInit hist.heap (bootIpc hist.heap.mem) = some (n, h, s))
    (mops : List MemOp) (hmops : Run.Admissible Parts.step (fun x => x.1.ok r)
      (.start hist h s, []) mops) :
    ∃ k x y, Shared.ipcInit (.boot hist.heap) = some (n, k) ∧
      Run.run Shared.step (k, []) mops = some x ∧
      Run.run Parts.step (.start hist h s, []) mops = some y ∧ x.2 = y.2 ∧
      x.1.heap.blocks = some y.1.blocks ∧
      ∀ pid, ∀ a ∈ y.1.ipc.pending pid,
        bytes (shift x.1.heap.mem (msgData a.slot)) a.body.length = a.body ∧
        ∀ i < 280, ¬Accessible r y.1 (a.slot + i) := by
  obtain ⟨bs, w, hlive⟩ := Mm.History.inv_of_run hok hrun
  obtain ⟨h', s', slots, k, hinit', hcall, hl, hrep⟩ := ipcInit_layout w hlive
  rw [hinit, Option.some.injEq, Prod.mk.injEq, Prod.mk.injEq] at hinit'
  obtain ⟨rfl, rfl, rfl⟩ := hinit'
  have hboth : Together r {p | p ∈ slots} (k, []) (.start hist h s, []) :=
    ⟨⟨hl, slots, _, hrep⟩, rfl⟩
  obtain ⟨x, y, hx, hy, ⟨hl', free, box, hrep'⟩, hanswers⟩ :=
    hmops.simulated hboth fun _ _ _ h hop => h.step hop
  refine ⟨k, x, y, hcall, hx, hy, hanswers, hl'.wf.blocks, fun pid a ha => ?_⟩
  rw [hrep'.pending_eq] at ha
  have hslot := hrep'.box_mem ha
  obtain ⟨_, _, _, hdata, _, hle⟩ := hrep'.holds pid a ha
  refine ⟨?_, fun i hi hacc => ?_⟩
  · rw [← hdata, length_bytes]
    unfold maxMessageSize at hle
    exact bytes_congr fun i hi => (hl'.stored _ hslot).data i (by omega)
  · have hapart := hl'.slot_accessible hslot hacc
    omega

/-- A heap region with room for two message slots, and some more. -/
def sharedRegion : Region where
  start := 4096
  stop := 4800
  start_pos := Mm.page_pos
  start_aligned := Mm.page_aligned
  stop_aligned := by decide
  room := by decide
  small := by decide
  addressable := by decide

/-- The heap where a caller has a block of 8 bytes. -/
def sharedHistory : Mm.History :=
  ((Mm.History.run sharedRegion (fun _ => 0) [.kmalloc 8]).getD (.init sharedRegion fun _ => 0))

/-- He sends a byte of this block, and receives it there. -/
def sharedOps : List MemOp :=
  [.write 4112 7, .sendMessage 0 1 4112 1, .kmalloc 8, .recvMessage 1 0 4116 1, .read 4116,
    .kfree 4112]

theorem memory_apart_byte :
    ∃ n k x, Shared.ipcInit (.boot sharedHistory.heap) = some (n, k) ∧
      Run.run Shared.step (k, []) sharedOps = some x ∧
      x.2 = [.done, .result 0, .pointer 4728, .result 1, .byte 7, .done] := by
  have hist : (Mm.History.run sharedRegion (fun _ => 0) [.kmalloc 8]).isSome := by decide +kernel
  obtain ⟨s₀, hhist⟩ := Option.isSome_iff_exists.mp hist
  have hshared : sharedHistory = s₀ := by
    unfold sharedHistory
    rw [hhist, Option.getD_some]
  have hinit : (ipcInit sharedHistory.heap (bootIpc sharedHistory.heap.mem)).isSome := by
    decide +kernel
  obtain ⟨⟨n, h, s⟩, hinit⟩ := Option.isSome_iff_exists.mp hinit
  have hrun : (ipcInit sharedHistory.heap (bootIpc sharedHistory.heap.mem)).all fun x =>
      decide (Run.Admissible Parts.step (fun y => y.1.ok sharedRegion)
        (.start sharedHistory x.2.1 x.2.2, []) sharedOps ∧
      (Run.run Parts.step (.start sharedHistory x.2.1 x.2.2, []) sharedOps).map Prod.snd =
        some [.done, .result 0, .pointer 4728, .result 1, .byte 7, .done]) := by decide +kernel
  rw [hinit, Option.all_some, decide_eq_true_iff] at hrun
  obtain ⟨hok, hanswers⟩ := hrun
  rw [hshared] at *
  obtain ⟨k, x, y, hcall, hx, hy, hsame, _⟩ := memory_apart sharedRegion (fun _ => 0) [.kmalloc 8]
    (by decide) s₀ hhist n h s hinit sharedOps hok
  rw [hy] at hanswers
  exact ⟨n, k, x, hcall, hx, hsame.trans (Option.some.inj hanswers)⟩

end Hydra.Ipc
