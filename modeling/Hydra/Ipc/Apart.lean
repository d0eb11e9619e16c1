import Hydra.Ipc.Memory

/-!
# Blocks, cells and messages

What the shared memory of the allocator, the message system and their callers stands for (`Parts`):
the blocks of the heap, the cells that callers may use, with what they have written there, and the
messages. The invariant `Layout` says where these are in memory: no two of them share a byte.
-/

namespace Hydra.Ipc
open ByteMem Linked FirstFit Hydra.Mm

/-- The blocks of the heap, the pointers that callers own, what is known of the cells, and the
messages. -/
structure Parts where
  blocks : List Block
  owned : List Nat
  cells : Nat → Option UInt8
  ipc : IpcState

lemma Rep.freeMessages_mem {S : Set Nat} {s : IpcState} {free : List Nat} {box : Int → List Letter}
    (h : Rep S s free box) : s.freeMessages = 0 ∨ s.freeMessages ∈ S := by
  cases free with
  | nil => exact .inl (Chain.nil_iff.mp h.pool)
  | cons f free =>
    obtain ⟨hf, _⟩ := h.pool
    rw [hf]
    exact .inr (h.free_mem List.mem_cons_self)

/-- A caller may use the cell: it lies outside of the heap, or in a block that a caller owns. -/
def Accessible (r : Region) (s : Parts) (a : Nat) : Prop :=
  (a < r.start ∨ r.stop ≤ a) ∨
    ∃ c ∈ s.blocks, c.free = false ∧ c.payload 16 ∈ s.owned ∧ c.payload 16 ≤ a ∧ a < c.fin 16

instance instDecidableAccessible (r : Region) (s : Parts) (a : Nat) :
    Decidable (Accessible r s a) :=
  inferInstanceAs (Decidable (_ ∨ _))

/-- The buffer at an address, as far as its cells are known. -/
def Parts.buffer (s : Parts) (p : Nat) : Option Mem :=
  if p = 0 then none else some fun i => (s.cells (p + i)).getD 0

/-- After a receive into a buffer: the cells that have been copied are known. -/
def Parts.received (s : Parts) (buffer : Nat) (maxSize : Int) (x : Reception) : Parts :=
  { s with
    ipc := x.state
    cells := fun a => if buffer ≤ a ∧ a < buffer + (min x.ret maxSize).toNat
      then x.buffer.map (· (a - buffer)) else s.cells a }

/-- A receive that fails copies nothing. -/
lemma Parts.received_failed (s : Parts) (buffer : Nat) (maxSize : Int) (dst : Option Mem) :
    s.received buffer maxSize ⟨-1, dst, s.ipc⟩ = s := by
  have hnone : (min (-1) maxSize).toNat = 0 := by omega
  unfold Parts.received
  simp only [hnone, Nat.add_zero]
  congr 1
  funext a
  exact if_neg (by omega)

/-- The slots are in used blocks, which no caller owns; the messages are there, the cells hold what
is known of them, and the static variables are those of the parts. -/
structure Layout (r : Region) (S : Set Nat) (s : Parts) (k : Shared) : Prop where
  wf : WF r k.heap s.blocks
  slot : ∀ p ∈ S, ∃ c ∈ s.blocks, c.free = false ∧ c.payload 16 = p ∧ 280 ≤ c.size
  foreign : ∀ p ∈ s.owned, p ∉ S
  used : ∀ p ∈ s.owned, p ∈ live 16 s.blocks
  once : s.owned.Nodup
  stored : ∀ p ∈ S, MessageAt k.heap.mem p (s.ipc.msgs p)
  free : k.freeMessages = s.ipc.freeMessages
  queues : k.messageQueues = s.ipc.messageQueues
  cells : ∀ a v, Accessible r s a → s.cells a = some v → k.heap.mem a = v

namespace Layout

variable {r : Region} {S : Set Nat} {s : Parts} {k : Shared}

/-! ## Addresses -/

/-- A slot is apart from what callers may use. -/
lemma slot_accessible (h : Layout r S s k) {p a : Nat} (hp : p ∈ S) (ha : Accessible r s a) :
    a < p ∨ p + 280 ≤ a := by
  obtain ⟨c, hc, _, rfl, hsize⟩ := h.slot p hp
  have hbounds := h.wf.tiles.mem_bounds hc
  rcases ha with hout | ⟨d, hd, _, hown, hlo, hhi⟩
  · unfold Block.payload Block.fin at *
    omega
  · have hne : c ≠ d := by
      rintro rfl
      exact h.foreign _ hown hp
    have hapart := h.wf.tiles.payloads_apart hc hd hne
    unfold Block.payload Block.fin at *
    omega

/-- Two slots are apart. -/
lemma slot_slot (h : Layout r S s k) {p q : Nat} (hp : p ∈ S) (hq : q ∈ S) (hne : p ≠ q) :
    p + 280 ≤ q ∨ q + 280 ≤ p := by
  obtain ⟨c, hc, _, rfl, hsize⟩ := h.slot p hp
  obtain ⟨d, hd, _, rfl, hsize'⟩ := h.slot q hq
  have hcd : c ≠ d := by
    rintro rfl
    exact hne rfl
  have hapart := h.wf.tiles.payloads_apart hc hd hcd
  unfold Block.payload Block.fin at *
  omega

/-- A buffer that callers may use is apart from every slot. -/
lemma slot_range (h : Layout r S s k) {p a n : Nat} (hp : p ∈ S) (hn : 0 < n)
    (ha : ∀ i < n, Accessible r s (a + i)) : a + n ≤ p ∨ p + 280 ≤ a := by
  have hfirst := h.slot_accessible hp (ha 0 hn)
  by_contra hno
  have hin := h.slot_accessible hp (ha (p - a) (by omega))
  omega

/-- No header is in a slot. -/
lemma slot_header (h : Layout r S s k) {p : Nat} (hp : p ∈ S) {b : Block} (hb : b ∈ s.blocks) :
    b.addr + 16 ≤ p ∨ p + 280 ≤ b.addr := by
  obtain ⟨c, hc, _, rfl, hsize⟩ := h.slot p hp
  have hapart := h.wf.tiles.payload_apart hc hb
  unfold Block.payload Block.fin at *
  omega

/-- Callers may not use headers. -/
lemma accessible_header (h : Layout r S s k) {a : Nat} (ha : Accessible r s a) {b : Block}
    (hb : b ∈ s.blocks) : a < b.addr ∨ b.addr + 16 ≤ a := by
  have hbounds := h.wf.tiles.mem_bounds hb
  rcases ha with hout | ⟨c, hc, _, _, hlo, hhi⟩
  · unfold Block.fin at hbounds
    omega
  · have hapart := h.wf.tiles.payload_apart hc hb
    omega

lemma slot_lt (h : Layout r S s k) {p : Nat} (hp : p ∈ S) : p < 2 ^ 64 := by
  obtain ⟨c, hc, _, rfl, _⟩ := h.slot p hp
  have hfin := h.wf.fin_lt hc
  unfold Block.payload Block.fin at *
  omega

lemma slot_ne_zero (h : Layout r S s k) {p : Nat} (hp : p ∈ S) : p ≠ 0 := by
  obtain ⟨c, _, _, rfl, _⟩ := h.slot p hp
  exact c.payload_ne_zero (by decide)

/-! ## Writes -/

/-- Whoever changes no header leaves the blocks as they are. -/
lemma wf_congr {h : Heap} {bs : List Block} (w : WF r h bs) {m' : Mem}
    (e : ∀ b ∈ bs, ∀ x, b.addr ≤ x → x < b.addr + 16 → m' x = h.mem x) :
    WF r { h with mem := m' } bs := by
  obtain ⟨hlinks, hheaders⟩ := w.seg
  refine ⟨⟨hlinks.congr fun a ha => ?_, fun b hb => ?_⟩, w.tiles, w.coalesced, w.accounted,
    w.heapStart, w.heapEnd⟩
  · obtain ⟨b, hb, rfl⟩ := List.mem_map.mp ha
    exact load_congr fun x hx hx' => e b hb x (by omega) (by omega)
  · obtain ⟨hs, hf⟩ := hheaders b hb
    refine ⟨.trans (load_congr fun x hx hx' => e b hb x (by omega) (by omega)) hs,
      .trans (load_congr fun x hx hx' => e b hb x (by omega) (by omega)) hf⟩

/-- A slot gets another message. -/
lemma setMsg (h : Layout r S s k) {p : Nat} (hp : p ∈ S) {m' : Mem}
    (e : AgreeOff p (p + 280) k.heap.mem m') {msg : Message} (hmsg : MessageAt m' p msg) :
    Layout r S { s with ipc := s.ipc.setMsg p msg } (k.setMem m') := by
  refine ⟨wf_congr h.wf fun b hb x hlo hhi => e x ?_, h.slot, h.foreign, h.used, h.once,
    fun q hq => ?_, h.free, h.queues, fun a v ha hv => ?_⟩
  · have happart := h.slot_header hp hb
    omega
  · show MessageAt m' q (Function.update s.ipc.msgs p msg q)
    rcases eq_or_ne q p with rfl | hne
    · rw [Function.update_self]
      exact hmsg
    · rw [Function.update_of_ne hne]
      have hapart := h.slot_slot hq hp hne
      exact (h.stored q hq).congr fun x hlo hhi => e x (by omega)
  · exact (e a (h.slot_accessible hp ha)).trans (h.cells a v ha hv)

/-- Callers write where they may. -/
lemma setCells (h : Layout r S s k) {m' : Mem} {cells' : Nat → Option UInt8}
    (e : ∀ x, ¬Accessible r s x → m' x = k.heap.mem x)
    (hcells : ∀ a v, Accessible r s a → cells' a = some v → m' a = v) :
    Layout r S { s with cells := cells' } (k.setMem m') := by
  refine ⟨wf_congr h.wf fun b hb x hlo hhi => e x fun hx => ?_, h.slot, h.foreign, h.used, h.once,
    fun p hp => (h.stored p hp).congr fun x hlo hhi => e x fun hx => ?_, h.free, h.queues, hcells⟩
  · have hapart := h.accessible_header hx hb
    omega
  · have hapart := h.slot_accessible hp hx
    omega

/-! ## The functions of the message system -/

lemma msgNext_eq (h : Layout r S s k) {p : Nat} (hp : p ∈ S) :
    msgNext k.heap.mem p = s.ipc.next p :=
  (h.stored p hp).next

lemma allocMessage (h : Layout r S s k)
    (hfree : s.ipc.freeMessages = 0 ∨ s.ipc.freeMessages ∈ S) :
    k.allocMessage.1 = (Ipc.allocMessage s.ipc).1 ∧
      Layout r S { s with ipc := (Ipc.allocMessage s.ipc).2 } k.allocMessage.2 := by
  unfold Shared.allocMessage Ipc.allocMessage
  rw [h.free]
  by_cases h0 : s.ipc.freeMessages = 0
  · rw [if_pos h0, if_pos h0]
    exact ⟨rfl, h⟩
  · rw [if_neg h0, if_neg h0]
    have hmem := hfree.resolve_left h0
    refine ⟨rfl, ?_⟩
    have hnext := h.msgNext_eq hmem
    have h₁ : Layout r S
        { s with ipc := { s.ipc with freeMessages := s.ipc.next s.ipc.freeMessages } }
        { k with freeMessages := msgNext k.heap.mem s.ipc.freeMessages } :=
      ⟨h.wf, h.slot, h.foreign, h.used, h.once, h.stored, hnext, h.queues, h.cells⟩
    exact h₁.setMsg hmem ((store_frame _ _ _ _).mono (by omega) (by omega))
      ((h₁.stored _ hmem).setMsgNext (by decide))

lemma freeMessage (h : Layout r S s k) {p : Nat} (hp : p ∈ S)
    (hfree : s.ipc.freeMessages = 0 ∨ s.ipc.freeMessages ∈ S) :
    Layout r S { s with ipc := Ipc.freeMessage s.ipc p } (k.freeMessage p) := by
  have h0 := h.slot_ne_zero hp
  have hlt : s.ipc.freeMessages < 2 ^ 64 := by
    rcases hfree with e | hmem
    · rw [e]
      decide
    · exact h.slot_lt hmem
  have hmsg := ((((h.stored p hp).setSenderPid (v := -1) (by decide) (by decide)).setReceiverPid
    (v := -1) (by decide) (by decide)).setMsgSize (v := 0) (by decide) (by decide)).setMsgNext hlt
  have e : AgreeOff p (p + 280) k.heap.mem (setMsgNext (setMsgSize (setReceiverPid
      (setSenderPid k.heap.mem p (-1)) p (-1)) p 0) p s.ipc.freeMessages) :=
    ((((AgreeOff.refl p (p + 280) k.heap.mem).store _ (by omega) (by omega)).store _ (by omega)
      (by omega)).store _ (by omega) (by omega)).store _ (by omega) (by omega)
  have h' := h.setMsg hp e hmsg
  unfold Shared.freeMessage Ipc.freeMessage
  rw [if_neg h0, if_neg h0, h.free]
  exact ⟨h'.wf, h'.slot, h'.foreign, h'.used, h'.once, h'.stored, rfl, h'.queues, h'.cells⟩

/-- The bytes that a caller sends are copied out of his cells. -/
lemma fill (h : Layout r S s k) {p : Nat} (hp : p ∈ S) {sender receiver size : Int} {data : Nat}
    {src : Mem} (hsender : -2 ^ 31 ≤ sender ∧ sender < 2 ^ 31)
    (hreceiver : 0 ≤ receiver ∧ receiver < maxTasks) (hsize : 0 < size ∧ size ≤ maxMessageSize)
    (hdata : ∀ i < size.toNat, Accessible r s (data + i) ∧ s.cells (data + i) = some (src i)) :
    Layout r S { s with ipc := Ipc.fill s.ipc p sender receiver src size }
      (k.fill p sender receiver data size) := by
  unfold maxMessageSize maxTasks at *
  have hapart := h.slot_range hp (by omega) fun i hi => (hdata i hi).1
  have hmsg := ((((h.stored p hp).setSenderPid hsender.1 hsender.2).setReceiverPid
    (v := receiver) (by omega) (by omega)).setMsgSize (v := size) (by omega) (by omega))
  have e : AgreeOff p (p + 280) k.heap.mem
      (setMsgSize (setReceiverPid (setSenderPid k.heap.mem p sender) p receiver) p size) :=
    ((((AgreeOff.refl p (p + 280) k.heap.mem).store _ (by omega) (by omega)).store _ (by omega)
      (by omega)).store _ (by omega) (by omega))
  have hsrc : ∀ i < size.toNat, setMsgSize (setReceiverPid (setSenderPid k.heap.mem p sender) p
      receiver) p size (data + i) = src i := by
    intro i hi
    obtain ⟨hacc, hcell⟩ := hdata i hi
    exact (e _ (by omega)).trans (h.cells _ _ hacc hcell)
  exact h.setMsg hp (e.trans ((move_frame _ _ _ _).mono (by unfold msgData; omega)
    (by unfold msgData; omega))) (hmsg.fillData (by omega) hsrc hapart)

lemma enqueue (h : Layout r S s k) {p : Nat} (hp : p ∈ S) {receiver : Int}
    (htail : (s.ipc.messageQueues receiver).head ≠ 0 →
      (s.ipc.messageQueues receiver).tail ∈ S) :
    Layout r S { s with ipc := Ipc.enqueue s.ipc receiver p } (k.enqueue receiver p) := by
  have hqueues : ∀ queue, Function.update k.messageQueues receiver queue =
      Function.update s.ipc.messageQueues receiver queue := fun queue => by rw [h.queues]
  unfold Shared.enqueue Ipc.enqueue
  rw [h.queues]
  by_cases h0 : (s.ipc.messageQueues receiver).head = 0
  · rw [if_pos h0, if_pos h0]
    exact ⟨h.wf, h.slot, h.foreign, h.used, h.once, h.stored, h.free, hqueues _, h.cells⟩
  · rw [if_neg h0, if_neg h0]
    have hmem := htail h0
    have h' := h.setMsg hmem ((store_frame _ _ _ _).mono (by omega) (by omega))
      ((h.stored _ hmem).setMsgNext (h.slot_lt hp))
    exact ⟨h'.wf, h'.slot, h'.foreign, h'.used, h'.once, h'.stored, h'.free, hqueues _, h'.cells⟩

lemma dequeue (h : Layout r S s k) {pid : Int} (hhead : (s.ipc.messageQueues pid).head ∈ S) :
    Layout r S { s with ipc := Ipc.dequeue s.ipc pid } (k.dequeue pid) := by
  refine ⟨h.wf, h.slot, h.foreign, h.used, h.once, h.stored, h.free, ?_, h.cells⟩
  unfold Shared.dequeue Ipc.dequeue Shared.setQueue IpcState.setQueue
  simp only [h.queues, h.msgNext_eq hhead]

/-! ## The two calls -/

lemma sendMessage {free : List Nat} {box : Int → List Letter} (h : Layout r S s k)
    (hrep : Rep S s.ipc free box) {t receiver size : Int} {data : Nat}
    (ht : -2 ^ 31 ≤ t ∧ t < 2 ^ 31)
    (hdata : Sendable receiver (s.buffer data) size →
      ∀ i < size.toNat, Accessible r s (data + i) ∧ s.cells (data + i) ≠ none) :
    (k.sendMessage t receiver data size).1 =
        (Ipc.sendMessage s.ipc t receiver (s.buffer data) size).1 ∧
      Layout r S { s with ipc := (Ipc.sendMessage s.ipc t receiver (s.buffer data) size).2 }
        (k.sendMessage t receiver data size).2 := by
  by_cases hok : Sendable receiver (s.buffer data) size
  · obtain ⟨hreceiver, hsize, hsome⟩ := hok
    have h0 : data ≠ 0 := by
      rintro rfl
      cases hsome
    have hbuffer : s.buffer data = some fun i => (s.cells (data + i)).getD 0 := if_neg h0
    have hcells : ∀ i < size.toNat, Accessible r s (data + i) ∧
        s.cells (data + i) = some ((s.cells (data + i)).getD 0) := by
      intro i hi
      obtain ⟨hacc, hne⟩ := hdata ⟨hreceiver, hsize, hsome⟩ i hi
      obtain ⟨v, hv⟩ := Option.ne_none_iff_exists'.mp hne
      rw [hv]
      exact ⟨hacc, rfl⟩
    obtain ⟨hmsg, h₁⟩ := h.allocMessage (hrep.freeMessages_mem)
    have hqueues : (Ipc.allocMessage s.ipc).2.messageQueues = s.ipc.messageQueues := by
      unfold Ipc.allocMessage
      split <;> rfl
    have hslot : (Ipc.allocMessage s.ipc).1 = 0 ∨ (Ipc.allocMessage s.ipc).1 ∈ S := by
      unfold Ipc.allocMessage
      split
      · exact .inl rfl
      · exact hrep.freeMessages_mem
    have hchecks : ¬(receiver < 0 ∨ maxTasks ≤ receiver) ∧ ¬size ≤ 0 ∧ ¬maxMessageSize < size := by
      omega
    obtain ⟨hr, hlo, hhi⟩ := hchecks
    unfold Shared.sendMessage Ipc.sendMessage
    rw [if_neg hr, if_neg hr, if_neg hlo, if_neg hlo, if_neg hhi, if_neg hhi, if_neg h0, hbuffer]
    simp only [hmsg]
    by_cases hnone : (Ipc.allocMessage s.ipc).1 = 0
    · rw [if_pos hnone, if_pos hnone]
      exact ⟨rfl, h₁⟩
    · rw [if_neg hnone, if_neg hnone]
      have hmem := hslot.resolve_left hnone
      refine ⟨rfl, (h₁.fill hmem ht hreceiver hsize hcells).enqueue hmem fun hhead => ?_⟩
      have htail : (s.ipc.messageQueues receiver).tail ∈ S := by
        refine hrep.slot_mem ((hrep.queue receiver).tail_mem ?_)
        rw [← hqueues]
        exact hhead
      rw [← hqueues] at htail
      exact htail
  · have hfail : k.sendMessage t receiver data size = (-1, k) := by
      unfold Shared.sendMessage
      split_ifs with hr hlo hhi h0
      · rfl
      · rfl
      · rfl
      · rfl
      · refine absurd ⟨by omega, by omega, ?_⟩ hok
        unfold Parts.buffer
        rw [if_neg h0]
        rfl
    rw [hfail, sendMessage_rejected _ hok]
    exact ⟨rfl, h⟩

/-- A message is copied into the cells of a caller. -/
lemma copyOut (h : Layout r S s k) {p buffer n : Nat} (hp : p ∈ S) (hn : n ≤ 256)
    (hbuffer : ∀ i < n, Accessible r s (buffer + i)) (dst : Mem) :
    Layout r S
      { s with
        cells := fun a => if buffer ≤ a ∧ a < buffer + n
          then some (copy (s.ipc.msgs p).data n dst (a - buffer)) else s.cells a }
      (k.setMem (move (msgData p) buffer n k.heap.mem)) := by
  have hin : ∀ {a}, buffer ≤ a → a < buffer + n → Accessible r s a := by
    intro a hlo hhi
    obtain ⟨i, rfl⟩ := Nat.exists_eq_add_of_le hlo
    exact hbuffer i (by omega)
  refine h.setCells (fun x hx => move_frame _ _ _ _ x ?_) fun a v ha hv => ?_
  · by_contra hno
    exact hx (hin (by omega) (by omega))
  · rw [move_apply]
    by_cases hmem : buffer ≤ a ∧ a < buffer + n
    · rw [if_pos hmem] at hv ⊢
      have hapart := h.slot_range hp (by omega) hbuffer
      rw [copy_apply, if_pos (by omega)] at hv
      rw [origin_of_apart (by unfold msgData; omega), (h.stored p hp).data _ (by omega)]
      exact Option.some.inj hv
    · rw [if_neg hmem] at hv ⊢
      exact h.cells a v ha hv

lemma recvMessage {free : List Nat} {box : Int → List Letter} (h : Layout r S s k)
    (hrep : Rep S s.ipc free box) {t maxSize : Int} {buffer : Nat} (sender : Int)
    (hbuffer : Receivable t (s.buffer buffer) maxSize →
      ∀ i < maxSize.toNat, Accessible r s (buffer + i)) :
    (k.recvMessage t sender buffer maxSize).1 =
        (Ipc.recvMessage s.ipc t sender (s.buffer buffer) maxSize).ret ∧
      Layout r S (s.received buffer maxSize
          (Ipc.recvMessage s.ipc t sender (s.buffer buffer) maxSize))
        (k.recvMessage t sender buffer maxSize).2 := by
  have hfail : k.recvMessage t sender buffer maxSize = (-1, k) →
      Ipc.recvMessage s.ipc t sender (s.buffer buffer) maxSize = ⟨-1, s.buffer buffer, s.ipc⟩ →
      (k.recvMessage t sender buffer maxSize).1 =
          (Ipc.recvMessage s.ipc t sender (s.buffer buffer) maxSize).ret ∧
        Layout r S (s.received buffer maxSize
            (Ipc.recvMessage s.ipc t sender (s.buffer buffer) maxSize))
          (k.recvMessage t sender buffer maxSize).2 := by
    intro e e'
    rw [e, e', s.received_failed]
    exact ⟨rfl, h⟩
  by_cases hok : Receivable t (s.buffer buffer) maxSize
  · obtain ⟨hsome, hmax, ht⟩ := id hok
    have h0 : buffer ≠ 0 := by
      rintro rfl
      cases hsome
    have hdst : s.buffer buffer = some fun i => (s.cells (buffer + i)).getD 0 := if_neg h0
    have htask : ¬(t < 0 ∨ maxTasks ≤ t) := by omega
    cases hb : box t with
    | nil =>
      refine hfail ?_ (recvMessage_empty hrep hb sender _ maxSize)
      unfold Shared.recvMessage
      rw [h.queues, (hrep.head_eq_zero t).mpr hb, if_neg h0, if_neg (by omega), if_neg htask]
      rfl
    | cons a l =>
      have hmem : a ∈ box t := by
        rw [hb]
        exact List.mem_cons_self
      have hslot := hrep.box_mem hmem
      have hhead := hrep.head_eq hb
      obtain ⟨_, _, hsize, _, hpos, hle⟩ := hrep.holds t a hmem
      have hqueue : (s.ipc.messageQueues t).head ∈ S := by
        rw [hhead]
        exact hslot
      have h₁ := h.dequeue hqueue
      have hsize' : msgSize (k.dequeue t).heap.mem a.slot = a.body.length :=
        (h.stored _ hslot).size.trans hsize
      have hvalid : ¬((a.body.length : Int) ≤ 0 ∨ maxMessageSize < a.body.length) := by omega
      have hcopy : (if (a.body.length : Int) < maxSize then (a.body.length : Int)
          else maxSize).toNat = (min (a.body.length : Int) maxSize).toNat := by
        congr 1
        split <;> omega
      have hcopied : (min (a.body.length : Int) maxSize).toNat ≤ 256 := by
        unfold maxMessageSize at hle
        omega
      have h₂ := (h₁.copyOut hslot hcopied (fun i hi => hbuffer hok i (by omega))
        fun i => (s.cells (buffer + i)).getD 0).freeMessage hslot (hrep.freeMessages_mem)
      have hmsgs : (Ipc.dequeue s.ipc t).msgs = s.ipc.msgs := rfl
      unfold Shared.recvMessage Ipc.recvMessage
      rw [h.queues, hhead, hdst]
      simp only [if_neg h0, if_neg (show ¬maxSize ≤ 0 by omega), if_neg htask,
        if_neg (h.slot_ne_zero hslot), hsize', hmsgs, hsize, if_neg hvalid, hcopy]
      exact ⟨trivial, h₂⟩
  · refine hfail ?_ (recvMessage_rejected _ hok)
    unfold Shared.recvMessage
    split_ifs with h0 hmax ht
    · rfl
    · rfl
    · rfl
    · refine absurd ⟨?_, by omega, by omega, by omega⟩ hok
      unfold Parts.buffer
      rw [if_neg h0]
      rfl

end Layout

end Hydra.Ipc
