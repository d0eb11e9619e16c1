import Hydra.Ipc.Refine
import Hydra.Mm.History
import Hydra.Lib.Run

/-!
# Histories of the message system

Runs of the message system from the state `ipc_init` leaves on any reachable heap (`Initial`): any
sequence of sends and receives, with any arguments, by any tasks. A history logs the letters that
were posted and the receipts of the successful receives. Every history represents mailboxes that
its log leads to from empty ones (`History.run_inv`).

This gives the conservation of slots (`slot_conservation`), the delivery of every message once and
in order (`fifo_delivery`), that a call that fails changes nothing (`errors_without_effect`), and
says when a receive that names a sender respects the name (`selective_receive`): the kernel takes
the head of the queue whoever sent it.
-/

namespace Hydra.Ipc
open ByteMem Linked Mailbox FirstFit
open Hydra.Mm (Region WF Heap kmalloc kmalloc_none kmalloc_some alignSize)

/-! ## Initialisation -/

/-- A pool and empty queues represent empty boxes. -/
lemma Rep.of_pool {s : IpcState} {slots : List Nat} (h : Chain s.next s.freeMessages slots)
    (hq : ∀ r, s.messageQueues r = ⟨0, 0, 0⟩) :
    Rep {p | p ∈ slots} s slots (fun _ => []) := by
  refine ⟨h, ?_, ?_, ?_, ?_, ?_, ?_⟩
  · intro r
    rw [hq r]
    exact ⟨rfl, rfl, rfl⟩
  · intro r a ha
    cases ha
  · intro r hr
    exact absurd rfl hr
  · intro r a ha
    cases ha
  · intro r r' a ha
    cases ha
  · intro p
    simp

/-- The slots on the free list are payloads of the heap that no one else has. -/
lemma preallocate_spec {r : Region} (n : Nat) {h : Heap} {bs : List Block} {s : IpcState}
    {slots : List Nat} (w : WF r h bs) (hc : Chain s.next s.freeMessages slots)
    (hlive : ∀ p ∈ slots, p ∈ live 16 bs) :
    ∃ h' s' bs' slots', preallocate n slots.length h s = some (slots'.length, h', s') ∧
      WF r h' bs' ∧ Chain s'.next s'.freeMessages slots' ∧ (∀ p ∈ slots', p ∈ live 16 bs') ∧
      s'.messageQueues = s.messageQueues := by
  induction n generalizing h bs s slots with
  | zero => exact ⟨h, s, bs, slots, rfl, w, hc, hlive, rfl⟩
  | succ n ih =>
    cases hfind : bs.find? (Block.fits (alignSize sizeofMessage).toNat) with
    | none =>
      obtain ⟨h', s', bs', slots', hrun, hrest⟩ := ih w hc hlive
      refine ⟨h', s', bs', slots', ?_, hrest⟩
      unfold preallocate
      simpa only [kmalloc_none w hfind, if_true] using hrun
    | some b =>
      obtain ⟨h₁, hcall, w₁, _, _⟩ := kmalloc_some w hfind
      have hp0 : b.payload 16 ≠ 0 := b.payload_ne_zero (by decide)
      have hperm : (live 16 (alloc 16 48 (alignSize sizeofMessage).toNat bs)).Perm
          (b.payload 16 :: live 16 bs) := live_alloc hfind
      have hnd := List.nodup_cons.mp (hperm.nodup_iff.mp (w₁.tiles.live_nodup (by decide)))
      have hfresh : b.payload 16 ∉ slots := fun hp => hnd.1 (hlive _ hp)
      generalize hs₁ : ({ s.setMsg (b.payload 16)
        { readMessage h₁.mem (b.payload 16) with next := s.freeMessages } with
          freeMessages := b.payload 16 } : IpcState) = s₁
      have hc₁ : Chain s₁.next s₁.freeMessages (b.payload 16 :: slots) := by
        subst hs₁
        refine hc.push hp0 (by simp [IpcState.next, IpcState.setMsg]) fun p hp => ?_
        have hne : p ≠ b.payload 16 := by
          rintro rfl
          exact hfresh hp
        simp [IpcState.next, IpcState.setMsg, hne]
      have hlive₁ : ∀ p ∈ b.payload 16 :: slots,
          p ∈ live 16 (alloc 16 48 (alignSize sizeofMessage).toNat bs) := by
        intro p hp
        refine hperm.mem_iff.mpr ?_
        rcases List.mem_cons.mp hp with rfl | hp
        · exact List.mem_cons_self
        · exact List.mem_cons_of_mem _ (hlive p hp)
      obtain ⟨h', s', bs', slots', hrun, w', hc', hlive', hqueues⟩ := ih w₁ hc₁ hlive₁
      refine ⟨h', s', bs', slots', ?_, w', hc', hlive', ?_⟩
      · unfold preallocate
        simp only [hcall, if_neg hp0, hs₁]
        exact hrun
      · rw [hqueues, ← hs₁]
        rfl

/-- `ipc_init` ends on every well-formed heap, with an empty queue for each task. -/
lemma ipcInit_spec {r : Region} {h : Heap} {bs : List Block} (w : WF r h bs) (m : Mem) :
    ∃ h' s slots, ipcInit h (bootIpc m) = some (slots.length, h', s) ∧
      Rep {p | p ∈ slots} s slots (fun _ => []) := by
  have hboot : Chain (bootIpc m).next (bootIpc m).freeMessages [] := rfl
  obtain ⟨h', s, _, slots, hrun, _, hc, _, hqueues⟩ := preallocate_spec (s := { bootIpc m with
    messageQueues := fun i => if 0 ≤ i ∧ i < maxTasks then ⟨0, 0, 0⟩ else ⟨0, 0, 0⟩ })
    maxMessages w hboot (by simp)
  refine ⟨h', s, slots, hrun, Rep.of_pool hc fun r => ?_⟩
  rw [hqueues]
  simp

/-- The message system as `ipc_init` leaves it on some reachable heap, with `n` slots. -/
def Initial (n : Nat) (s : IpcState) : Prop :=
  ∃ r m ops hist h, Mm.History.Contract r m ops ∧ Mm.History.run r m ops = some hist ∧
    ipcInit hist.heap (bootIpc hist.heap.mem) = some (n, h, s)

lemma Initial.rep {n : Nat} {s : IpcState} (h : Initial n s) :
    ∃ slots, slots.length = n ∧ Rep {p | p ∈ slots} s slots (fun _ => []) := by
  obtain ⟨r, m, ops, hist, h₁, hok, hrun, hinit⟩ := h
  obtain ⟨bs, w, _⟩ := hok.inv_of_run hrun (Mm.History.init_inv r m) Mm.History.step_inv
  obtain ⟨h', s', slots, hinit', hrep⟩ := ipcInit_spec w hist.heap.mem
  rw [hinit, Option.some.injEq, Prod.mk.injEq, Prod.mk.injEq] at hinit'
  obtain ⟨hn, _, rfl⟩ := hinit'
  exact ⟨slots, hn.symm, hrep⟩

/-- A heap region with room for two message slots. -/
def poolRegion : Region where
  start := 4096
  stop := 4736
  start_pos := Mm.page_pos
  start_aligned := Mm.page_aligned
  stop_aligned := by decide
  room := by decide
  small := by decide
  addressable := by decide

/-- The heap that `mm_init` sets up in that region. -/
def poolHeap : Heap := (Mm.History.init poolRegion fun _ => 0).heap

/-- The message system that `ipc_init` sets up on that heap. -/
def poolState : IpcState :=
  match ipcInit poolHeap (bootIpc poolHeap.mem) with
  | some (_, _, s) => s
  | none => bootIpc poolHeap.mem

lemma poolState_initial : Initial 2 poolState := by
  have hn : (ipcInit poolHeap (bootIpc poolHeap.mem)).map Prod.fst = some 2 := by decide +kernel
  obtain ⟨⟨n, h, s⟩, hinit, rfl⟩ := Option.map_eq_some_iff.mp hn
  have hs : poolState = s := by
    unfold poolState
    rw [hinit]
  rw [hs]
  exact ⟨poolRegion, fun _ => 0, [], _, h, trivial, rfl, hinit⟩

/-! ## Histories -/

/-- A call of the message system by a task. -/
inductive IpcOp where
  | sendMessage (currentTask receiverPid : Int) (data : Option Mem) (size : Int)
  | recvMessage (currentTask senderPid : Int) (buffer : Option Mem) (maxSize : Int)
  | tryRecvMessage (currentTask senderPid : Int) (buffer : Option Mem) (maxSize : Int)

/-- What a task knows of a successful receive: the slot taken, the buffer it gave, its size, the
return value and the buffer afterwards. -/
structure Receipt where
  slot : Nat
  maxSize : Int
  before : Mem
  ret : Int
  after : Mem

/-- The receipt is one for the letter: it returns the letter's size and has the bytes of the letter
that fit the buffer, the other bytes of the buffer being untouched. -/
structure Delivers (a : Letter) (x : Receipt) : Prop where
  slot : x.slot = a.slot
  ret : x.ret = a.body.length
  after : x.after = paste (a.body.take x.maxSize.toNat) x.before

/-- The message system with the log of what was sent and received. -/
structure History where
  ipc : IpcState
  log : List (Event Int Letter Receipt)

namespace History

/-- Log a send that returned 0: its letter went to the first free slot. -/
def sent (s : History) (t r : Int) (data : Option Mem) (size : Int) (result : Int × IpcState) :
    History where
  ipc := result.2
  log := if result.1 = 0 then
      s.log ++ [.posted r ⟨s.ipc.freeMessages, t, bytes (data.getD 0) size.toNat⟩]
    else s.log

/-- Log a receive that did not return -1: it took the head of the task's queue. -/
def received (s : History) (t : Int) (buffer : Option Mem) (maxSize : Int) (result : Reception) :
    History where
  ipc := result.state
  log := if result.ret ≠ -1 then
      s.log ++ [.taken t ⟨(s.ipc.messageQueues t).head, maxSize, buffer.getD 0, result.ret,
        result.buffer.getD 0⟩]
    else s.log

def step (s : History) : IpcOp → Option History
  | .sendMessage t r data size => some (s.sent t r data size (sendMessage s.ipc t r data size))
  | .recvMessage t sender buffer maxSize =>
    some (s.received t buffer maxSize (recvMessage s.ipc t sender buffer maxSize))
  | .tryRecvMessage t sender buffer maxSize =>
    some (s.received t buffer maxSize (tryRecvMessage s.ipc t sender buffer maxSize))

/-- The run of a list of calls from an initial state. -/
abbrev run (s₀ : IpcState) (ops : List IpcOp) : Option History := Run.run step ⟨s₀, []⟩ ops

/-- The state represents boxes that the log leads to. -/
def Inv (S : Set Nat) (s : History) : Prop :=
  ∃ free box, Rep S s.ipc free box ∧ Replay Delivers (fun _ => []) s.log box

variable {S : Set Nat} {s : History}

lemma sent_inv (h : s.Inv S) (t r : Int) (data : Option Mem) (size : Int) :
    (s.sent t r data size (sendMessage s.ipc t r data size)).Inv S := by
  obtain ⟨free, box, hrep, hlog⟩ := h
  rcases sendMessage_cases hrep t r data size with ⟨e, _⟩ | ⟨f, free', src, s', rfl, rfl, _, e, hrep'⟩
  · rw [e]
    exact ⟨free, box, hrep, hlog⟩
  · rw [e]
    refine ⟨free', _, hrep', hlog.append ?_⟩
    rw [hrep.pool.1]
    exact .posted r _ (.nil _)

lemma received_inv (h : s.Inv S) (t sender : Int) (buffer : Option Mem) (maxSize : Int) :
    (s.received t buffer maxSize (recvMessage s.ipc t sender buffer maxSize)).Inv S := by
  obtain ⟨free, box, hrep, hlog⟩ := h
  rcases recvMessage_cases hrep t sender buffer maxSize with
    ⟨e, _⟩ | ⟨a, l, dst, s', hb, rfl, _, e, hrep'⟩
  · rw [e]
    exact ⟨free, box, hrep, hlog⟩
  · rw [e]
    have hret : (a.body.length : Int) ≠ -1 := by omega
    refine ⟨_, _, hrep', ?_⟩
    unfold received
    rw [if_pos hret]
    exact hlog.append (.taken t a _ (by rw [hb]; rfl) ⟨hrep.head_eq hb, rfl, rfl⟩ (.nil _))

theorem step_inv (s : History) (op : IpcOp) (h : s.Inv S) :
    ∃ s', step s op = some s' ∧ s'.Inv S := by
  cases op with
  | sendMessage t r data size => exact ⟨_, rfl, sent_inv h t r data size⟩
  | recvMessage t sender buffer maxSize => exact ⟨_, rfl, received_inv h t sender buffer maxSize⟩
  | tryRecvMessage t sender buffer maxSize =>
    exact ⟨_, rfl, received_inv h t sender buffer maxSize⟩

lemma run_inv {n : Nat} {s₀ : IpcState} (h₀ : Initial n s₀) (ops : List IpcOp) :
    ∃ slots s, slots.length = n ∧ Chain s₀.next s₀.freeMessages slots ∧ run s₀ ops = some s ∧
      s.Inv {p | p ∈ slots} := by
  obtain ⟨slots, hlen, hrep⟩ := h₀.rep
  have hinit : Inv {p | p ∈ slots} ⟨s₀, []⟩ := ⟨slots, _, hrep, .nil _⟩
  obtain ⟨s, hrun, hs⟩ := Run.inv step_inv ops hinit
  exact ⟨slots, s, hlen, hrep.pool, hrun, hs⟩

lemma inv_of_run {n : Nat} {s₀ : IpcState} (h₀ : Initial n s₀) {ops : List IpcOp} {s : History}
    (hrun : run s₀ ops = some s) : ∃ slots : List Nat, s.Inv {p | p ∈ slots} := by
  obtain ⟨slots, _, hrep⟩ := h₀.rep
  have hinit : Inv {p | p ∈ slots} ⟨s₀, []⟩ := ⟨slots, _, hrep, .nil _⟩
  exact ⟨slots, Run.inv_of_run step_inv hrun hinit⟩

/-- Two slots are enough to send one message. -/
lemma send_one (t : Int) {r size : Int} {src : Mem} (hok : Sendable r (some src) size) :
    ∃ s slot, run poolState [.sendMessage t r (some src) size] = some s ∧
      s.ipc.pending r = [⟨slot, t, bytes src size.toNat⟩] := by
  obtain ⟨slots, hlen, hrep⟩ := poolState_initial.rep
  rcases sendMessage_cases hrep t r (some src) size with
    ⟨_, hno | hnil⟩ | ⟨f, free', src', s', _, hsrc, _, e, hrep'⟩
  · exact absurd hok hno
  · rw [hnil] at hlen
    cases hlen
  · obtain rfl := Option.some.inj hsrc
    refine ⟨_, f, rfl, ?_⟩
    show ((sendMessage poolState t r (some src) size).2).pending r = _
    rw [e, hrep'.pending_eq, post_self]
    rfl

end History

/-! ## Conservation of slots -/

/-- The free list and the queues of all tasks are null-terminated lists that contain every slot
once, and each queue's head, tail and count agree with its list. -/
structure Conserved (slots : List Nat) (s : IpcState) (free : List Nat) (queues : Int → List Nat) :
    Prop where
  pool : Chain s.next s.freeMessages free
  queue : ∀ r, 0 ≤ r → r < maxTasks → Chain s.next (s.messageQueues r).head (queues r)
  each_once : (free ++ (List.range maxTasks.toNat).flatMap fun i : Nat => queues i).Perm slots
  count : ∀ r, 0 ≤ r → r < maxTasks → (s.messageQueues r).count = (queues r).length
  empty : ∀ r, 0 ≤ r → r < maxTasks →
    ((s.messageQueues r).head = 0 ↔ (s.messageQueues r).count = 0 ∧ (s.messageQueues r).tail = 0)
  last : ∀ r, 0 ≤ r → r < maxTasks → (s.messageQueues r).head ≠ 0 →
    (queues r).getLast? = some (s.messageQueues r).tail

/-- The free list and the queues have no slot in common or twice. -/
lemma Rep.all_nodup {S : Set Nat} {s : IpcState} {free : List Nat} {box : Int → List Letter}
    (h : Rep S s free box) (n : Nat) :
    (free ++ (List.range n).flatMap fun i : Nat => (box i).map Letter.slot).Nodup := by
  refine List.nodup_append.mpr ⟨h.pool.nodup, List.nodup_flatMap.mpr ⟨?_, ?_⟩, ?_⟩
  · intro i _
    exact (h.queue i).chain.nodup
  · refine List.nodup_range.pairwise_of_forall_ne fun i _ j _ hij => ?_
    intro p hp hp'
    obtain ⟨a, ha, rfl⟩ := List.mem_map.mp hp
    obtain ⟨b, hb, e⟩ := List.mem_map.mp hp'
    have heq := h.apart i j a ha b hb e.symm
    exact hij (by exact_mod_cast heq)
  · intro p hp q hq
    obtain ⟨i, _, hi⟩ := List.mem_flatMap.mp hq
    obtain ⟨a, ha, rfl⟩ := List.mem_map.mp hi
    rintro rfl
    exact h.unpooled i a ha hp

lemma Rep.conserved {slots : List Nat} {s : IpcState} {free : List Nat}
    {box : Int → List Letter} (h : Rep {p | p ∈ slots} s free box) (hnd : slots.Nodup) :
    Conserved slots s free fun r => (box r).map Letter.slot := by
  refine ⟨h.pool, fun r _ _ => (h.queue r).chain, ?_, fun r _ _ => (h.queue r).count, ?_, ?_⟩
  · refine (List.perm_ext_iff_of_nodup (h.all_nodup _) hnd).mpr fun p => ?_
    have hcover := h.cover p
    rw [Set.mem_ofPred_eq] at hcover
    rw [hcover, List.mem_append, List.mem_flatMap]
    refine or_congr_right ⟨?_, ?_⟩
    · rintro ⟨i, _, hi⟩
      obtain ⟨a, ha, rfl⟩ := List.mem_map.mp hi
      exact ⟨i, a, ha, rfl⟩
    · rintro ⟨r, a, ha, rfl⟩
      obtain ⟨hr0, hr⟩ := h.valid r (List.ne_nil_of_mem ha)
      refine ⟨r.toNat, List.mem_range.mpr (by omega), ?_⟩
      rw [Int.toNat_of_nonneg hr0]
      exact List.mem_map_of_mem ha
  · intro r _ _
    obtain ⟨hc, ht, hn⟩ := h.queue r
    rw [hc.head_eq_zero, hn, ht]
    constructor
    · intro e
      simp [e]
    · rintro ⟨e, _⟩
      exact List.length_eq_zero_iff.mp (by exact_mod_cast e)
  · intro r _ _ hhead
    obtain ⟨hc, ht, _⟩ := h.queue r
    rw [Ne, hc.head_eq_zero] at hhead
    rw [ht, List.getLastD_eq_getLast?, List.getLast?_eq_some_getLast hhead]
    rfl

/-- The free slots and the queued messages are as many as the slots. -/
lemma Rep.length_eq {slots : List Nat} {s : IpcState} {free : List Nat} {box : Int → List Letter}
    (h : Rep {p | p ∈ slots} s free box) (hnd : slots.Nodup) :
    free.length + ∑ i ∈ Finset.range maxTasks.toNat, (box i).length = slots.length := by
  have hperm := (h.conserved hnd).each_once.length_eq
  simp only [List.length_append, List.length_flatMap, List.length_map] at hperm
  exact hperm

/-- Slots are conserved: after any calls with any arguments by any tasks, the slots that `ipc_init`
obtained are spread over the free list and the queues, each in one place. -/
theorem slot_conservation (n : Nat) (s₀ : IpcState) (h₀ : Initial n s₀) (ops : List IpcOp) :
    ∃ slots s free queues, slots.length = n ∧ slots.Nodup ∧
      Chain s₀.next s₀.freeMessages slots ∧ History.run s₀ ops = some s ∧
      Conserved slots s.ipc free queues := by
  obtain ⟨slots, s, hlen, hpool, hrun, free, box, hrep, _⟩ := History.run_inv h₀ ops
  exact ⟨slots, s, free, _, hlen, hpool.nodup, hpool, hrun, hrep.conserved hpool.nodup⟩

theorem slot_conservation_two :
    ∃ slots s free queues, slots.length = 2 ∧ slots.Nodup ∧
      Chain poolState.next poolState.freeMessages slots ∧
      History.run poolState [.sendMessage 1 0 (some 0) 4, .sendMessage 0 9 none 4,
        .recvMessage 0 (-1) (some 0) 2] = some s ∧
      Conserved slots s.ipc free queues :=
  slot_conservation 2 poolState poolState_initial _

/-! ## Delivery -/

/-- Each task gets the messages sent to it, each once, in the order of the sends and with their
bytes: its `k`-th receipt is one for the `k`-th letter posted to it, and the letters after the last
receipt are those still queued. -/
theorem fifo_delivery (n : Nat) (s₀ : IpcState) (h₀ : Initial n s₀) (ops : List IpcOp)
    (s : History) (hrun : History.run s₀ ops = some s) (r : Int) :
    (∀ (k : Nat) (x : Receipt), (takenBy r s.log)[k]? = some x →
      ∃ a, (postedTo r s.log)[k]? = some a ∧ Delivers a x) ∧
    s.ipc.pending r = (postedTo r s.log).drop (takenBy r s.log).length := by
  obtain ⟨slots, free, box, hrep, hlog⟩ := History.inv_of_run h₀ hrun
  refine ⟨fun k x hk => hlog.taken_getElem r hk, ?_⟩
  rw [hrep.pending_eq]
  exact hlog.pending r

/-- Tasks 1 and 2 send to task 0, and its receive into a buffer of two bytes gets the first half of
the message of task 1. -/
theorem fifo_delivery_two :
    ∃ s a x, History.run poolState [.sendMessage 1 0 (some UInt8.ofNat) 4,
        .sendMessage 2 0 (some UInt8.ofNat) 8, .recvMessage 0 (-1) (some 0) 2] = some s ∧
      (takenBy 0 s.log)[0]? = some x ∧ (postedTo 0 s.log)[0]? = some a ∧ Delivers a x ∧
      a.sender = 1 ∧ a.body = [0, 1, 2, 3] ∧ x.ret = 4 ∧ bytes x.after 3 = [0, 1, 0] ∧
      s.ipc.pending 0 = (postedTo 0 s.log).drop 1 := by
  have hfacts : (History.run poolState [.sendMessage 1 0 (some UInt8.ofNat) 4,
      .sendMessage 2 0 (some UInt8.ofNat) 8, .recvMessage 0 (-1) (some 0) 2]).map (fun s =>
        ((takenBy 0 s.log).map fun x => (x.ret, bytes x.after 3),
          (postedTo 0 s.log).map fun a => (a.sender, a.body))) =
      some ([(4, [0, 1, 0])], [(1, [0, 1, 2, 3]), (2, [0, 1, 2, 3, 4, 5, 6, 7])]) := by
    decide +kernel
  obtain ⟨s, hrun, hlog⟩ := Option.map_eq_some_iff.mp hfacts
  obtain ⟨htaken, hposted⟩ := Prod.mk.inj hlog
  obtain ⟨x, xs, hx, hx', hxs⟩ := List.map_eq_cons_iff.mp htaken
  obtain rfl := List.map_eq_nil_iff.mp hxs
  obtain ⟨b, bs, hb, hb', _⟩ := List.map_eq_cons_iff.mp hposted
  obtain ⟨hdelivers, hpending⟩ := fifo_delivery 2 poolState poolState_initial _ s hrun 0
  obtain ⟨a, ha, hax⟩ := hdelivers 0 x (by rw [hx]; rfl)
  obtain rfl : b = a := by simpa [hb] using ha
  obtain ⟨hret, hafter⟩ := Prod.mk.inj hx'
  obtain ⟨hsender, hbody⟩ := Prod.mk.inj hb'
  rw [hx] at hpending
  exact ⟨s, b, x, hrun, by rw [hx]; rfl, ha, hax, hsender, hbody, hret, hafter, hpending⟩

/-! ## Selective receive -/

/-- The letters that a receive naming `sender` asks for; -1 stands for any sender. -/
def wanted (sender : Int) (a : Letter) : Bool := sender = -1 ∨ a.sender = sender

/-- A receive that keeps to the named sender: it takes the oldest wanted letter and leaves the
others in order, and fails without effect if there is none or if its arguments are rejected. -/
def Selective (s : IpcState) (t sender : Int) (buffer : Option Mem) (maxSize : Int)
    (result : Reception) : Prop :=
  match (s.pending t).find? (wanted sender) with
  | none => result.ret = -1 ∧ result.state = s
  | some a =>
    (Receivable t buffer maxSize → result.ret = a.body.length ∧
      result.buffer = buffer.map (paste (a.body.take maxSize.toNat)) ∧
      result.state.pending = Function.update s.pending t ((s.pending t).erase a)) ∧
    (¬Receivable t buffer maxSize → result.ret = -1 ∧ result.state = s)

/-- The head of the queue is wanted, or the call fails before it looks at the queue. -/
def HeadWanted (s : IpcState) (t sender : Int) (buffer : Option Mem) (maxSize : Int) : Prop :=
  sender = -1 ∨ ¬Receivable t buffer maxSize ∨ ∀ a ∈ (s.pending t).head?, a.sender = sender

/-- A receive that has taken an unwanted head was not selective: a selective one would have left it
in the queue. -/
lemma not_selective_take {s : IpcState} {t sender : Int} {dst : Mem} {maxSize : Int}
    {result : Reception} {a : Letter} {l : List Letter} (hb : s.pending t = a :: l) (ha : a ∉ l)
    (hw : wanted sender a ≠ true) (hok : Receivable t (some dst) maxSize) (hret : result.ret ≠ -1)
    (hstate : result.state.pending t = l) :
    ¬Selective s t sender (some dst) maxSize result := by
  unfold Selective
  rw [hb, List.find?_cons_of_neg hw]
  cases hfind : l.find? (wanted sender) with
  | none =>
    rintro ⟨hfail, _⟩
    exact hret hfail
  | some b =>
    rintro ⟨htakes, _⟩
    obtain ⟨_, _, hpending⟩ := htakes hok
    have hat := congrFun hpending t
    rw [hstate, Function.update_self] at hat
    apply ha
    rw [hat, List.erase_cons_tail]
    · exact List.mem_cons_self
    · intro e
      obtain rfl : a = b := eq_of_beq e
      exact hw (List.find?_some hfind)

/-- The kernel never looks at the sender, so a receive is selective exactly if the head of the
queue is a wanted letter anyway. -/
lemma recvMessage_selective {S : Set Nat} {s : IpcState} {free : List Nat}
    {box : Int → List Letter} (h : Rep S s free box) (t sender : Int) (buffer : Option Mem)
    (maxSize : Int) :
    Selective s t sender buffer maxSize (recvMessage s t sender buffer maxSize) ↔
      HeadWanted s t sender buffer maxSize := by
  have hpending := h.pending_eq
  rcases recvMessage_cases h t sender buffer maxSize with
    ⟨e, hnot⟩ | ⟨a, l, dst, s', hb, rfl, hok, e, hrep'⟩
  · -- nothing was taken
    rw [e]
    unfold Selective HeadWanted
    rw [hpending]
    apply iff_of_true
    · cases hfind : (box t).find? (wanted sender) with
      | none => exact ⟨rfl, rfl⟩
      | some a =>
        have hne := List.ne_nil_of_mem (List.mem_of_find?_eq_some hfind)
        exact ⟨fun hok => absurd hok (hnot.resolve_right hne), fun _ => ⟨rfl, rfl⟩⟩
    · rcases hnot with hno | hnil
      · exact .inr (.inl hno)
      · exact .inr (.inr (by simp [hnil]))
  · rw [e]
    have hbox : s.pending t = a :: l := by rw [hpending, hb]
    by_cases hw : wanted sender a = true
    · -- the head is the oldest wanted letter
      unfold Selective HeadWanted
      rw [hbox, List.find?_cons_of_pos hw, hrep'.pending_eq, hpending]
      simp only [wanted, decide_eq_true_eq] at hw
      refine iff_of_true ?_ (hw.imp id fun e => .inr (by simpa using e))
      refine ⟨fun _ => ⟨rfl, rfl, ?_⟩, fun hno => absurd hok hno⟩
      unfold take
      rw [hb, List.erase_cons_head, List.tail_cons]
    · apply iff_of_false
      · have hnd := (h.queue t).chain.nodup
        rw [hb] at hnd
        apply not_selective_take hbox _ hw hok
        · simp only
          omega
        · show s'.pending t = l
          rw [hrep'.pending_eq, take_self, hb, List.tail_cons]
        · exact fun ha => (List.nodup_cons.mp hnd).1 (List.mem_map_of_mem ha)
      · unfold HeadWanted
        rw [hbox]
        simp only [wanted, decide_eq_true_eq, not_or] at hw
        rintro (e | hno | hhead)
        · exact hw.1 e
        · exact hno hok
        · exact hw.2 (hhead a (by simp))

/-- In every reachable state, both receive calls are selective exactly if the oldest queued message
is from a wanted sender. -/
theorem selective_receive (n : Nat) (s₀ : IpcState) (h₀ : Initial n s₀) (ops : List IpcOp)
    (s : History) (hrun : History.run s₀ ops = some s) (t sender : Int) (buffer : Option Mem)
    (maxSize : Int) :
    (Selective s.ipc t sender buffer maxSize (recvMessage s.ipc t sender buffer maxSize) ↔
      HeadWanted s.ipc t sender buffer maxSize) ∧
    (Selective s.ipc t sender buffer maxSize (tryRecvMessage s.ipc t sender buffer maxSize) ↔
      HeadWanted s.ipc t sender buffer maxSize) := by
  obtain ⟨slots, free, box, hrep, _⟩ := History.inv_of_run h₀ hrun
  exact ⟨recvMessage_selective hrep t sender buffer maxSize,
    recvMessage_selective hrep t sender buffer maxSize⟩

theorem selective_receive_two :
    ∃ s, History.run poolState [.sendMessage 1 0 (some 0) 4] = some s ∧
      Selective s.ipc 0 1 (some 0) 4 (recvMessage s.ipc 0 1 (some 0) 4) := by
  obtain ⟨_, s, _, _, hrun, _⟩ := History.run_inv poolState_initial [.sendMessage 1 0 (some 0) 4]
  have hhead : ((History.run poolState [.sendMessage 1 0 (some 0) 4]).map fun s =>
      (s.ipc.pending 0).head?.map Letter.sender) = some (some 1) := by decide +kernel
  rw [hrun, Option.map_some, Option.some.injEq, Option.map_eq_some_iff] at hhead
  obtain ⟨a, ha, hsender⟩ := hhead
  refine ⟨s, hrun, (selective_receive 2 poolState poolState_initial _ s hrun 0 1 _ 4).1.mpr ?_⟩
  refine .inr (.inr fun b hb => ?_)
  obtain rfl : a = b := Option.some.inj (ha.symm.trans hb)
  exact hsender

/-- Task 0 names the network server (4) as the sender it waits for, and gets the message of task
1. -/
theorem selective_receive_fails :
    ∃ s, Initial 2 poolState ∧ History.run poolState [.sendMessage 1 0 (some 0) 4] = some s ∧
      ¬Selective s.ipc 0 4 (some 0) 4 (recvMessage s.ipc 0 4 (some 0) 4) := by
  obtain ⟨_, s, _, _, hrun, _⟩ := History.run_inv poolState_initial [.sendMessage 1 0 (some 0) 4]
  have hrecv : ((History.run poolState [.sendMessage 1 0 (some 0) 4]).map fun s =>
      ((s.ipc.pending 0).find? (wanted 4), (recvMessage s.ipc 0 4 (some 0) 4).ret)) =
        some (none, 4) := by decide +kernel
  rw [hrun, Option.map_some, Option.some.injEq, Prod.mk.injEq] at hrecv
  refine ⟨s, poolState_initial, hrun, ?_⟩
  unfold Selective
  rw [hrecv.1]
  rintro ⟨hret, _⟩
  rw [hrecv.2] at hret
  cases hret

/-! ## Errors -/

/-- The errors of `send_message`. -/
def SendError (s : IpcState) (r : Int) (data : Option Mem) (size : Int) : Prop :=
  (r < 0 ∨ maxTasks ≤ r) ∨ (size < 1 ∨ maxMessageSize < size) ∨ data = none ∨ s.freeMessages = 0

/-- The errors of `recv_message`, without the check of the dequeued message's size. -/
def RecvError (s : IpcState) (t : Int) (buffer : Option Mem) (maxSize : Int) : Prop :=
  buffer = none ∨ maxSize ≤ 0 ∨ (t < 0 ∨ maxTasks ≤ t) ∨ (s.messageQueues t).head = 0

section Errors

variable {S : Set Nat} {s : IpcState} {free : List Nat} {box : Int → List Letter}

lemma sendMessage_error (h : Rep S s free box) (t r : Int) (data : Option Mem) (size : Int) :
    ((sendMessage s t r data size).1 = -1 ↔ SendError s r data size) ∧
      ((sendMessage s t r data size).1 = -1 → (sendMessage s t r data size).2 = s) := by
  have hfree : s.freeMessages = 0 ↔ free = [] := h.pool.head_eq_zero
  rcases sendMessage_cases h t r data size with ⟨e, hno⟩ | ⟨f, free', src, s', rfl, rfl, hok, e, _⟩
  · rw [e]
    refine ⟨iff_of_true rfl ?_, fun _ => rfl⟩
    by_contra hgood
    simp only [SendError, not_or, not_lt, not_le, hfree] at hgood
    obtain ⟨⟨hr0, hr⟩, ⟨h1, hmax⟩, hdata, hpool⟩ := hgood
    rcases hno with hno | hnil
    · exact hno ⟨⟨hr0, hr⟩, ⟨h1, hmax⟩, Option.isSome_iff_ne_none.mpr hdata⟩
    · exact hpool hnil
  · rw [e]
    obtain ⟨⟨hr0, hr⟩, ⟨h1, hmax⟩, _⟩ := hok
    have hret : (0 : Int) ≠ -1 := by decide
    refine ⟨iff_of_false hret ?_, fun h0 => absurd h0 hret⟩
    rintro (hbad | hbad | hnone | hnull)
    · omega
    · omega
    · cases hnone
    · cases hfree.mp hnull

lemma recvMessage_error (h : Rep S s free box) (t sender : Int) (buffer : Option Mem)
    (maxSize : Int) :
    ((recvMessage s t sender buffer maxSize).ret = -1 ↔ RecvError s t buffer maxSize) ∧
      ((recvMessage s t sender buffer maxSize).ret = -1 →
        (recvMessage s t sender buffer maxSize).state = s ∧
        (recvMessage s t sender buffer maxSize).buffer = buffer) := by
  have hhead := h.head_eq_zero t
  rcases recvMessage_cases h t sender buffer maxSize with
    ⟨e, hno⟩ | ⟨a, l, dst, s', hb, rfl, hok, e, _⟩
  · rw [e]
    refine ⟨iff_of_true rfl ?_, fun _ => ⟨rfl, rfl⟩⟩
    by_contra hgood
    simp only [RecvError, not_or, not_lt, not_le, hhead] at hgood
    obtain ⟨hbuf, hmax, ⟨ht0, ht⟩, hqueue⟩ := hgood
    rcases hno with hno | hnil
    · exact hno ⟨Option.isSome_iff_ne_none.mpr hbuf, hmax, ht0, ht⟩
    · exact hqueue hnil
  · rw [e]
    have hret : (a.body.length : Int) ≠ -1 := by omega
    obtain ⟨_, hmax, ht0, ht⟩ := hok
    refine ⟨iff_of_false hret ?_, fun h0 => absurd h0 hret⟩
    rintro (hnone | hbad | hbad | hnull)
    · cases hnone
    · omega
    · omega
    · rw [hhead.mp hnull] at hb
      cases hb

/-- The first message of a queue has a valid size, so `recv_message` never drops one. -/
lemma Rep.head_size (h : Rep S s free box) {t : Int} (hne : (s.messageQueues t).head ≠ 0) :
    0 < (s.msgs (s.messageQueues t).head).size ∧
      (s.msgs (s.messageQueues t).head).size ≤ maxMessageSize := by
  cases hb : box t with
  | nil => exact absurd ((h.head_eq_zero t).mpr hb) hne
  | cons a l =>
    have hold := h.holds t a (by simp [hb])
    rw [h.head_eq hb, hold.size]
    exact ⟨by exact_mod_cast hold.pos, hold.le⟩

end Errors

/-- In every reachable state a call returns -1 exactly for one of the errors it checks for, and then
nothing has changed. The branch of `recv_message` that drops a message of invalid size is never
taken. -/
theorem errors_without_effect (n : Nat) (s₀ : IpcState) (h₀ : Initial n s₀) (ops : List IpcOp)
    (s : History) (hrun : History.run s₀ ops = some s) :
    (∀ t r data size,
      ((sendMessage s.ipc t r data size).1 = -1 ↔ SendError s.ipc r data size) ∧
      ((sendMessage s.ipc t r data size).1 = -1 → (sendMessage s.ipc t r data size).2 = s.ipc)) ∧
    (∀ t sender buffer maxSize,
      ((recvMessage s.ipc t sender buffer maxSize).ret = -1 ↔ RecvError s.ipc t buffer maxSize) ∧
      ((recvMessage s.ipc t sender buffer maxSize).ret = -1 →
        (recvMessage s.ipc t sender buffer maxSize).state = s.ipc ∧
        (recvMessage s.ipc t sender buffer maxSize).buffer = buffer)) ∧
    ∀ t, (s.ipc.messageQueues t).head ≠ 0 →
      0 < (s.ipc.msgs (s.ipc.messageQueues t).head).size ∧
      (s.ipc.msgs (s.ipc.messageQueues t).head).size ≤ maxMessageSize := by
  obtain ⟨slots, free, box, hrep, _⟩ := History.inv_of_run h₀ hrun
  exact ⟨sendMessage_error hrep, recvMessage_error hrep, fun t => hrep.head_size⟩

theorem errors_without_effect_two :
    ∃ s, History.run poolState [.sendMessage 1 0 (some 0) 4, .sendMessage 1 0 (some 0) 300] = some s ∧
      ((recvMessage s.ipc 1 (-1) (some 0) 4).ret = -1 ↔ RecvError s.ipc 1 (some 0) 4) := by
  obtain ⟨_, s, _, _, hrun, _⟩ := History.run_inv poolState_initial
    [.sendMessage 1 0 (some 0) 4, .sendMessage 1 0 (some 0) 300]
  have hrecv := (errors_without_effect 2 poolState poolState_initial _ s hrun).2.1
  exact ⟨s, hrun, (hrecv 1 (-1) (some 0) 4).1⟩

end Hydra.Ipc
