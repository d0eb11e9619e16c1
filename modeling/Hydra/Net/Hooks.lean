import Hydra.Net.Pool

/-!
# Around the driver

Three functions of the driver's users that do not keep to what it assumes. `net_is_packet_available`
takes the packet off the queue that it asks for, and frees it. `lwip_init` initialises the pool
again, although `kmain` did: all packets are linked into the free list, and the queue stays as it
was. `syscall_net_send` has its length narrowed to 16 bits before `net_send` checks it.
-/

namespace Hydra.Net
open ByteMem Linked

/-! ## Asking for a packet -/

/-- The packet that `net_receive` gives, if it gives one. -/
def nextPacket (d : Driver) : Option (Nat × Packet) :=
  let (pkt, d) := netReceive d
  if pkt = 0 then none else some (pkt, (d.packetPool pkt).packet)

/-- What the next calls of `net_receive` give. -/
def receives : Nat → Driver → List (Option (Nat × Packet))
  | 0, _ => []
  | n + 1, d => nextPacket d :: receives n (netReceive d).2

/-- The driver after a number of calls of `net_is_packet_available`. -/
def ask : Nat → Driver → Driver
  | 0, d => d
  | n + 1, d => ask n (netIsPacketAvailable d).2

/-- The answer is right, and any number of questions leaves the queue and the packets that receives
give as they were. -/
structure Peeks (d : Driver) : Prop where
  answer : (netIsPacketAvailable d).1 = 1 ↔ (nextPacket d).isSome
  queue : ∀ n, (ask n d).rxQueueHead = d.rxQueueHead ∧ (ask n d).rxQueueTail = d.rxQueueTail
  receives : ∀ n k, Net.receives k (ask n d) = Net.receives k d

lemma netIsPacketAvailable_answer (d : Driver) :
    (netIsPacketAvailable d).1 = 1 ↔ (nextPacket d).isSome := by
  unfold netIsPacketAvailable nextPacket
  by_cases h : (netReceive d).1 = 0
  · simp [h]
  · simp [h]

/-- With an empty queue a question changes nothing. -/
lemma ask_empty {d : Driver} (h : d.rxQueueHead = 0) (n : Nat) : ask n d = d := by
  have hone : (netIsPacketAvailable d).2 = d := by
    unfold netIsPacketAvailable netReceive
    rw [if_pos h]
    rfl
  induction n with
  | zero => rfl
  | succ n ih =>
    unfold ask
    rw [hone]
    exact ih

lemma PoolRep.peeks_iff {d : Driver} {free queue out : List Nat} (h : PoolRep d free queue out) :
    Peeks d ↔ d.rxQueueHead = 0 := by
  constructor
  · intro hpeeks
    rcases h.consume with ⟨rfl, _⟩ | ⟨p, rest, d', rfl, hp0, e, h'⟩
    · exact (Queue.nil_iff.mp h.queued).1
    · -- the first packet of the queue is in the free list now
      have hhead := (hpeeks.queue 1).1
      have hp : d.rxQueueHead = p := h.queued.chain.1
      have hask : ask 1 d = netFreePacket d' p := by
        unfold ask netIsPacketAvailable
        simp only [e, ne_eq, hp0, not_false_eq_true, if_true]
        rfl
      rw [hask, hp] at hhead
      have hrest : p ∈ rest := by
        have hne : rest ≠ [] := fun hnil => hp0 (hhead ▸ h'.queued.chain.head_eq_zero.mpr hnil)
        obtain ⟨q, rest', rfl⟩ := List.exists_cons_of_ne_nil hne
        rw [← hhead, h'.queued.chain.1]
        exact List.mem_cons_self
      exact absurd hrest (List.nodup_cons.mp h.queued.chain.nodup).1
  · intro hempty
    refine ⟨netIsPacketAvailable_answer d, fun n => ?_, fun n k => ?_⟩
    · rw [ask_empty hempty]
      exact ⟨rfl, rfl⟩
    · rw [ask_empty hempty]

/-- In every reachable state the answer is right; and asking leaves the queue as it is exactly if it
is empty. -/
theorem packet_available (d : Driver) (hhead : d.rxQueueHead = 0) (htail : d.rxQueueTail = 0)
    (ops : List PoolOp)
    (hok : Run.Admissible PoolHistory.step PoolHistory.Allowed (PoolHistory.start d) ops)
    (h : PoolHistory) (hrun : PoolHistory.run d ops = some h) :
    ((netIsPacketAvailable h.driver).1 = 1 ↔ (nextPacket h.driver).isSome) ∧
      (Peeks h.driver ↔ h.driver.rxQueueHead = 0) := by
  obtain ⟨free, queue, hrep, _⟩ :=
    hok.inv_of_run hrun (PoolHistory.start_inv hhead htail) PoolHistory.step_inv
  exact ⟨netIsPacketAvailable_answer h.driver, hrep.peeks_iff⟩

/-- A packet has arrived and has been processed. Nothing is left to ask for, so asking changes
nothing. -/
theorem packet_available_none :
    ∃ h, PoolHistory.run (bootDriver 99) [.netInterruptHandler, .lwipProcessPackets] = some h ∧
      h.entered = [1] ∧ h.left = [1] ∧ (netIsPacketAvailable h.driver).1 = 0 ∧ Peeks h.driver := by
  have hok : Run.Admissible PoolHistory.step PoolHistory.Allowed (PoolHistory.start (bootDriver 99))
      [.netInterruptHandler, .lwipProcessPackets] := by decide +kernel
  have hfacts : (PoolHistory.run (bootDriver 99) [.netInterruptHandler, .lwipProcessPackets]).map
      (fun h => (h.entered, h.left, (netIsPacketAvailable h.driver).1, h.driver.rxQueueHead)) =
      some ([1], [1], 0, 0) := by
    decide +kernel
  obtain ⟨h, hrun, hfacts⟩ := Option.map_eq_some_iff.mp hfacts
  simp only [Prod.mk.injEq] at hfacts
  obtain ⟨hentered, hleft, hanswer, hhead⟩ := hfacts
  obtain ⟨_, hpeeks⟩ := packet_available (bootDriver 99) rfl rfl _ hok h hrun
  exact ⟨h, hrun, hentered, hleft, hanswer, hpeeks.mpr hhead⟩

/-- A packet has arrived; after one question it is not in the queue any more. -/
theorem packet_available_fails :
    PoolHistory.run (bootDriver 99) [.netInterruptHandler] = some oneQueued ∧
      (netIsPacketAvailable oneQueued.driver).1 = 1 ∧ ¬Peeks oneQueued.driver := by
  refine ⟨rfl, by decide +kernel, fun hpeeks => ?_⟩
  have hhead := (hpeeks.queue 1).1
  exact absurd hhead (by decide +kernel)

/-! ## Initialising again -/

/-- C `lwip_init`. -/
def lwipInit (d : Driver) : Driver := netInit d

/-- An operation of the driver's users, or a new initialisation. -/
inductive DriverOp where
  | pool (op : PoolOp)
  | lwipInit

namespace PoolHistory

def reinit (h : PoolHistory) : PoolHistory := { h with driver := lwipInit h.driver }

/-- The step of an operation. -/
def driverStep (h : PoolHistory) : DriverOp → Option PoolHistory
  | .pool op => step h op
  | .lwipInit => some h.reinit

/-- No packet is queued or handed out. -/
def AllFree (h : PoolHistory) : Prop := h.driver.rxQueueHead = 0 ∧ h.out = []

/-- As before, and the driver is initialised again only while all packets are free. -/
def DriverAllowed (h : PoolHistory) : DriverOp → Prop
  | .pool op => h.Allowed op
  | .lwipInit => h.AllFree

instance (h : PoolHistory) : Decidable h.AllFree := inferInstanceAs (Decidable (_ ∧ _))

instance (h : PoolHistory) (op : DriverOp) : Decidable (h.DriverAllowed op) :=
  match op with
  | .pool op => inferInstanceAs (Decidable (h.Allowed op))
  | .lwipInit => inferInstanceAs (Decidable h.AllFree)

/-- After a new initialisation the free list and the queue are null-terminated lists that have no
packet in common; and a packet that was queued or handed out before is not in the free list, from
which packets are allocated. -/
def ReinitSafe (h : PoolHistory) : Prop :=
  ∃ free queue, Chain h.reinit.driver.next h.reinit.driver.freePackets free ∧
    Chain h.reinit.driver.next h.reinit.driver.rxQueueHead queue ∧
    free.Nodup ∧ queue.Nodup ∧ free.Disjoint queue ∧ (∀ p ∈ h.out, p ∉ free) ∧
    ∀ queue₀, Chain h.driver.next h.driver.rxQueueHead queue₀ → ∀ p ∈ queue₀, p ∉ free

lemma allFree_iff {h : PoolHistory} {free queue : List Nat} (hrep : PoolRep h.driver free queue h.out) :
    h.AllFree ↔ queue = [] ∧ h.out = [] :=
  and_congr_left fun _ => hrep.queued.chain.head_eq_zero

/-- Initialising again while all packets are free puts the pool into its first state. -/
lemma reinit_rep {h : PoolHistory} {free queue : List Nat} (hrep : PoolRep h.driver free queue h.out)
    (hfree : h.AllFree) : PoolRep h.reinit.driver (List.range' 1 packetPoolSize) [] h.out := by
  obtain ⟨hhead, hout⟩ := hfree
  rw [hout]
  exact initPacketPool_rep hhead (hrep.queued.tail_eq_zero.mpr hhead)

/-- A new initialisation is safe exactly if all packets are free: it puts all of them into the free
list. -/
lemma reinitSafe_iff {h : PoolHistory} {free queue : List Nat}
    (hrep : PoolRep h.driver free queue h.out) : h.ReinitSafe ↔ h.AllFree := by
  constructor
  · rintro ⟨free', queue', hchain, _, _, _, _, hout, hqueue⟩
    -- the chain of the free list does not depend on the queue
    have hall : free' = List.range' 1 packetPoolSize :=
      hchain.unique (initPacketPool_chain h.driver)
    have hmem : ∀ p ∈ queue ++ h.out, p ∈ free' := by
      intro p hp
      rw [hall]
      apply hrep.all.mem_iff.mp
      rw [List.append_assoc]
      exact List.mem_append_right _ hp
    rw [allFree_iff hrep]
    refine ⟨List.eq_nil_iff_forall_not_mem.mpr fun p hp => ?_,
      List.eq_nil_iff_forall_not_mem.mpr fun p hp => ?_⟩
    · exact hqueue queue hrep.queued.chain p hp (hmem p (List.mem_append_left _ hp))
    · exact hout p hp (hmem p (List.mem_append_right _ hp))
  · intro hfree
    have hnew := reinit_rep hrep hfree
    have hnd := List.nodup_append.mp hnew.nodup
    obtain ⟨hempty, hout⟩ := (allFree_iff hrep).mp hfree
    refine ⟨_, [], hnew.chain, hnew.queued.chain, List.nodup_range', List.nodup_nil, ?_, ?_, ?_⟩
    · exact List.disjoint_nil_right _
    · intro p hp
      rw [hout] at hp
      cases hp
    · intro queue₀ hqueue₀ p hp
      rw [hqueue₀.unique hrep.queued.chain, hempty] at hp
      cases hp

lemma driverStep_inv (h : PoolHistory) (op : DriverOp) (hi : h.Inv) (hok : h.DriverAllowed op) :
    ∃ h', driverStep h op = some h' ∧ h'.Inv := by
  cases op with
  | pool op => exact step_inv h op hi hok
  | lwipInit =>
    obtain ⟨free, queue, hrep, horder⟩ := hi
    obtain ⟨rfl, _⟩ := (allFree_iff hrep).mp hok
    exact ⟨_, rfl, _, [], reinit_rep hrep hok, horder⟩

end PoolHistory

/-- In every run after `net_init` in which the driver is initialised again only while all packets
are free, no packet is lost or used twice; and in every state that such a run reaches, a new
initialisation is safe exactly if all packets are free. -/
theorem reinit_safe (d : Driver) (hhead : d.rxQueueHead = 0) (htail : d.rxQueueTail = 0)
    (ops : List DriverOp)
    (hok : Run.Admissible PoolHistory.driverStep PoolHistory.DriverAllowed (PoolHistory.start d) ops)
    (h : PoolHistory) (hrun : Run.run PoolHistory.driverStep (PoolHistory.start d) ops = some h) :
    (∃ free queue, PoolConserved h free queue) ∧ (h.ReinitSafe ↔ h.AllFree) := by
  obtain ⟨free, queue, hrep, horder⟩ :=
    hok.inv_of_run hrun (PoolHistory.start_inv hhead htail) PoolHistory.driverStep_inv
  exact ⟨⟨free, queue, hrep.conserved horder⟩, PoolHistory.reinitSafe_iff hrep⟩

/-- A packet arrives and is processed; then initialising again is safe. -/
theorem reinit_safe_processed :
    ∃ h, Run.run PoolHistory.driverStep (PoolHistory.start (bootDriver 99))
        [.pool .netInterruptHandler, .pool .lwipProcessPackets, .lwipInit] = some h ∧
      (h.ReinitSafe ↔ h.AllFree) := by
  have hok : Run.Admissible PoolHistory.driverStep PoolHistory.DriverAllowed
      (PoolHistory.start (bootDriver 99))
      [.pool .netInterruptHandler, .pool .lwipProcessPackets, .lwipInit] := by decide +kernel
  obtain ⟨h, hrun, _⟩ := hok.inv (PoolHistory.start_inv rfl rfl) PoolHistory.driverStep_inv
  exact ⟨h, hrun, (reinit_safe (bootDriver 99) rfl rfl _ hok h hrun).2⟩

/-- A packet has arrived and waits. After a new initialisation it is still the first of the queue,
and the next one to be allocated. -/
theorem reinit_safe_fails :
    PoolHistory.run (bootDriver 99) [.netInterruptHandler] = some oneQueued ∧
      oneQueued.reinit.driver.rxQueueHead = 1 ∧ (allocPacket oneQueued.reinit.driver).1 = 1 ∧
      ¬oneQueued.ReinitSafe := by
  refine ⟨rfl, by decide +kernel, by decide +kernel, ?_⟩
  rintro ⟨free, queue, hfree, hqueue, _, _, hdisj, _⟩
  have hfirst : oneQueued.reinit.driver.freePackets = 1 ∧
      oneQueued.reinit.driver.rxQueueHead = 1 := by decide +kernel
  rw [hfirst.1] at hfree
  rw [hfirst.2] at hqueue
  have hmem : ∀ l, Chain oneQueued.reinit.driver.next 1 l → 1 ∈ l := by
    intro l hl
    cases l with
    | nil => exact absurd hl Nat.one_ne_zero
    | cons p l =>
      rw [hl.1]
      exact List.mem_cons_self
  exact hdisj (hmem free hfree) (hmem queue hqueue)

/-! ## Sending -/

/-- The length of a frame is checked as it is: a length from 0 to 1514 is sent and counted, any
other is an error. -/
def ChecksLength (stats : NetStats) (size : Int) (r : Int × NetStats) : Prop :=
  (0 ≤ size ∧ size ≤ 1514 →
    r = (0, { stats with
      txPackets := stats.txPackets + 1
      txBytes := stats.txBytes + UInt32.ofNat size.toNat })) ∧
  (¬(0 ≤ size ∧ size ≤ 1514) → r = (-1, { stats with txErrors := stats.txErrors + 1 }))

/-- What is checked and counted is the length modulo 2^16. -/
lemma syscallNetSend_eq (stats : NetStats) (size : Int) : syscallNetSend stats size =
    if 1514 < size % 2 ^ 16 then (-1, { stats with txErrors := stats.txErrors + 1 })
    else
      (0, { stats with
        txPackets := stats.txPackets + 1
        txBytes := stats.txBytes + UInt32.ofNat (size % 2 ^ 16).toNat }) := by
  have hlen : (UInt16.ofNat (size % 2 ^ 16).toNat).toNat = (size % 2 ^ 16).toNat := by
    rw [UInt16.toNat_ofNat']
    omega
  have hlt : 1514 < UInt16.ofNat (size % 2 ^ 16).toNat ↔ 1514 < size % 2 ^ 16 := by
    rw [UInt16.lt_iff_toNat_lt, hlen]
    show 1514 < (size % 2 ^ 16).toNat ↔ _
    omega
  unfold syscallNetSend netSend
  simp only [hlt, hlen]

/-- For every length, `syscall_net_send` checks the true one exactly if it is from 0 to 1514, or its
low 16 bits are more than 1514 as well. -/
theorem frame_length (stats : NetStats) (size : Int) :
    ChecksLength stats size (syscallNetSend stats size) ↔
      (0 ≤ size ∧ size ≤ 1514) ∨ 1514 < size % 2 ^ 16 := by
  rw [syscallNetSend_eq]
  unfold ChecksLength
  by_cases hsize : 0 ≤ size ∧ size ≤ 1514
  · have hmod : size % 2 ^ 16 = size := Int.emod_eq_of_lt hsize.1 (by omega)
    rw [hmod, if_neg (by omega)]
    exact iff_of_true ⟨fun _ => rfl, fun hno => absurd hsize hno⟩ (.inl hsize)
  · by_cases hlow : 1514 < size % 2 ^ 16
    · rw [if_pos hlow]
      exact iff_of_true ⟨fun hyes => absurd hyes hsize, fun _ => rfl⟩ (.inr hlow)
    · rw [if_neg hlow]
      apply iff_of_false
      · intro hchecks
        have hret : (0 : Int) = -1 := congrArg Prod.fst (hchecks.2 hsize)
        exact absurd hret (by decide)
      · rintro (h | h)
        · exact hsize h
        · exact hlow h

/-- A frame of 65536 bytes is sent, as one without any. -/
theorem frame_length_fails :
    (syscallNetSend ⟨0, 0, 0, 0, 0, 0⟩ 65536).1 = 0 ∧
      (syscallNetSend ⟨0, 0, 0, 0, 0, 0⟩ 65536).2.txBytes = 0 ∧
      ¬ChecksLength ⟨0, 0, 0, 0, 0, 0⟩ 65536 (syscallNetSend ⟨0, 0, 0, 0, 0, 0⟩ 65536) := by
  refine ⟨by decide, by decide, fun hchecks => ?_⟩
  have hret := congrArg Prod.fst (hchecks.2 (by decide))
  exact absurd hret (by decide)

end Hydra.Net
