import Hydra.Net.Driver
import Hydra.Lib.Linked
import Hydra.Lib.Run

/-!
# The packet pool

The packet pool and the receive queue of `kernal/net_driver.c`, and the functions of
`kernal/syscall.c` and `lib/libnet/` that take packets off the queue. The free list and the queue
are linked by one field of the packets. A pointer is 0 for `NULL`, and `i + 1` for
`&packet_pool[i]`.

`PoolRep` says that the 32 packets are distributed over the free list, the queue and the packets
that a caller of `net_receive` holds. Every consumer takes the first packet of the queue, if there
is one, and all but `net_receive` itself free it at once; `net_is_packet_available` too, although
its comment says that it puts the packet back.
-/

namespace Hydra.Net
open ByteMem Linked

/-- `PACKET_POOL_SIZE`. -/
def packetPoolSize : Nat := 32

/-- `struct net_packet`. -/
structure NetPacket where
  packet : Packet
  next : Nat

/-- The static variables of `net_driver.c`. -/
structure Driver where
  packetPool : Nat → NetPacket
  freePackets : Nat
  rxQueueHead : Nat
  rxQueueTail : Nat
  stats : NetStats
  interruptCount : Int32

namespace Driver

def next (d : Driver) (p : Nat) : Nat := (d.packetPool p).next

def setNext (d : Driver) (p next : Nat) : Driver :=
  { d with packetPool := Function.update d.packetPool p { d.packetPool p with next := next } }

def setPacket (d : Driver) (p : Nat) (packet : Packet) : Driver :=
  { d with packetPool := Function.update d.packetPool p { d.packetPool p with packet := packet } }

lemma setNext_next (d : Driver) (p n q : Nat) :
    (d.setNext p n).next q = if q = p then n else d.next q := by
  unfold setNext next
  rcases eq_or_ne q p with rfl | hne
  · simp
  · simp [hne]

@[simp] lemma setPacket_next (d : Driver) (p : Nat) (packet : Packet) :
    (d.setPacket p packet).next = d.next := by
  funext q
  unfold setPacket next
  rcases eq_or_ne q p with rfl | hne
  · simp
  · simp [hne]

end Driver

/-- C `init_packet_pool`. -/
def initPacketPool (d : Driver) : Driver :=
  { d with
    packetPool := fun p =>
      if 1 ≤ p ∧ p < packetPoolSize then { d.packetPool p with next := p + 1 }
      else if p = packetPoolSize then { d.packetPool p with next := 0 }
      else d.packetPool p
    freePackets := 1 }

/-- C `net_init`, without the registers of the device. -/
def netInit (d : Driver) : Driver := initPacketPool d

/-- C `alloc_packet`. -/
def allocPacket (d : Driver) : Nat × Driver :=
  if d.freePackets = 0 then (0, d)
  else
    let pkt := d.freePackets
    let d := { d with freePackets := d.next d.freePackets }
    (pkt, d.setNext pkt 0)

/-- C `net_free_packet`. -/
def netFreePacket (d : Driver) (pkt : Nat) : Driver :=
  if pkt = 0 then d
  else { d.setNext pkt d.freePackets with freePackets := pkt }

/-- C `net_receive`. -/
def netReceive (d : Driver) : Nat × Driver :=
  if d.rxQueueHead = 0 then (0, d)
  else
    let pkt := d.rxQueueHead
    let d := { d with rxQueueHead := d.next d.rxQueueHead }
    (pkt, if d.rxQueueHead = 0 then { d with rxQueueTail := 0 } else d)

/-- Add to RX queue. -/
def queuePacket (d : Driver) (pkt : Nat) : Driver :=
  let d := d.setNext pkt 0
  if d.rxQueueTail = 0 then { d with rxQueueHead := pkt, rxQueueTail := pkt }
  else { d.setNext d.rxQueueTail pkt with rxQueueTail := pkt }

/-- Simulate receiving a packet; the packet that was queued, if any. -/
def simulateReceive (d : Driver) : Nat × Driver :=
  let (pkt, d) := allocPacket d
  if pkt = 0 then (0, d)
  else
    -- create a dummy packet
    let data := copy (fun i => UInt8.ofNat i) 64 (d.packetPool pkt).packet.data
    let d := queuePacket (d.setPacket pkt ⟨data, 64⟩) pkt
    let stats := { d.stats with
      rxPackets := d.stats.rxPackets + 1
      rxBytes := d.stats.rxBytes + 64 }
    (pkt, { d with stats := stats })

/-- C `net_interrupt_handler`; and, for the record, the packet it queued, if any. -/
def netInterruptHandler (d : Driver) : Nat × Driver :=
  let d := { d with interruptCount := d.interruptCount + 1 }
  if d.interruptCount % 100 = 0 then simulateReceive d else (0, d)

/-! ## The consumers -/

/-- The case `SYS_NET_RECV` of `handle_syscall`: the return value and the buffer. -/
def sysNetRecv (d : Driver) (buffer : Mem) (maxSize : Int) : Int × Mem × Driver :=
  let (pkt, d) := netReceive d
  if pkt = 0 then (0, buffer, d)
  else
    let packet := (d.packetPool pkt).packet
    let copyLen : Int :=
      if (packet.length.toNat : Int) < maxSize then packet.length.toNat else maxSize
    (packet.length.toNat, copy packet.data copyLen.toNat buffer, netFreePacket d pkt)

/-- C `net_recv_packet`. -/
def netRecvPacket (d : Driver) (buffer : Mem) (maxLen : UInt16) : Int × Mem × Driver :=
  let (pkt, d) := netReceive d
  if pkt = 0 then (0, buffer, d)
  else
    let packet := (d.packetPool pkt).packet
    let copyLen := if packet.length < maxLen then packet.length else maxLen
    (packet.length.toNat, copy packet.data copyLen.toNat buffer, netFreePacket d pkt)

/-- C `lwip_process_packets`, with at most `fuel` tests of its loop condition; and, for the record,
the packets it processed. -/
def lwipProcessPackets : Nat → Driver → Option (List Nat × Driver)
  | 0, _ => none
  | fuel + 1, d =>
    let (pkt, d) := netReceive d
    if pkt = 0 then some ([], d)
    else (lwipProcessPackets fuel (netFreePacket d pkt)).map fun r => (pkt :: r.1, r.2)

/-- C `net_is_packet_available`. -/
def netIsPacketAvailable (d : Driver) : Int × Driver :=
  let (pkt, d) := netReceive d
  if pkt ≠ 0 then (1, netFreePacket d pkt) else (0, d)

/-- The system call gives what the driver has queued. -/
lemma sysNetRecv_eq (d : Driver) (buffer : Mem) (maxSize : Int) :
    ((sysNetRecv d buffer maxSize).1, (sysNetRecv d buffer maxSize).2.1) =
      syscallNetRecv (if (netReceive d).1 = 0 then none
        else some ((netReceive d).2.packetPool (netReceive d).1).packet) buffer maxSize := by
  unfold sysNetRecv
  by_cases h : (netReceive d).1 = 0
  · simp only [if_pos h]
    rfl
  · simp only [if_neg h]
    rfl

/-- What the consumers do to the driver: they free the packet they receive. -/
def consume (d : Driver) : Driver :=
  let (pkt, d) := netReceive d
  if pkt = 0 then d else netFreePacket d pkt

lemma sysNetRecv_driver (d : Driver) (buffer : Mem) (maxSize : Int) :
    (sysNetRecv d buffer maxSize).2.2 = consume d := by
  unfold sysNetRecv consume
  simp only
  split <;> rfl

lemma netRecvPacket_driver (d : Driver) (buffer : Mem) (maxLen : UInt16) :
    (netRecvPacket d buffer maxLen).2.2 = consume d := by
  unfold netRecvPacket consume
  simp only
  split <;> rfl

lemma netIsPacketAvailable_driver (d : Driver) : (netIsPacketAvailable d).2 = consume d := by
  unfold netIsPacketAvailable consume
  simp only [ne_eq, ite_not]
  split <;> rfl

section QueuePacket

variable (d : Driver) (p : Nat)

lemma queuePacket_first (h : d.rxQueueTail = 0) :
    queuePacket d p = { d.setNext p 0 with rxQueueHead := p, rxQueueTail := p } := if_pos h

lemma queuePacket_behind (h : d.rxQueueTail ≠ 0) :
    queuePacket d p = { (d.setNext p 0).setNext d.rxQueueTail p with rxQueueTail := p } := if_neg h

lemma queuePacket_next (q : Nat) : (queuePacket d p).next q =
    if d.rxQueueTail ≠ 0 ∧ q = d.rxQueueTail then p else if q = p then 0 else d.next q := by
  by_cases ht : d.rxQueueTail = 0
  · rw [queuePacket_first d p ht, if_neg fun hq => hq.1 ht]
    exact Driver.setNext_next d p 0 q
  · rw [queuePacket_behind d p ht]
    show ((d.setNext p 0).setNext d.rxQueueTail p).next q = _
    rw [Driver.setNext_next, Driver.setNext_next]
    simp only [ne_eq, ht, not_false_eq_true, true_and]

lemma queuePacket_freePackets : (queuePacket d p).freePackets = d.freePackets := by
  by_cases ht : d.rxQueueTail = 0
  · rw [queuePacket_first d p ht]
    rfl
  · rw [queuePacket_behind d p ht]
    rfl

lemma queuePacket_head :
    (queuePacket d p).rxQueueHead = if d.rxQueueTail = 0 then p else d.rxQueueHead := by
  by_cases ht : d.rxQueueTail = 0
  · rw [queuePacket_first d p ht, if_pos ht]
  · rw [queuePacket_behind d p ht, if_neg ht]
    rfl

lemma queuePacket_tail : (queuePacket d p).rxQueueTail = p := by
  by_cases ht : d.rxQueueTail = 0
  · rw [queuePacket_first d p ht]
  · rw [queuePacket_behind d p ht]

end QueuePacket

/-! ## The distribution of the packets -/

/-- The free list, the queue and the packets handed out are together all packets, each once. -/
structure PoolRep (d : Driver) (free queue out : List Nat) : Prop where
  chain : Chain d.next d.freePackets free
  queued : Queue d.next d.rxQueueHead d.rxQueueTail queue
  all : (free ++ queue ++ out).Perm (List.range' 1 packetPoolSize)

namespace PoolRep

variable {d : Driver} {free queue out : List Nat}

lemma nodup (h : PoolRep d free queue out) : (free ++ queue ++ out).Nodup :=
  h.all.nodup_iff.mpr List.nodup_range'

lemma ne_zero (h : PoolRep d free queue out) {p : Nat} (hp : p ∈ out) : p ≠ 0 := by
  have hmem := h.all.mem_iff.mp (List.mem_append_right _ hp)
  rw [List.mem_range'_1] at hmem
  omega

/-- The counters have no part in it. -/
lemma withStats (h : PoolRep d free queue out) (stats : NetStats) :
    PoolRep { d with stats := stats } free queue out :=
  ⟨h.chain, h.queued, h.all⟩

/-- The first packet of the queue is handed out. -/
lemma receive (h : PoolRep d free queue out) :
    (queue = [] ∧ netReceive d = (0, d)) ∨
    ∃ p rest d', queue = p :: rest ∧ p ≠ 0 ∧ netReceive d = (p, d') ∧
      PoolRep d' free rest (p :: out) := by
  obtain ⟨hfree, hqueue, hall⟩ := h
  cases queue with
  | nil =>
    left
    obtain ⟨h0, _⟩ := Queue.nil_iff.mp hqueue
    unfold netReceive
    rw [if_pos h0]
    exact ⟨rfl, rfl⟩
  | cons p rest =>
    right
    obtain ⟨hhead, hp0, _⟩ := hqueue.chain
    have hne : d.rxQueueHead ≠ 0 := hhead ▸ hp0
    have hperm : (free ++ rest ++ p :: out).Perm (free ++ p :: rest ++ out) := by
      simp only [List.append_assoc, List.cons_append]
      exact List.perm_middle.append_left free
    refine ⟨p, rest, (netReceive d).2, rfl, hp0, ?_, ?_⟩
    · unfold netReceive
      rw [if_neg hne, hhead]
    · have hrest := hqueue.uncons
      unfold netReceive
      simp only [if_neg hne]
      split
      · next h0 =>
        rw [if_pos h0] at hrest
        exact ⟨hfree, hrest, hperm.trans hall⟩
      · next h0 =>
        rw [if_neg h0] at hrest
        exact ⟨hfree, hrest, hperm.trans hall⟩

/-- A packet that was handed out becomes the first free one. -/
lemma freePacket (h : PoolRep d free queue out) {p : Nat} (hp : p ∈ out) :
    PoolRep (netFreePacket d p) (p :: free) queue (out.erase p) := by
  have hp0 := h.ne_zero hp
  have hnd := List.nodup_append.mp h.nodup
  obtain ⟨hfree, hqueue, hall⟩ := h
  have hother : ∀ q ∈ free ++ queue, (d.setNext p d.freePackets).next q = d.next q := by
    intro q hq
    rw [Driver.setNext_next, if_neg (hnd.2.2 q hq p hp)]
  unfold netFreePacket
  rw [if_neg hp0]
  refine ⟨?_, hqueue.congr fun q hq => hother q (List.mem_append_right _ hq), ?_⟩
  · apply hfree.push hp0
    · exact (Driver.setNext_next _ _ _ _).trans (if_pos rfl)
    · exact fun q hq => hother q (List.mem_append_left _ hq)
  · have hback : (p :: (free ++ queue ++ out.erase p)).Perm (free ++ queue ++ out) :=
      List.perm_middle.symm.trans ((List.perm_cons_erase hp).symm.append_left _)
    exact hback.trans hall

/-- The first free packet is taken out. -/
lemma alloc {p : Nat} (h : PoolRep d (p :: free) queue out) :
    ∃ d', allocPacket d = (p, d') ∧ PoolRep d' free queue (p :: out) := by
  have hnd := h.nodup
  obtain ⟨⟨hhead, hp0, hrest⟩, hqueue, hall⟩ := h
  have hfresh : ∀ q ∈ free ++ queue, q ≠ p := by
    rintro q hq rfl
    rw [List.append_assoc, List.cons_append, List.nodup_cons, ← List.append_assoc] at hnd
    exact hnd.1 (List.mem_append_left _ hq)
  have hother : ∀ q ∈ free ++ queue,
      (({ d with freePackets := d.next p } : Driver).setNext p 0).next q = d.next q := by
    intro q hq
    rw [Driver.setNext_next, if_neg (hfresh q hq)]
    rfl
  refine ⟨({ d with freePackets := d.next p } : Driver).setNext p 0, ?_, ?_, ?_, ?_⟩
  · unfold allocPacket
    rw [hhead, if_neg hp0]
  · exact hrest.congr fun q hq => hother q (List.mem_append_left _ hq)
  · exact hqueue.congr fun q hq => hother q (List.mem_append_right _ hq)
  · exact List.perm_middle.trans hall

lemma setPacket (h : PoolRep d free queue out) (p : Nat) (packet : Packet) :
    PoolRep (d.setPacket p packet) free queue out := by
  refine ⟨?_, ?_, h.all⟩
  · rw [Driver.setPacket_next]
    exact h.chain
  · rw [Driver.setPacket_next]
    exact h.queued

/-- A packet that was taken out is queued behind the last one. -/
lemma enqueue (h : PoolRep d free queue out) {p : Nat} (hp : p ∈ out) :
    PoolRep (queuePacket d p) free (queue ++ [p]) (out.erase p) := by
  have hp0 := h.ne_zero hp
  have hnd := List.nodup_append.mp h.nodup
  have hdisj := List.nodup_append.mp hnd.1
  obtain ⟨hfree, hqueue, hall⟩ := h
  have hzero := hqueue.tail_eq_zero
  have htail : d.rxQueueTail ≠ 0 → d.rxQueueTail ∈ queue :=
    fun ht => hqueue.tail_mem (mt hzero.mpr ht)
  -- apart from the packet itself only the last one is relinked
  have hother : ∀ q ∈ free ++ queue, (d.rxQueueTail ≠ 0 → q ≠ d.rxQueueTail) →
      (queuePacket d p).next q = d.next q := by
    intro q hq hne
    rw [queuePacket_next, if_neg fun h => hne h.1 h.2, if_neg (hnd.2.2 q hq p hp)]
  refine ⟨?_, ?_, ?_⟩
  · rw [queuePacket_freePackets]
    exact hfree.congr fun q hq =>
      hother q (List.mem_append_left _ hq) fun ht => hdisj.2.2 q hq _ (htail ht)
  · have hhead : (queuePacket d p).rxQueueHead = if d.rxQueueHead = 0 then p else d.rxQueueHead := by
      rw [queuePacket_head]
      exact if_congr hzero rfl rfl
    rw [hhead, queuePacket_tail]
    apply hqueue.concat hp0
    · rw [queuePacket_next, if_neg, if_pos rfl]
      rintro ⟨ht, rfl⟩
      exact hnd.2.2 _ (List.mem_append_right _ (htail ht)) _ hp rfl
    · intro h0
      rw [queuePacket_next, if_pos ⟨mt hzero.mp h0, rfl⟩]
    · exact fun q hq hne => hother q (List.mem_append_right _ hq) fun _ => hne
  · have hback : (free ++ (queue ++ [p]) ++ out.erase p).Perm (free ++ queue ++ out) := by
      rw [← List.append_assoc, List.append_assoc, List.singleton_append]
      exact (List.perm_cons_erase hp).symm.append_left _
    exact hback.trans hall

lemma simulate (h : PoolRep d free queue out) :
    (free = [] ∧ simulateReceive d = (0, d)) ∨
    ∃ p rest d', free = p :: rest ∧ p ≠ 0 ∧ simulateReceive d = (p, d') ∧
      PoolRep d' rest (queue ++ [p]) out := by
  cases free with
  | nil =>
    left
    refine ⟨rfl, ?_⟩
    unfold simulateReceive allocPacket
    simp only [if_pos (Chain.nil_iff.mp h.chain), if_true]
  | cons p rest =>
    right
    obtain ⟨d₁, e, h₁⟩ := h.alloc
    have hp0 := h₁.ne_zero List.mem_cons_self
    have h₂ := (h₁.setPacket p
      ⟨copy (fun i => UInt8.ofNat i) 64 (d₁.packetPool p).packet.data, 64⟩).enqueue List.mem_cons_self
    rw [List.erase_cons_head] at h₂
    have hrep : PoolRep (simulateReceive d).2 rest (queue ++ [p]) out := by
      unfold simulateReceive
      simp only [e, if_neg hp0]
      exact ⟨h₂.chain, h₂.queued, h₂.all⟩
    refine ⟨p, rest, (simulateReceive d).2, rfl, hp0, ?_, hrep⟩
    unfold simulateReceive
    simp only [e, if_neg hp0]

lemma interrupt (h : PoolRep d free queue out) :
    (∃ d', netInterruptHandler d = (0, d') ∧ PoolRep d' free queue out) ∨
    ∃ p rest d', free = p :: rest ∧ p ≠ 0 ∧ netInterruptHandler d = (p, d') ∧
      PoolRep d' rest (queue ++ [p]) out := by
  have hcount : PoolRep { d with interruptCount := d.interruptCount + 1 } free queue out :=
    ⟨h.chain, h.queued, h.all⟩
  unfold netInterruptHandler
  by_cases htime : (d.interruptCount + 1) % 100 = 0
  · simp only [if_pos htime]
    rcases hcount.simulate with ⟨_, e⟩ | hqueued
    · exact .inl ⟨_, e, hcount⟩
    · exact .inr hqueued
  · simp only [if_neg htime]
    exact .inl ⟨_, rfl, hcount⟩

/-- A consumer takes the first packet of the queue and frees it. -/
lemma consume (h : PoolRep d free queue out) :
    (queue = [] ∧ netReceive d = (0, d)) ∨
    ∃ p rest d', queue = p :: rest ∧ p ≠ 0 ∧ netReceive d = (p, d') ∧
      PoolRep (netFreePacket d' p) (p :: free) rest out := by
  rcases h.receive with hempty | ⟨p, rest, d', hqueue, hp0, e, h'⟩
  · exact .inl hempty
  · have hfreed := h'.freePacket List.mem_cons_self
    rw [List.erase_cons_head] at hfreed
    exact .inr ⟨p, rest, d', hqueue, hp0, e, hfreed⟩

/-- The loop of `lwip_process_packets` ends, and takes all queued packets in order. -/
lemma processPackets (h : PoolRep d free queue out) {fuel : Nat} (hfuel : queue.length < fuel) :
    ∃ d' free', lwipProcessPackets fuel d = some (queue, d') ∧ PoolRep d' free' [] out := by
  induction fuel generalizing d free queue with
  | zero => cases hfuel
  | succ fuel ih =>
    unfold lwipProcessPackets
    rcases h.consume with ⟨rfl, e⟩ | ⟨p, rest, d', rfl, hp0, e, h'⟩
    · simp only [e, if_true]
      exact ⟨d, free, rfl, h⟩
    · obtain ⟨d'', free', e', h''⟩ := ih h' (Nat.lt_of_succ_lt_succ hfuel)
      simp only [e, if_neg hp0, e', Option.map_some]
      exact ⟨d'', free', rfl, h''⟩

lemma length_le (h : PoolRep d free queue out) : queue.length ≤ packetPoolSize := by
  have hlen := h.all.length_eq
  rw [List.length_append, List.length_append, List.length_range'] at hlen
  omega

end PoolRep

/-- All packets are linked into the free list, whatever else they are linked into. -/
lemma initPacketPool_chain (d : Driver) : Chain (initPacketPool d).next
    (initPacketPool d).freePackets (List.range' 1 packetPoolSize) := by
  have hnext : ∀ p, 1 ≤ p → p < packetPoolSize → (initPacketPool d).next p = p + 1 := by
    intro p hp hlt
    unfold Driver.next initPacketPool
    simp only [if_pos (And.intro hp hlt)]
  have hlast : (initPacketPool d).next packetPoolSize = 0 := by
    unfold Driver.next initPacketPool
    simp only [lt_irrefl, and_false, if_false, if_true]
  have hchain : ∀ n p, 1 ≤ p → p + n = packetPoolSize →
      Chain (initPacketPool d).next p (List.range' p (n + 1)) := by
    intro n
    induction n with
    | zero =>
      rintro p hp rfl
      refine ⟨rfl, (Nat.ne_of_lt hp).symm, ?_⟩
      exact hlast
    | succ n ih =>
      intro p hp hsum
      refine ⟨rfl, (Nat.ne_of_lt hp).symm, ?_⟩
      rw [hnext p hp (by omega)]
      exact ih (p + 1) (by omega) (by omega)
  exact hchain 31 1 le_rfl rfl

lemma initPacketPool_rep {d : Driver} (hhead : d.rxQueueHead = 0) (htail : d.rxQueueTail = 0) :
    PoolRep (initPacketPool d) (List.range' 1 packetPoolSize) [] [] := by
  refine ⟨initPacketPool_chain d, Queue.nil_iff.mpr ⟨hhead, htail⟩, ?_⟩
  rw [List.append_nil, List.append_nil]

/-! ## Histories -/

/-- The driver with the packets that callers of `net_receive` hold, and the packets that entered and
left the queue so far, in this order. -/
structure PoolHistory where
  driver : Driver
  out : List Nat
  entered : List Nat
  left : List Nat

/-- An interrupt, or a call of one of the functions that use the pool. -/
inductive PoolOp where
  | netInterruptHandler
  | netReceive
  | netFreePacket (pkt : Nat)
  | sysNetRecv (buffer : Mem) (maxSize : Int)
  | netRecvPacket (buffer : Mem) (maxLen : UInt16)
  | lwipProcessPackets
  | netIsPacketAvailable

/-- The packet at a pointer, if it is not null. -/
def packetAt (p : Nat) : List Nat := if p = 0 then [] else [p]

lemma packetAt_of_ne {p : Nat} (h : p ≠ 0) : packetAt p = [p] := if_neg h

namespace PoolHistory

def step (h : PoolHistory) : PoolOp → Option PoolHistory
  | .netInterruptHandler =>
    let (pkt, d) := Net.netInterruptHandler h.driver
    some { h with driver := d, entered := h.entered ++ packetAt pkt }
  | .netReceive =>
    let (pkt, d) := Net.netReceive h.driver
    some { h with driver := d, out := packetAt pkt ++ h.out, left := h.left ++ packetAt pkt }
  | .netFreePacket pkt =>
    some { h with driver := Net.netFreePacket h.driver pkt, out := h.out.erase pkt }
  | .sysNetRecv buffer maxSize =>
    some { h with
      driver := (Net.sysNetRecv h.driver buffer maxSize).2.2
      left := h.left ++ packetAt (Net.netReceive h.driver).1 }
  | .netRecvPacket buffer maxLen =>
    some { h with
      driver := (Net.netRecvPacket h.driver buffer maxLen).2.2
      left := h.left ++ packetAt (Net.netReceive h.driver).1 }
  | .lwipProcessPackets =>
    (Net.lwipProcessPackets (packetPoolSize + 1) h.driver).map fun r =>
      { h with driver := r.2, left := h.left ++ r.1 }
  | .netIsPacketAvailable =>
    some { h with
      driver := (Net.netIsPacketAvailable h.driver).2
      left := h.left ++ packetAt (Net.netReceive h.driver).1 }

/-- A packet that is freed was received and not yet freed. -/
def Allowed (h : PoolHistory) : PoolOp → Prop
  | .netFreePacket pkt => pkt ∈ h.out
  | _ => True

instance (h : PoolHistory) (op : PoolOp) : Decidable (h.Allowed op) :=
  match op with
  | .netFreePacket pkt => inferInstanceAs (Decidable (pkt ∈ h.out))
  | .netInterruptHandler | .netReceive | .sysNetRecv _ _ | .netRecvPacket _ _
  | .lwipProcessPackets | .netIsPacketAvailable => inferInstanceAs (Decidable True)

/-- The driver after `net_init`. -/
def start (d : Driver) : PoolHistory := ⟨netInit d, [], [], []⟩

/-- The run of a list of operations after `net_init`. -/
abbrev run (d : Driver) (ops : List PoolOp) : Option PoolHistory := Run.run step (start d) ops

/-- The packets are distributed, and those that entered the queue have left it in their order or
wait there. -/
def Inv (h : PoolHistory) : Prop :=
  ∃ free queue, PoolRep h.driver free queue h.out ∧ h.entered = h.left ++ queue

/-- A consumer keeps the invariant. -/
lemma Inv.consume {h : PoolHistory} (hi : h.Inv) : Inv { h with
    driver := Net.consume h.driver
    left := h.left ++ packetAt (Net.netReceive h.driver).1 } := by
  obtain ⟨free, queue, hrep, horder⟩ := hi
  unfold Net.consume
  rcases hrep.consume with ⟨rfl, e⟩ | ⟨p, rest, d', rfl, hp0, e, h'⟩
  · simp only [e, if_true]
    exact ⟨free, [], hrep, by simpa [packetAt] using horder⟩
  · simp only [e, if_neg hp0]
    refine ⟨p :: free, rest, h', ?_⟩
    rw [horder, packetAt_of_ne hp0, List.append_assoc, List.singleton_append]

/-- Every operation ends and keeps the invariant. -/
lemma step_inv (h : PoolHistory) (op : PoolOp) (hi : h.Inv) (hok : h.Allowed op) :
    ∃ h', step h op = some h' ∧ h'.Inv := by
  cases op with
  | netInterruptHandler =>
    unfold step
    obtain ⟨free, queue, hrep, horder⟩ := hi
    rcases hrep.interrupt with ⟨d', e, h'⟩ | ⟨p, rest, d', rfl, hp0, e, h'⟩
    · simp only [e]
      exact ⟨_, rfl, free, queue, h', by simpa [packetAt] using horder⟩
    · simp only [e]
      refine ⟨_, rfl, rest, queue ++ [p], h', ?_⟩
      rw [horder, packetAt_of_ne hp0, List.append_assoc]
  | netReceive =>
    unfold step
    obtain ⟨free, queue, hrep, horder⟩ := hi
    rcases hrep.receive with ⟨rfl, e⟩ | ⟨p, rest, d', rfl, hp0, e, h'⟩
    · simp only [e]
      exact ⟨_, rfl, free, [], hrep, by simpa [packetAt] using horder⟩
    · simp only [e, packetAt_of_ne hp0]
      refine ⟨_, rfl, free, rest, h', ?_⟩
      rw [horder, List.append_assoc, List.singleton_append]
  | netFreePacket pkt =>
    obtain ⟨free, queue, hrep, horder⟩ := hi
    exact ⟨_, rfl, pkt :: free, queue, hrep.freePacket hok, horder⟩
  | sysNetRecv buffer maxSize =>
    unfold step
    simp only [sysNetRecv_driver]
    exact ⟨_, rfl, hi.consume⟩
  | netRecvPacket buffer maxLen =>
    unfold step
    simp only [netRecvPacket_driver]
    exact ⟨_, rfl, hi.consume⟩
  | lwipProcessPackets =>
    unfold step
    obtain ⟨free, queue, hrep, horder⟩ := hi
    obtain ⟨d', free', e, h'⟩ := hrep.processPackets (Nat.lt_succ_of_le hrep.length_le)
    simp only [e, Option.map_some]
    refine ⟨_, rfl, free', [], h', ?_⟩
    rw [List.append_nil]
    exact horder
  | netIsPacketAvailable =>
    unfold step
    simp only [netIsPacketAvailable_driver]
    exact ⟨_, rfl, hi.consume⟩

lemma start_inv {d : Driver} (hhead : d.rxQueueHead = 0) (htail : d.rxQueueTail = 0) :
    (start d).Inv :=
  ⟨_, _, initPacketPool_rep hhead htail, rfl⟩

end PoolHistory

/-- The free list, the receive queue and the packets handed out share no packet and are together all
packets; the tail is the last packet of the queue, and null if there is none; and the packets that
left the queue are the first ones that entered it, in this order. -/
structure PoolConserved (h : PoolHistory) (free queue : List Nat) : Prop where
  free_list : Chain h.driver.next h.driver.freePackets free
  rx_queue : Chain h.driver.next h.driver.rxQueueHead queue
  free_nodup : free.Nodup
  queue_nodup : queue.Nodup
  out_nodup : h.out.Nodup
  free_queue : free.Disjoint queue
  free_out : free.Disjoint h.out
  queue_out : queue.Disjoint h.out
  all : ∀ p, (1 ≤ p ∧ p ≤ packetPoolSize) ↔ p ∈ free ∨ p ∈ queue ∨ p ∈ h.out
  tail_null : h.driver.rxQueueTail = 0 ↔ h.driver.rxQueueHead = 0
  tail_last : h.driver.rxQueueHead ≠ 0 →
    queue.getLast? = some h.driver.rxQueueTail ∧ h.driver.next h.driver.rxQueueTail = 0
  order : h.entered = h.left ++ queue

lemma PoolRep.conserved {h : PoolHistory} {free queue : List Nat}
    (hrep : PoolRep h.driver free queue h.out) (horder : h.entered = h.left ++ queue) :
    PoolConserved h free queue := by
  have hnd := List.nodup_append.mp hrep.nodup
  have hnd' := List.nodup_append.mp hnd.1
  obtain ⟨hfree, hqueue, hall⟩ := hrep
  constructor
  · exact hfree
  · exact hqueue.chain
  · exact hnd'.1
  · exact hnd'.2.1
  · exact hnd.2.1
  · exact fun p hf hq => hnd'.2.2 p hf p hq rfl
  · exact fun p hf ho => hnd.2.2 p (List.mem_append_left _ hf) p ho rfl
  · exact fun p hq ho => hnd.2.2 p (List.mem_append_right _ hq) p ho rfl
  · intro p
    have hmem := hall.mem_iff (a := p)
    rw [List.mem_append, List.mem_append, or_assoc] at hmem
    rw [hmem, List.mem_range'_1]
    omega
  · exact hqueue.tail_eq_zero
  · intro hne
    refine ⟨?_, hqueue.next_tail hne⟩
    have hnil : queue ≠ [] := mt hqueue.chain.head_eq_zero.mpr hne
    rw [hqueue.tail_eq, List.getLastD_eq_getLast?, List.getLast?_eq_some_getLast hnil]
    rfl
  · exact horder

/-- In every run after `net_init` in which only packets are freed that were received and not yet
freed, no packet is lost or used twice, and the queue is served in order. -/
theorem packet_pool (d : Driver) (hhead : d.rxQueueHead = 0) (htail : d.rxQueueTail = 0)
    (ops : List PoolOp)
    (hok : Run.Admissible PoolHistory.step PoolHistory.Allowed (PoolHistory.start d) ops) :
    ∃ h free queue, PoolHistory.run d ops = some h ∧ PoolConserved h free queue := by
  obtain ⟨h, hrun, free, queue, hrep, horder⟩ :=
    hok.inv (PoolHistory.start_inv hhead htail) PoolHistory.step_inv
  exact ⟨h, free, queue, hrun, hrep.conserved horder⟩

/-- The static variables of the driver at boot, with the interrupt count at a given value. -/
def bootDriver (interruptCount : Int32) : Driver where
  packetPool := fun _ => ⟨⟨fun _ => 0, 0⟩, 0⟩
  freePackets := 0
  rxQueueHead := 0
  rxQueueTail := 0
  stats := ⟨0, 0, 0, 0, 0, 0⟩
  interruptCount := interruptCount

/-- The history when the first packet, of 64 bytes, has arrived. -/
def oneQueued : PoolHistory where
  driver := (Net.netInterruptHandler (netInit (bootDriver 99))).2
  out := []
  entered := [1]
  left := []

/-- A packet arrives, is received and freed, and the next ones arrive. -/
theorem packet_pool_one :
    ∃ h free queue, PoolHistory.run (bootDriver 99)
        [.netInterruptHandler, .netReceive, .netFreePacket 1, .netIsPacketAvailable] = some h ∧
      PoolConserved h free queue :=
  packet_pool (bootDriver 99) rfl rfl _ (by decide +kernel)

end Hydra.Net
