import Hydra.Lib.Ring
import Hydra.Server.Request

/-!
# Received data

Each socket buffers the data that came for it in a ring of 1024 bytes, the queue `stream`. The
command `recv` takes bytes off the queue and sends them to the client in one message. What was taken
is gone whether or not the kernel takes the message: a message has at most 256 bytes, and needs a
receiver and a free slot. `recv_conveys` says exactly when no byte is lost.
-/

namespace Hydra.Server
open ByteMem Mailbox Hydra.Ipc Hydra.LibHydra Hydra.Net

/-- The received bytes that wait in a socket, oldest first. -/
def stream (sock : Socket) : List UInt8 :=
  Ring.contents sock.rxBuffer sizeofRxBuffer sock.rxTail.toNat sock.rxCount.toNat

/-- The indices and the count of the ring fit together. -/
structure RingOk (sock : Socket) : Prop where
  tail_nonneg : 0 ≤ sock.rxTail
  tail_lt : sock.rxTail < sizeofRxBuffer
  count_nonneg : 0 ≤ sock.rxCount
  count_le : sock.rxCount ≤ sizeofRxBuffer
  head : sock.rxHead = (sock.rxTail + sock.rxCount) % sizeofRxBuffer

lemma length_stream (sock : Socket) : (stream sock).length = sock.rxCount.toNat :=
  Ring.length_contents _ _ _ _

/-! ## The copy loops -/

/-- Take the oldest byte off the ring. -/
def Socket.pop (sock : Socket) : Socket :=
  { sock with rxTail := (sock.rxTail + 1) % sizeofRxBuffer, rxCount := sock.rxCount - 1 }

lemma RingOk.indices {sock : Socket} (h : RingOk sock) :
    Ring.Indices sizeofRxBuffer sock.rxHead sock.rxTail sock.rxCount :=
  ⟨h.tail_nonneg, h.tail_lt, h.count_nonneg, h.count_le, h.head⟩

lemma RingOk.of_indices {sock : Socket}
    (h : Ring.Indices sizeofRxBuffer sock.rxHead sock.rxTail sock.rxCount) : RingOk sock :=
  ⟨h.tail_nonneg, h.tail_lt, h.count_nonneg, h.count_le, h.head⟩

lemma RingOk.pop {sock : Socket} (h : RingOk sock) (hpos : 0 < sock.rxCount) : RingOk sock.pop :=
  .of_indices (h.indices.pop hpos)

lemma stream_pop {sock : Socket} (h : RingOk sock) (hpos : 0 < sock.rxCount) :
    stream sock = sock.rxBuffer sock.rxTail.toNat :: stream sock.pop :=
  h.indices.contents_pop hpos sock.rxBuffer

/-- The copy loop of `recv_socket_data` takes bytes off the ring and puts them into the buffer. -/
lemma drain_spec (n k : Nat) {sock : Socket} (h : RingOk sock) (hn : (n : Int) ≤ sock.rxCount)
    (buf : Mem) :
    RingOk (drain n k sock buf).1 ∧ stream (drain n k sock buf).1 = (stream sock).drop n ∧
      bytes (shift (drain n k sock buf).2 k) n = (stream sock).take n ∧
      ∀ x < k, (drain n k sock buf).2 x = buf x := by
  induction n generalizing k sock buf with
  | zero => exact ⟨h, rfl, rfl, fun _ _ => rfl⟩
  | succ n ih =>
    have hpos : 0 < sock.rxCount := by omega
    have hn' : (n : Int) ≤ sock.pop.rxCount := by
      simp only [Socket.pop]
      omega
    obtain ⟨hok, hrest, hbytes, hold⟩ := ih (k + 1) (h.pop hpos) hn'
      (Function.update buf k (sock.rxBuffer sock.rxTail.toNat))
    refine ⟨hok, ?_, ?_, fun x hx => ?_⟩
    · rw [stream_pop h hpos, List.drop_succ_cons]
      exact hrest
    · rw [stream_pop h hpos, List.take_succ_cons, ← hbytes, bytes_succ, shift_shift]
      congr 1
      show (drain n (k + 1) sock.pop _).2 k = _
      rw [hold k (Nat.lt_succ_self k), Function.update_self]
    · show (drain n (k + 1) sock.pop _).2 x = _
      rw [hold x (by omega), Function.update_of_ne hx.ne]

/-- Put a byte behind the others. -/
def Socket.push (sock : Socket) (x : UInt8) : Socket :=
  { sock with
    rxBuffer := Function.update sock.rxBuffer sock.rxHead.toNat x
    rxHead := (sock.rxHead + 1) % sizeofRxBuffer
    rxCount := sock.rxCount + 1 }

lemma RingOk.push {sock : Socket} (h : RingOk sock) (hroom : sock.rxCount < sizeofRxBuffer)
    (x : UInt8) : RingOk (sock.push x) :=
  .of_indices (h.indices.push hroom)

lemma stream_push {sock : Socket} (h : RingOk sock) (hroom : sock.rxCount < sizeofRxBuffer)
    (x : UInt8) : stream (sock.push x) = stream sock ++ [x] :=
  h.indices.contents_push hroom sock.rxBuffer x

/-- The guard of the loop compares without sign. -/
lemma RingOk.room_iff {sock : Socket} (h : RingOk sock) :
    toSize sock.rxCount < sizeofRxBuffer ↔ sock.rxCount < sizeofRxBuffer := by
  obtain ⟨_, _, hc, hle, _⟩ := h
  unfold toSize sizeofRxBuffer at *
  omega

/-- The loop of `socket_add_rx_data` puts as many bytes into the ring as there is room for. -/
lemma addRxData_spec (src : Mem) (n k : Nat) {sock : Socket} (h : RingOk sock) :
    RingOk (addRxData src n k sock) ∧ stream (addRxData src n k sock) =
      stream sock ++ (bytes (shift src k) n).take (sizeofRxBuffer - sock.rxCount.toNat) := by
  induction n generalizing k sock with
  | zero => exact ⟨h, by simp [addRxData, bytes]⟩
  | succ n ih =>
    unfold addRxData
    split
    · next hroom =>
      rw [h.room_iff] at hroom
      obtain ⟨hok, hstream⟩ := ih (k + 1) (h.push hroom (src k))
      have hleft : sizeofRxBuffer - sock.rxCount.toNat =
          sizeofRxBuffer - (sock.push (src k)).rxCount.toNat + 1 := by
        have hc := h.count_nonneg
        simp only [Socket.push]
        omega
      refine ⟨hok, hstream.trans ?_⟩
      rw [stream_push h hroom, hleft, bytes_succ, List.take_succ_cons, shift_shift,
        List.append_assoc]
      rfl
    · next hfull =>
      rw [h.room_iff] at hfull
      have hnone : sizeofRxBuffer - sock.rxCount.toNat = 0 := by omega
      refine ⟨h, ?_⟩
      rw [hnone, List.take_zero, List.append_nil]

/-- `socket_add_rx_data` puts the bytes there is room for behind the others. -/
lemma socketAddRxData_spec {sock : Socket} (h : RingOk sock) (data : Mem) (len : Nat) :
    RingOk (socketAddRxData sock data len) ∧ stream (socketAddRxData sock data len) =
      stream sock ++ (bytes data len).take (sizeofRxBuffer - sock.rxCount.toNat) := by
  have hspec := addRxData_spec data len 0 h
  rwa [shift_zero] at hspec

/-- A ring is in order whatever else the socket is. -/
lemma RingOk.congr {old new : Socket} (h : RingOk old) (htail : new.rxTail = old.rxTail)
    (hcount : new.rxCount = old.rxCount) (hhead : new.rxHead = old.rxHead) : RingOk new := by
  obtain ⟨h0, hlt, hc, hle, heq⟩ := h
  constructor
  · rw [htail]; exact h0
  · rw [htail]; exact hlt
  · rw [hcount]; exact hc
  · rw [hcount]; exact hle
  · rw [hhead, htail, hcount]; exact heq

lemma RingOk.empty {sock : Socket} (htail : sock.rxTail = 0) (hcount : sock.rxCount = 0)
    (hhead : sock.rxHead = 0) : RingOk sock := by
  constructor <;> simp [htail, hcount, hhead, sizeofRxBuffer]

/-! ## Every history -/

/-- All rings of the table are in order. -/
def Rings (srv : NetServer) : Prop := ∀ i < maxSockets, RingOk (srv.sockets i)

namespace Rings

lemma init (srv : NetServer) (currentTask : Int) : Rings (netServerInit srv currentTask) := by
  intro i hi
  apply RingOk.empty <;> simp [netServerInit, hi]

variable {srv : NetServer} (h : Rings srv)
include h

lemma setSocket (i : Nat) {sock : Socket} (hok : RingOk sock) : Rings (srv.setSocket i sock) := by
  intro j hj
  rcases eq_or_ne j i with rfl | hne
  · rw [NetServer.setSocket_self]
    exact hok
  · rw [NetServer.setSocket_of_ne srv hne]
    exact h j hj

lemma packet (packetBuffer : Mem) (pkt : Option Packet) :
    Rings (processNetworkPackets srv packetBuffer pkt) := by
  rcases processNetworkPackets_cases srv packetBuffer pkt with e | ⟨i, hi, data, len, _, _, e⟩
  · rw [e]
    exact h
  · rw [e]
    exact h.setSocket i (addRxData_spec data len.toNat 0 (h i hi)).1

end Rings

/-- Every outcome of a message keeps the rings in order. -/
lemma NetEffect.rings {w w' : NetWorld} {pid : Int} {msg : Mem} {reply : Option Reply}
    {made dropped : Option Int} (h : Rings w.netserv)
    (e : NetEffect w pid msg reply w' made dropped) : Rings w'.netserv := by
  cases e with
  | ignored | answered | handed => exact h
  | allocated i hfree =>
    exact h.setSocket i (RingOk.empty rfl rfl rfl)
  | bound i ip port hfind | connected i ip port hfind htcp =>
    exact h.setSocket i ((h i (findSocket_some hfind).1).congr rfl rfl rfl)
  | listening i hfind htcp | closed i hfind =>
    exact h.setSocket i ((h i (findSocket_some hfind).1).congr rfl rfl rfl)
  | drained i k hfind hk hcount =>
    exact h.setSocket i (drain_spec k 0 (h i (findSocket_some hfind).1) hcount _).1

namespace NetHistory

lemma step_rings (h : NetHistory) (op : NetOp) (hi : Rings h.world.netserv) :
    ∃ h', step h op = some h' ∧ Rings h'.world.netserv := by
  cases op with
  | message sender body => exact ⟨_, rfl, (netHandle_effect _ _ _ _).rings hi⟩
  | packet packetBuffer pkt => exact ⟨_, rfl, hi.packet packetBuffer pkt⟩

lemma rings_of_run {srv : NetServer} {stats : NetStats} {currentTask : Int} {msgBuffer : Mem}
    {ops : List NetOp} {h : NetHistory}
    (hrun : run (start srv stats currentTask msgBuffer) ops = some h) : Rings h.world.netserv := by
  have hinit : Rings (start srv stats currentTask msgBuffer).world.netserv := .init srv currentTask
  exact Run.inv_of_run step_rings hrun hinit

end NetHistory

/-! ## No byte is lost -/

/-- What the handling of a message by the task `t` takes off a ring is what it posts to the
client. -/
def Conveys (w : NetWorld) (s : IpcState) (t pid : Int) (msg : Mem) (size : Int) : Prop :=
  let handled := netHandleClientMessage w pid msg size
  let sent := sendReply s t pid handled.1
  ∀ i < maxSockets, ∃ k ≤ (stream (w.netserv.sockets i)).length,
    stream (handled.2.netserv.sockets i) = (stream (w.netserv.sockets i)).drop k ∧
    (k = 0 → handled.2.netserv.sockets i = w.netserv.sockets i) ∧
    (0 < k → ∃ slot, sent.2.pending =
      post s.pending pid ⟨slot, t, (stream (w.netserv.sockets i)).take k⟩)

/-- If the command finds bytes to take, they fit a message, the client exists and there is a free
slot. -/
def RecvFits (w : NetWorld) (s : IpcState) (pid : Int) (msg : Mem) (size : Int) : Prop :=
  12 ≤ size → ∀ i, findSocket w.netserv (arg msg 1) = some i →
    0 < (w.netserv.sockets i).rxCount → 0 < recvLimit msg →
      ((w.netserv.sockets i).rxCount ≤ maxMessageSize ∨ recvLimit msg ≤ maxMessageSize) ∧
      (0 ≤ pid ∧ pid < maxTasks) ∧ s.freeMessages ≠ 0

lemma netHandle_recv {msg : Mem} (hcmd : arg msg 0 = 6) (w : NetWorld) (pid size : Int) :
    netHandleClientMessage w pid msg size =
      if size < 4 then (none, w)
      else if 12 ≤ size then netRecvCommand w msg else (some (intReply (-1)), w) := by
  unfold netHandleClientMessage
  rw [hcmd]
  rfl

section Recv

variable {S : Set Nat} {s : IpcState} {free : List Nat} {box : Int → List Letter}

lemma conveys_of_same {w : NetWorld} {msg : Mem} {pid size : Int}
    (h : (netHandleClientMessage w pid msg size).2 = w) (s : IpcState) (t : Int) :
    Conveys w s t pid msg size := by
  intro i _
  refine ⟨0, Nat.zero_le _, ?_, fun _ => ?_, fun h0 => absurd h0 (lt_irrefl 0)⟩
  · rw [h, List.drop_zero]
  · rw [h]

/-- The bytes taken off a ring are conveyed exactly if the reply that carries them is posted. -/
lemma conveys_drained (hrep : Rep S s free box) {w : NetWorld} {msg data : Mem} {pid size : Int}
    {i k : Nat} {sock : Socket} (hi : i < maxSockets) (hk : 0 < k)
    (hlen : k ≤ (stream (w.netserv.sockets i)).length)
    (hrest : stream sock = (stream (w.netserv.sockets i)).drop k)
    (hbytes : bytes data k = (stream (w.netserv.sockets i)).take k)
    (h : netHandleClientMessage w pid msg size = (some (data, (k : Int)), w.setSocket i sock))
    (t : Int) :
    Conveys w s t pid msg size ↔
      (k : Int) ≤ maxMessageSize ∧ (0 ≤ pid ∧ pid < maxTasks) ∧ s.freeMessages ≠ 0 := by
  have hfree : s.freeMessages = 0 ↔ free = [] := hrep.pool.head_eq_zero
  have hself : (w.setSocket i sock).netserv.sockets i = sock := NetServer.setSocket_self _ i _
  unfold Conveys
  simp only [h]
  rcases sendReply_cases hrep t pid (some (data, (k : Int))) with
    ⟨e, hno⟩ | ⟨f, free', x, s', rfl, hx, hok, e, hrep'⟩
  · simp only [e]
    apply iff_of_false
    · intro hall
      obtain ⟨k', hle, hdrop, _, hpost⟩ := hall i hi
      rw [hself, hrest] at hdrop
      -- the bytes that are missing are those that were taken
      have hk' : k' = k := by
        have hlengths := congrArg List.length hdrop
        rw [List.length_drop, List.length_drop] at hlengths
        omega
      obtain ⟨slot, hp⟩ := hpost (hk' ▸ hk)
      exact post_ne _ _ _ hp.symm
    · rintro ⟨hmax, hpid, hne⟩
      rcases hno _ rfl with hbad | hnil
      · exact hbad ⟨hpid, ⟨Int.natCast_pos.mpr hk, hmax⟩, rfl⟩
      · exact hne (hfree.mpr hnil)
  · obtain rfl : (data, (k : Int)) = x := Option.some.inj hx
    simp only [e]
    apply iff_of_true
    · intro j hj
      rcases eq_or_ne j i with rfl | hne
      · refine ⟨k, hlen, ?_, fun h0 => absurd h0 hk.ne', fun _ => ⟨f, ?_⟩⟩
        · rw [hself, hrest]
        · rw [hrep'.pending_eq, hrep.pending_eq, ← hbytes]
          rfl
      · have hother : (w.setSocket i sock).netserv.sockets j = w.netserv.sockets j :=
          NetServer.setSocket_of_ne _ hne _
        refine ⟨0, Nat.zero_le _, ?_, fun _ => hother, fun h0 => absurd h0 (lt_irrefl 0)⟩
        rw [hother, List.drop_zero]
    · obtain ⟨hpid, ⟨_, hmax⟩, _⟩ := hok
      exact ⟨hmax, hpid, fun h0 => by cases hfree.mp h0⟩

/-- A receive command conveys what it takes exactly if it fits. -/
lemma conveys_iff (hrep : Rep S s free box) {w : NetWorld} (hrings : Rings w.netserv) {msg : Mem}
    (hcmd : arg msg 0 = 6) (t pid size : Int) :
    Conveys w s t pid msg size ↔ RecvFits w s pid msg size := by
  have hhandle := netHandle_recv hcmd w pid size
  by_cases hsize : 12 ≤ size
  · rw [if_neg (by omega), if_pos hsize] at hhandle
    rcases netRecvCommand_cases w msg with ⟨v, e, hnone⟩ | ⟨i, k, hfind, hk, hmin, e⟩
    · rw [e] at hhandle
      have hsame : (netHandleClientMessage w pid msg size).2 = w := by rw [hhandle]
      apply iff_of_true (conveys_of_same hsame s t)
      intro _ i hi hpos hlim
      rcases hnone i hi with hcount | hzero
      · exact absurd hpos hcount.not_gt
      · exact absurd hzero hlim.ne'
    · rw [e] at hhandle
      have hi := (findSocket_some hfind).1
      obtain ⟨_, hrest, hbytes, _⟩ := drain_spec k 0 (hrings i hi) (by omega) fun _ => 0
      rw [shift_zero] at hbytes
      have hlen : k ≤ (stream (w.netserv.sockets i)).length := by
        rw [length_stream]
        omega
      rw [conveys_drained hrep hi hk hlen hrest hbytes hhandle t]
      unfold RecvFits
      constructor
      · rintro ⟨hmax, hrest⟩ _ j hj _ _
        obtain rfl : i = j := Option.some.inj (hfind.symm.trans hj)
        exact ⟨by omega, hrest⟩
      · intro hfits
        obtain ⟨hmax, hrest⟩ := hfits hsize i hfind (by omega) (by omega)
        exact ⟨by omega, hrest⟩
  · refine iff_of_true (conveys_of_same ?_ s t) fun h => absurd h hsize
    rw [hhandle]
    rw [if_neg hsize]
    split <;> rfl

end Recv

/-- In every history of the server and every state of the message system, what a receive command
takes off a ring reaches the client in one message, or nothing is taken, exactly if the bytes it
finds fit a message and the message can be sent. -/
theorem recv_conveys (srv : NetServer) (stats : NetStats) (currentTask : Int) (msgBuffer : Mem)
    (netOps : List NetOp) (hist : NetHistory)
    (hhist : NetHistory.run (.start srv stats currentTask msgBuffer) netOps = some hist)
    (n : Nat) (s₀ : IpcState) (h₀ : Initial n s₀) (ops : List IpcOp) (s : History)
    (hrun : History.run s₀ ops = some s) (t pid : Int) (msg : Mem) (size : Int)
    (hcmd : arg msg 0 = 6) :
    Conveys hist.world s.ipc t pid msg size ↔ RecvFits hist.world s.ipc pid msg size := by
  obtain ⟨slots, free, box, hrep, _⟩ := History.inv_of_run h₀ hrun
  exact conveys_iff hrep (NetHistory.rings_of_run hhist) hcmd t pid size

/-- Task 1 creates and connects a socket, and a packet of 300 bytes arrives. -/
def packetForOne : List NetOp :=
  [.message 1 [1, 0, 0, 0, 1, 0, 0, 0, 1, 0, 0, 0],
    .message 1 [1, 0, 0, 0, 4, 0, 0, 0, 1, 0, 0, 0, 0, 0, 0, 0, 0, 0, 0, 0],
    .packet (fun _ => 0) (some ⟨fun _ => 7, 300⟩)]

/-- The command that receives up to `maxLen` bytes from socket 1. -/
def recvOne (maxLen : Int) : Mem := setWords (fun _ => 0) 0 [6, 1, ofInt32 maxLen]

lemma packetForOne_run :
    ∃ h, NetHistory.run (.start bootNet ⟨0, 0, 0, 0, 0, 0⟩ 4 fun _ => 0) packetForOne = some h ∧
      findSocket h.world.netserv 1 = some 0 ∧ (h.world.netserv.sockets 0).rxCount = 300 := by
  have hrun : (NetHistory.run (.start bootNet ⟨0, 0, 0, 0, 0, 0⟩ 4 fun _ => 0) packetForOne).map
      (fun h => (findSocket h.world.netserv 1, (h.world.netserv.sockets 0).rxCount)) =
      some (some 0, 300) := by decide +kernel
  obtain ⟨h, hrun, hfacts⟩ := Option.map_eq_some_iff.mp hrun
  rw [Prod.mk.injEq] at hfacts
  exact ⟨h, hrun, hfacts⟩

theorem recv_conveys_hundred :
    ∃ h, NetHistory.run (.start bootNet ⟨0, 0, 0, 0, 0, 0⟩ 4 fun _ => 0) packetForOne = some h ∧
      (Conveys h.world poolState 4 1 (recvOne 100) 12 ↔
        RecvFits h.world poolState 1 (recvOne 100) 12) := by
  obtain ⟨h, hrun, _⟩ := packetForOne_run
  exact ⟨h, hrun, recv_conveys _ _ _ _ _ h hrun 2 poolState poolState_initial [] ⟨poolState, []⟩ rfl
    4 1 (recvOne 100) 12 (by decide +kernel)⟩

/-- Task 1 asks for all the 300 bytes: they are taken off the ring, and no message has them. -/
theorem recv_conveys_fails :
    ∃ h, NetHistory.run (.start bootNet ⟨0, 0, 0, 0, 0, 0⟩ 4 fun _ => 0) packetForOne = some h ∧
      Initial 2 poolState ∧ ¬Conveys h.world poolState 4 1 (recvOne 1024) 12 := by
  obtain ⟨h, hrun, hfind, hcount⟩ := packetForOne_run
  obtain ⟨slots, _, hrep⟩ := poolState_initial.rep
  have hcmd : arg (recvOne 1024) 0 = 6 ∧ arg (recvOne 1024) 1 = 1 ∧ recvLimit (recvOne 1024) = 1024 := by
    decide +kernel
  refine ⟨h, hrun, poolState_initial, ?_⟩
  rw [conveys_iff hrep (NetHistory.rings_of_run hrun) hcmd.1]
  intro hfits
  have hsmall := (hfits (by decide) 0 (hcmd.2.1 ▸ hfind) (by rw [hcount]; decide)
    (by rw [hcmd.2.2]; decide)).1
  rw [hcount, hcmd.2.2] at hsmall
  exact absurd hsmall (by decide)

end Hydra.Server
