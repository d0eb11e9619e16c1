import Hydra.Net.Pool
import Hydra.LibNet.Socket
import Hydra.Server.Stream

/-!
# Reported lengths

What a receive function returns, beside what it writes. `SYS_NET_RECV`, `net_recv_packet`, `recv`
and `recvfrom` write as much of the packet or message as the buffer has room for, and return how
long it is (`Truncates`). So the result is the number of bytes written exactly if the packet or
message fits the buffer.

The network server passes a buffer of 1500 bytes, and takes the result for the number of bytes in
it. A packet can be longer. But a socket takes at most 1024 bytes, and these were all written.
-/

namespace Hydra.LibNet
open ByteMem Mailbox Hydra.Ipc Hydra.LibHydra Hydra.Net Hydra.Server

/-- The call takes `n` bytes, writes as many as there is room for and returns how many there are. -/
def Truncates (src : Mem) (n room : Nat) (call : Mem → Int × Mem) : Prop :=
  ∀ buffer, call buffer = ((n : Int), copy src (min n room) buffer)

/-- A positive result is at most the capacity, and is the number of bytes written. -/
def ReportsWritten (capacity : Int) (call : Mem → Int × Mem) : Prop :=
  ∀ buffer, 0 < (call buffer).1 → (call buffer).1 ≤ capacity ∧
    Writes (fun b => (call b).2) (call buffer).1.toNat

lemma Truncates.reportsWritten_iff {src : Mem} {n room : Nat} {call : Mem → Int × Mem}
    (h : Truncates src n room call) {capacity : Int} (hroom : room ≤ capacity.toNat) :
    ReportsWritten capacity call ↔ n ≤ room := by
  have hwrites : Writes (fun b => (call b).2) (min n room) :=
    ⟨src, fun buffer => congrArg Prod.snd (h buffer)⟩
  unfold ReportsWritten
  simp only [h _, Int.toNat_natCast] at hwrites ⊢
  constructor
  · intro hall
    by_contra hlt
    have hn : (0 : Int) < n := by omega
    have heq := (hall (fun _ => 0) hn).2.unique hwrites
    omega
  · intro hle _ hn
    rw [min_eq_left hle] at hwrites
    exact ⟨by omega, by rwa [min_eq_left hle]⟩

/-! ## Packets -/

/-- The packet that `net_receive` takes off the queue. -/
def received (d : Driver) : Packet := ((netReceive d).2.packetPool (netReceive d).1).packet

lemma sysNetRecv_truncates {d : Driver} (h : (netReceive d).1 ≠ 0) (maxSize : Int) :
    Truncates (received d).data (received d).length.toNat maxSize.toNat
      fun buffer => ((sysNetRecv d buffer maxSize).1, (sysNetRecv d buffer maxSize).2.1) := by
  intro buffer
  have hcopied : (if ((received d).length.toNat : Int) < maxSize then
      ((received d).length.toNat : Int) else maxSize).toNat =
      min (received d).length.toNat maxSize.toNat := by
    split <;> omega
  unfold sysNetRecv
  simp only [if_neg h]
  rw [← hcopied]
  rfl

lemma netRecvPacket_truncates {d : Driver} (h : (netReceive d).1 ≠ 0) (maxLen : UInt16) :
    Truncates (received d).data (received d).length.toNat maxLen.toNat
      fun buffer => ((netRecvPacket d buffer maxLen).1, (netRecvPacket d buffer maxLen).2.1) := by
  intro buffer
  have hcopied : (if (received d).length < maxLen then (received d).length else maxLen).toNat =
      min (received d).length.toNat maxLen.toNat := by
    split
    · next hlt => exact (min_eq_left (UInt16.lt_iff_toNat_lt.mp hlt).le).symm
    · next hge => exact (min_eq_right (not_lt.mp fun hlt => hge (UInt16.lt_iff_toNat_lt.mpr hlt))).symm
  unfold netRecvPacket
  simp only [if_neg h]
  rw [← hcopied]
  rfl

/-! ## Messages -/

/-- The calls that receive from the network server. -/
inductive ReceiveCall where
  | recv
  | recvfrom

/-- The `int` that the length of a buffer becomes. -/
def narrow (len : Nat) : Int := toInt32 (len % 2 ^ 32)

lemma narrow_le (len : Nat) : narrow len ≤ len := by
  unfold narrow toInt32
  split <;> omega

namespace ReceiveCall

/-- The return value and the buffer of a call. -/
def exec (c : ReceiveCall) (sockets : Table) (s : IpcState) (currentTask sockfd : Int) (len : Nat)
    (buf : Mem) : Int × Mem :=
  let r :=
    match c with
    | recv => LibNet.recv sockets s currentTask sockfd buf len
    | recvfrom => LibNet.recvfrom sockets s currentTask sockfd buf len
  (r.ret, r.buffer.getD buf)

/-- The socket is one that the call can be used on. -/
def Permitted (c : ReceiveCall) (sockets : Table) (sockfd : Int) : Prop :=
  ∃ idx, index sockfd = some idx ∧
    match c with
    | recv => (sockets idx).state = .connected
    | recvfrom => (sockets idx).type = sockDgram

lemma exec_permitted {c : ReceiveCall} {sockets : Table} {sockfd : Int}
    (hc : c.Permitted sockets sockfd) (s : IpcState) (t : Int) (len : Nat) (buf : Mem) :
    c.exec sockets s t sockfd len buf =
      ((recvMessage s t netServerPid (some buf) (narrow len)).ret,
        (recvMessage s t netServerPid (some buf) (narrow len)).buffer.getD buf) := by
  obtain ⟨idx, hidx, hperm⟩ := hc
  cases c with
  | recv =>
    simp only [exec, LibNet.recv, hidx, if_neg (not_not_intro hperm)]
    rfl
  | recvfrom =>
    simp only [exec, LibNet.recvfrom, hidx, if_neg (not_not_intro hperm)]
    rfl

lemma exec_refused {c : ReceiveCall} {sockets : Table} {sockfd : Int}
    (hc : ¬c.Permitted sockets sockfd) (s : IpcState) (t : Int) (len : Nat) (buf : Mem) :
    c.exec sockets s t sockfd len buf = (-1, buf) := by
  unfold exec LibNet.recv LibNet.recvfrom
  cases hidx : index sockfd with
  | none => cases c <;> rfl
  | some idx =>
    cases c with
    | recv =>
      have hstate : (sockets idx).state ≠ .connected := fun h => hc ⟨idx, hidx, h⟩
      simp only [if_pos hstate, Option.getD_some]
    | recvfrom =>
      have htype : (sockets idx).type ≠ sockDgram := fun h => hc ⟨idx, hidx, h⟩
      simp only [if_pos htype, Option.getD_some]

section Receive

variable {S : Set Nat} {s : IpcState} {free : List Nat} {box : Int → List Letter}
  (h : Rep S s free box) {t : Int} {a : Letter} {l : List Letter} (hb : box t = a :: l)
include h hb

lemma exec_truncates {c : ReceiveCall} {sockets : Table} {sockfd : Int}
    (hc : c.Permitted sockets sockfd) {len : Nat} (hlen : 0 < narrow len) :
    Truncates (paste a.body fun _ => 0) a.body.length (narrow len).toNat
      (c.exec sockets s t sockfd len) := by
  intro buf
  have ht := h.valid t (by simp [hb])
  have hok : Receivable t (some buf) (narrow len) := ⟨rfl, hlen, ht⟩
  obtain ⟨s', e, _⟩ := recvMessage_take h hok hb netServerPid
  rw [exec_permitted hc, e, copy_eq_paste, bytes_paste (min_le_left _ _), List.take_eq_take_min,
    min_comm]
  rfl

/-- The result of a call is the number of bytes written exactly if the message fits the buffer, or
nothing is received. -/
lemma exec_reportsWritten (c : ReceiveCall) (sockets : Table) (sockfd : Int) (len : Nat) :
    ReportsWritten len (c.exec sockets s t sockfd len) ↔
      (c.Permitted sockets sockfd → 0 < narrow len → (a.body.length : Int) ≤ narrow len) := by
  have hle := narrow_le len
  by_cases hc : c.Permitted sockets sockfd
  · by_cases hlen : 0 < narrow len
    · rw [(exec_truncates h hb hc hlen).reportsWritten_iff (by omega)]
      constructor
      · intro hfits _ _
        omega
      · intro hfits
        have := hfits hc hlen
        omega
    · apply iff_of_true
      · intro buf hpos
        have hbad : ¬Receivable t (some buf) (narrow len) := fun hok => hlen hok.2.1
        rw [exec_permitted hc, recvMessage_rejected s hbad] at hpos
        exact absurd hpos (by simp)
      · exact fun _ h0 => absurd h0 hlen
  · apply iff_of_true
    · intro buf hpos
      rw [exec_refused hc] at hpos
      exact absurd hpos (by simp)
    · exact fun h0 => absurd h0 hc

end Receive

end ReceiveCall

/-! ## The network server -/

/-- What `process_network_packets` puts into a ring are bytes of the packet. -/
lemma processNetworkPackets_stream {srv : NetServer} (h : Rings srv) (packetBuffer : Mem)
    (pkt : Packet) {i : Nat} (hi : i < Server.maxSockets) :
    ∃ k ≤ pkt.length.toNat,
      stream ((processNetworkPackets srv packetBuffer (some pkt)).sockets i) =
        stream (srv.sockets i) ++ bytes pkt.data k := by
  have hnone : ∃ k ≤ pkt.length.toNat,
      stream (srv.sockets i) = stream (srv.sockets i) ++ bytes pkt.data k :=
    ⟨0, Nat.zero_le _, (List.append_nil _).symm⟩
  unfold processNetworkPackets syscallNetRecv
  simp only
  split
  · split
    · exact hnone
    · next j hfind =>
      rcases eq_or_ne i j with rfl | hne
      · generalize hn : (if (pkt.length.toNat : Int) < 1500 then (pkt.length.toNat : Int)
          else 1500).toNat = n
        obtain ⟨_, hstream⟩ :=
          socketAddRxData_spec (h i hi) (copy pkt.data n packetBuffer) pkt.length.toNat
        -- a ring has room for less than the 1500 bytes that are copied
        have hbytes : bytes (copy pkt.data n packetBuffer)
            (min (sizeofRxBuffer - (srv.sockets i).rxCount.toNat) pkt.length.toNat) =
            bytes pkt.data
              (min (sizeofRxBuffer - (srv.sockets i).rxCount.toNat) pkt.length.toNat) := by
          refine bytes_congr fun x hx => ?_
          rw [copy_apply, if_pos]
          unfold sizeofRxBuffer at hx
          split at hn <;> omega
        rw [bytes_take, hbytes] at hstream
        rw [NetServer.setSocket_self]
        exact ⟨_, min_le_right _ _, hstream⟩
      · rw [NetServer.setSocket_of_ne _ hne]
        exact hnone
  · exact hnone

/-- The four receive functions return the length of what they took, and write as much of it as the
buffer has room for: so a positive result is the number of bytes written, and at most the capacity,
exactly if it fits. In every history of the network server all that a packet puts into the rings are
bytes of the packet. -/
theorem reported_length (n : Nat) (s₀ : IpcState) (h₀ : Initial n s₀) (ops : List IpcOp)
    (s : History) (hrun : History.run s₀ ops = some s) (srv : NetServer) (stats : NetStats)
    (currentTask : Int) (msgBuffer : Mem) (netOps : List NetOp) (hist : NetHistory)
    (hhist : NetHistory.run (.start srv stats currentTask msgBuffer) netOps = some hist) :
    (∀ d : Driver, (netReceive d).1 ≠ 0 →
      (∀ maxSize : Int,
        let call := fun buffer => ((sysNetRecv d buffer maxSize).1, (sysNetRecv d buffer maxSize).2.1)
        Truncates (received d).data (received d).length.toNat maxSize.toNat call ∧
          (ReportsWritten maxSize call ↔ (received d).length.toNat ≤ maxSize.toNat)) ∧
      ∀ maxLen : UInt16,
        let call := fun buffer =>
          ((netRecvPacket d buffer maxLen).1, (netRecvPacket d buffer maxLen).2.1)
        Truncates (received d).data (received d).length.toNat maxLen.toNat call ∧
          (ReportsWritten maxLen.toNat call ↔ (received d).length.toNat ≤ maxLen.toNat)) ∧
    (∀ t a l, s.ipc.pending t = a :: l → ∀ (c : ReceiveCall) sockets sockfd len,
      (c.Permitted sockets sockfd → 0 < narrow len →
        Truncates (paste a.body fun _ => 0) a.body.length (narrow len).toNat
          (c.exec sockets s.ipc t sockfd len)) ∧
      (ReportsWritten len (c.exec sockets s.ipc t sockfd len) ↔
        (c.Permitted sockets sockfd → 0 < narrow len → (a.body.length : Int) ≤ narrow len))) ∧
    ∀ packetBuffer (pkt : Packet), ∀ i < Server.maxSockets, ∃ k ≤ pkt.length.toNat,
      stream ((processNetworkPackets hist.world.netserv packetBuffer (some pkt)).sockets i) =
        stream (hist.world.netserv.sockets i) ++ bytes pkt.data k := by
  obtain ⟨slots, free, box, hrep, _⟩ := History.inv_of_run h₀ hrun
  refine ⟨fun d hd => ⟨fun maxSize => ?_, fun maxLen => ?_⟩, fun t a l hb c sockets sockfd len => ?_,
    fun packetBuffer pkt i hi => ?_⟩
  · have htrunc := sysNetRecv_truncates hd maxSize
    exact ⟨htrunc, htrunc.reportsWritten_iff le_rfl⟩
  · have htrunc := netRecvPacket_truncates hd maxLen
    exact ⟨htrunc, htrunc.reportsWritten_iff (by simp)⟩
  · rw [hrep.pending_eq] at hb
    exact ⟨fun hc hlen => c.exec_truncates hrep hb hc hlen,
      c.exec_reportsWritten hrep hb sockets sockfd len⟩
  · exact processNetworkPackets_stream (NetHistory.rings_of_run hhist) packetBuffer pkt hi

theorem reported_length_whole :
    ReportsWritten 1500 fun buffer =>
      ((sysNetRecv oneQueued.driver buffer 1500).1, (sysNetRecv oneQueued.driver buffer 1500).2.1) := by
  have hlength := (reported_length 2 poolState poolState_initial [] ⟨poolState, []⟩ rfl bootNet
    ⟨0, 0, 0, 0, 0, 0⟩ 4 (fun _ => 0) [] _ rfl).1
  exact ((hlength oneQueued.driver (by decide +kernel)).1 1500).2.mpr (by decide +kernel)

/-- A buffer of ten bytes gets ten bytes of the packet, and the result is 64. -/
theorem reported_length_fails :
    PoolHistory.run (bootDriver 99) [.netInterruptHandler] = some oneQueued ∧
      ¬ReportsWritten 10 fun buffer =>
        ((sysNetRecv oneQueued.driver buffer 10).1, (sysNetRecv oneQueued.driver buffer 10).2.1) := by
  have hqueued : (netReceive oneQueued.driver).1 ≠ 0 := by decide +kernel
  refine ⟨rfl, ?_⟩
  rw [(sysNetRecv_truncates hqueued 10).reportsWritten_iff le_rfl]
  decide +kernel

end Hydra.LibNet
