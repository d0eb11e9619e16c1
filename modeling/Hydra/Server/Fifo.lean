import Hydra.Server.Stream

/-!
# The receive ring of a socket

What a slot of the table buffers from the moment `allocate_socket` gives it out, under any calls of
`socket_add_rx_data` and `recv_socket_data` for it and for the other slots. A history records the
bytes that the ring of the slot had room for, and those that receives returned from it. The ring is
a bounded queue: what was returned, followed by what still waits, is what was accepted.
-/

namespace Hydra.Server
open ByteMem Hydra.LibHydra Hydra.Net

/-- A call of one of the two functions that use the rings. -/
inductive RingOp where
  | socketAddRxData (i : Nat) (data : Mem) (len : Nat)
  | recvSocketData (sockId : Int) (buffer : Mem) (maxLen : Nat)

/-- The server with the bytes that the ring of one slot accepted and those it returned. -/
structure RingHistory where
  netserv : NetServer
  accepted : List UInt8
  returned : List UInt8

namespace RingHistory

/-- The slot was just given out. -/
def start (srv : NetServer) (clientPid type : Int) : RingHistory :=
  ⟨(allocateSocket srv clientPid type).2, [], []⟩

/-- A call for the slot adds to its records, a call for another one does not. -/
def step (slot : Nat) (h : RingHistory) : RingOp → Option RingHistory
  | .socketAddRxData i data len =>
    let sock := h.netserv.sockets i
    some { h with
      netserv := h.netserv.setSocket i (Server.socketAddRxData sock data len)
      accepted := if i = slot then
          h.accepted ++ (bytes data len).take (sizeofRxBuffer - sock.rxCount.toNat)
        else h.accepted }
  | .recvSocketData sockId buffer maxLen =>
    let (received, buffer, srv) := Server.recvSocketData h.netserv sockId buffer maxLen
    some { h with
      netserv := srv
      returned := if findSocket h.netserv sockId = some slot then
          h.returned ++ bytes buffer received.toNat
        else h.returned }

/-- The run of a list of calls. -/
abbrev run (slot : Nat) (h : RingHistory) (ops : List RingOp) : Option RingHistory :=
  Run.run (step slot) h ops

/-- The ring is in order, and no byte was lost, invented or reordered. -/
structure Inv (slot : Nat) (h : RingHistory) : Prop where
  ring : RingOk (h.netserv.sockets slot)
  bytes : h.returned ++ stream (h.netserv.sockets slot) = h.accepted

lemma start_inv {srv : NetServer} {slot : Nat} (h : freeSlot srv = some slot) (clientPid type : Int) :
    (start srv clientPid type).Inv slot := by
  have hself : (start srv clientPid type).netserv.sockets slot = newSocket srv slot clientPid type := by
    unfold start
    rw [allocateSocket_some h]
    exact srv.setSocket_self slot _
  constructor
  · rw [hself]
    exact RingOk.empty rfl rfl rfl
  · rw [hself]
    rfl

end RingHistory

/-- A receive takes the oldest bytes of the socket it finds: as many as there are and as it has room
for. -/
lemma recvSocketData_spec {srv : NetServer} {sockId : Int} {i : Nat}
    (hfind : findSocket srv sockId = some i) (hok : RingOk (srv.sockets i)) (buffer : Mem)
    (maxLen : Nat) :
    ∃ (k : Nat) (buffer' : Mem) (sock : Socket), k = min (srv.sockets i).rxCount.toNat maxLen ∧
      recvSocketData srv sockId buffer maxLen = ((k : Int), buffer', srv.setSocket i sock) ∧
      RingOk sock ∧ stream sock = (stream (srv.sockets i)).drop k ∧
      bytes buffer' k = (stream (srv.sockets i)).take k := by
  have hc := hok.count_nonneg
  unfold recvSocketData
  simp only [hfind]
  by_cases h0 : (srv.sockets i).rxCount = 0
  · -- no data available
    have hself : srv.setSocket i (srv.sockets i) = srv := by
      simp [NetServer.setSocket]
    refine ⟨0, buffer, srv.sockets i, by simp [h0], ?_, hok, rfl, rfl⟩
    rw [if_pos h0, hself]
    rfl
  · have hcopied : (if (srv.sockets i).rxCount < (maxLen : Int) then (srv.sockets i).rxCount
        else (maxLen : Int)) = (min (srv.sockets i).rxCount.toNat maxLen : Nat) := by
      split <;> omega
    obtain ⟨hok', hrest, hbytes, _⟩ :=
      drain_spec (min (srv.sockets i).rxCount.toNat maxLen) 0 hok (by omega) buffer
    rw [shift_zero] at hbytes
    rw [if_neg h0, hcopied]
    exact ⟨_, _, _, rfl, rfl, hok', hrest, hbytes⟩

lemma recvSocketData_other {srv : NetServer} {sockId : Int} {j : Nat}
    (hfind : findSocket srv sockId ≠ some j) (buffer : Mem) (maxLen : Int) :
    (recvSocketData srv sockId buffer maxLen).2.2.sockets j = srv.sockets j := by
  unfold recvSocketData
  cases h : findSocket srv sockId with
  | none => rfl
  | some i =>
    have hne : j ≠ i := fun e => hfind (e ▸ h)
    simp only
    split
    · rfl
    · exact srv.setSocket_of_ne hne _

namespace RingHistory

variable {slot : Nat}

lemma step_inv (h : RingHistory) (op : RingOp) (hi : h.Inv slot) :
    ∃ h', step slot h op = some h' ∧ h'.Inv slot := by
  obtain ⟨hring, hbytes⟩ := hi
  cases op with
  | socketAddRxData i data len =>
    refine ⟨_, rfl, ?_⟩
    rcases eq_or_ne i slot with rfl | hne
    · obtain ⟨hok, hstream⟩ := socketAddRxData_spec hring data len
      constructor
      · simp only [NetServer.setSocket_self]
        exact hok
      · simp only [NetServer.setSocket_self, if_true]
        rw [hstream, ← List.append_assoc, hbytes]
    · constructor
      · simp only [NetServer.setSocket_of_ne _ hne.symm]
        exact hring
      · simp only [NetServer.setSocket_of_ne _ hne.symm, if_neg hne]
        exact hbytes
  | recvSocketData sockId buffer maxLen =>
    unfold step
    by_cases hfind : findSocket h.netserv sockId = some slot
    · obtain ⟨k, buffer', sock, _, e, hok, hrest, htaken⟩ :=
        recvSocketData_spec hfind hring buffer maxLen
      simp only [e, if_pos hfind, Int.toNat_natCast]
      refine ⟨_, rfl, ?_, ?_⟩
      · simp only [NetServer.setSocket_self]
        exact hok
      · simp only [NetServer.setSocket_self]
        rw [hrest, htaken, List.append_assoc, List.take_append_drop, hbytes]
    · have hother := recvSocketData_other hfind buffer maxLen
      simp only [if_neg hfind]
      refine ⟨_, rfl, ?_, ?_⟩
      · simp only [hother]
        exact hring
      · simp only [hother]
        exact hbytes

end RingHistory

/-- In every history of a slot since it was given out the counts and indices of its ring fit
together; what receives returned, followed by what waits, is what additions put in; an addition puts
in the first bytes, as many as there is room for; and a receive returns the oldest bytes, as many as
there are and as it has room for. -/
theorem ring_fifo (srv : NetServer) (clientPid type : Int) (slot : Nat)
    (hfree : freeSlot srv = some slot) (ops : List RingOp) (h : RingHistory)
    (hrun : RingHistory.run slot (.start srv clientPid type) ops = some h) :
    let sock := h.netserv.sockets slot
    (0 ≤ sock.rxCount ∧ sock.rxCount ≤ 1024) ∧ (0 ≤ sock.rxHead ∧ sock.rxHead < 1024) ∧
      (0 ≤ sock.rxTail ∧ sock.rxTail < 1024) ∧
      sock.rxHead = (sock.rxTail + sock.rxCount) % 1024 ∧
      h.returned ++ stream sock = h.accepted ∧
      (∀ data (len : Nat),
        (socketAddRxData sock data len).rxCount =
          sock.rxCount + min (len : Int) (1024 - sock.rxCount) ∧
        stream (socketAddRxData sock data len) =
          stream sock ++ bytes data (min len (1024 - sock.rxCount.toNat))) ∧
      ∀ sockId buffer (maxLen : Nat), findSocket h.netserv sockId = some slot →
        let result := recvSocketData h.netserv sockId buffer maxLen
        result.1 = min sock.rxCount (maxLen : Int) ∧
        bytes result.2.1 result.1.toNat = (stream sock).take result.1.toNat := by
  obtain ⟨hring, hbytes⟩ :=
    Run.inv_of_run RingHistory.step_inv hrun (RingHistory.start_inv hfree clientPid type)
  have hhead := hring.head
  have hcount := hring.count_le
  unfold sizeofRxBuffer at hhead hcount
  refine ⟨⟨hring.count_nonneg, hcount⟩, by omega, ⟨hring.tail_nonneg, hring.tail_lt⟩, hhead, hbytes,
    fun data len => ?_, fun sockId buffer maxLen hfind => ?_⟩
  · obtain ⟨hok, hstream⟩ := socketAddRxData_spec hring data len
    rw [bytes_take, min_comm] at hstream
    refine ⟨?_, hstream⟩
    have hlen := congrArg List.length hstream
    rw [List.length_append, length_stream, length_stream, length_bytes] at hlen
    have hc := hring.count_nonneg
    have hc' := hok.count_nonneg
    unfold sizeofRxBuffer at hlen
    omega
  · obtain ⟨k, buffer', sock, hk, e, _, _, hbytes'⟩ := recvSocketData_spec hfind hring buffer maxLen
    have hc := hring.count_nonneg
    rw [e]
    exact ⟨by dsimp only; omega, hbytes'⟩

/-- A server whose first slot is free, with the bytes of its last owner in the ring. -/
def leftBehind : NetServer :=
  startedNet.netserv.setSocket 0
    { startedNet.netserv.sockets 0 with rxBuffer := fun _ => 9, rxHead := 5, rxCount := 5 }

/-- Ten bytes come for the new owner, and four are taken. -/
def tenAndFour : List RingOp :=
  [.socketAddRxData 0 (fun i => UInt8.ofNat i) 10, .recvSocketData 1 (fun _ => 0) 4]

/-- Six bytes are left, and the next receive gets them. -/
theorem ring_fifo_ten :
    ∃ h, RingHistory.run 0 (.start leftBehind 2 sockTcp) tenAndFour = some h ∧
      h.returned = [0, 1, 2, 3] ∧ h.accepted = [0, 1, 2, 3, 4, 5, 6, 7, 8, 9] ∧
      h.returned ++ stream (h.netserv.sockets 0) = h.accepted ∧
      (recvSocketData h.netserv 1 (fun _ => 0) 100).1 = 6 ∧
      bytes (recvSocketData h.netserv 1 (fun _ => 0) 100).2.1 6 = [4, 5, 6, 7, 8, 9] := by
  have hfree : freeSlot leftBehind = some 0 := by decide
  have hfacts : (RingHistory.run 0 (.start leftBehind 2 sockTcp) tenAndFour).map (fun h =>
      (h.returned, h.accepted, findSocket h.netserv 1, (h.netserv.sockets 0).rxCount)) =
      some ([0, 1, 2, 3], [0, 1, 2, 3, 4, 5, 6, 7, 8, 9], some 0, 6) := by
    decide +kernel
  obtain ⟨h, hrun, hfacts⟩ := Option.map_eq_some_iff.mp hfacts
  simp only [Prod.mk.injEq] at hfacts
  obtain ⟨hreturned, haccepted, hfind, hcount⟩ := hfacts
  obtain ⟨_, _, _, _, hstream, _, hrecv⟩ :=
    ring_fifo leftBehind 2 sockTcp 0 hfree tenAndFour h hrun
  obtain ⟨hret, hbytes⟩ := hrecv 1 (fun _ => 0) 100 hfind
  have hsix : (recvSocketData h.netserv 1 (fun _ => 0) 100).1 = 6 := by
    rw [hcount] at hret
    exact hret
  have hrest : stream (h.netserv.sockets 0) = [4, 5, 6, 7, 8, 9] := by
    rw [hreturned, haccepted] at hstream
    exact (List.append_right_inj [0, 1, 2, 3]).mp hstream
  have hbytes : bytes (recvSocketData h.netserv 1 (fun _ => 0) 100).2.1
      (recvSocketData h.netserv 1 (fun _ => 0) 100).1.toNat =
        (stream (h.netserv.sockets 0)).take (recvSocketData h.netserv 1 (fun _ => 0) 100).1.toNat :=
    hbytes
  rw [hsix, hrest] at hbytes
  exact ⟨h, hrun, hreturned, haccepted, hstream, hsix, hbytes⟩

end Hydra.Server
