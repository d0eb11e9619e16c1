import Hydra.Server.Net
import Hydra.Lib.Run

/-!
# The socket table

What one message can do to the network server: `NetEffect` lists the outcomes of
`net_handle_client_message`, whatever the bytes and the size of the message, and every property of
the server is a case analysis over them. Apart from an allocation, an outcome that changes a socket
changes the one that `find_socket` gives for the second word of the message.

A history of the server is any sequence of messages and packets after `net_server_init`, with a
record of the socket ids that were handed out and of those that were closed. `socket_table` is the
invariant of the table: ids are fresh, each belongs to one slot, and a closed one never comes back.
-/

namespace Hydra.Server
open ByteMem Hydra.LibHydra Hydra.Net

/-! ## Slots -/

/-- Write a slot of the server's table. -/
def NetWorld.setSocket (w : NetWorld) (i : Nat) (sock : Socket) : NetWorld :=
  { w with netserv := w.netserv.setSocket i sock }

@[simp] lemma NetServer.setSocket_self (srv : NetServer) (i : Nat) (sock : Socket) :
    (srv.setSocket i sock).sockets i = sock := by
  simp [setSocket]

lemma NetServer.setSocket_of_ne (srv : NetServer) {i j : Nat} (h : j ≠ i) (sock : Socket) :
    (srv.setSocket i sock).sockets j = srv.sockets j := by
  simp [setSocket, h]

lemma NetWorld.setSocket_eq_self (w : NetWorld) (i : Nat) :
    w.setSocket i (w.netserv.sockets i) = w := by
  simp [setSocket, NetServer.setSocket]

lemma findSocket_some {srv : NetServer} {sockId : Int} {i : Nat} (h : findSocket srv sockId = some i) :
    i < maxSockets ∧ (srv.sockets i).inUse = true ∧ (srv.sockets i).sockId = sockId := by
  have hmem := List.mem_of_find?_eq_some h
  have hfound := List.find?_some h
  simp only [decide_eq_true_eq] at hfound
  exact ⟨List.mem_range.mp hmem, hfound⟩

lemma findSocket_eq_none {srv : NetServer} {sockId : Int} : findSocket srv sockId = none ↔
    ∀ i < maxSockets, (srv.sockets i).inUse = true → (srv.sockets i).sockId ≠ sockId := by
  unfold findSocket
  rw [List.find?_eq_none]
  simp

/-- The slot that `allocate_socket` takes. -/
def freeSlot (srv : NetServer) : Option Nat :=
  (List.range maxSockets).find? fun i => !(srv.sockets i).inUse

lemma freeSlot_some {srv : NetServer} {i : Nat} (h : freeSlot srv = some i) :
    i < maxSockets ∧ (srv.sockets i).inUse = false := by
  have hmem := List.mem_of_find?_eq_some h
  have hfound := List.find?_some h
  exact ⟨List.mem_range.mp hmem, by simpa using hfound⟩

/-- The socket that `allocate_socket` makes of a slot. -/
def newSocket (srv : NetServer) (i : Nat) (clientPid type : Int) : Socket :=
  { srv.sockets i with
    sockId := srv.nextSocketId
    ownerPid := clientPid
    type := type
    state := .closed
    inUse := true
    rxHead := 0
    rxTail := 0
    rxCount := 0 }

lemma allocateSocket_none {srv : NetServer} (h : freeSlot srv = none) (clientPid type : Int) :
    allocateSocket srv clientPid type = (-1, srv) := by
  unfold freeSlot at h
  rw [allocateSocket, h]

lemma allocateSocket_some {srv : NetServer} {i : Nat} (h : freeSlot srv = some i)
    (clientPid type : Int) :
    allocateSocket srv clientPid type = (srv.nextSocketId,
      { srv.setSocket i (newSocket srv i clientPid type) with
        nextSocketId := srv.nextSocketId + 1 }) := by
  unfold freeSlot at h
  rw [allocateSocket, h]
  rfl

/-- The copy loop moves the read index and lowers the count, and leaves the rest of the socket. -/
lemma drain_keeps (n k : Nat) (sock : Socket) (buf : Mem) :
    ∃ tail count, (drain n k sock buf).1 = { sock with rxTail := tail, rxCount := count } := by
  induction n generalizing k sock buf with
  | zero => exact ⟨sock.rxTail, sock.rxCount, rfl⟩
  | succ n ih =>
    obtain ⟨tail, count, e⟩ := ih (k + 1)
      { sock with
        rxTail := (sock.rxTail + 1) % sizeofRxBuffer
        rxCount := sock.rxCount - 1 } (Function.update buf k (sock.rxBuffer sock.rxTail.toNat))
    exact ⟨tail, count, e⟩

/-- The loop moves the write index and raises the count, and leaves the rest of the socket but for
the buffer. -/
lemma addRxData_keeps (src : Mem) (n k : Nat) (sock : Socket) :
    ∃ buf head count, addRxData src n k sock =
      { sock with rxBuffer := buf, rxHead := head, rxCount := count } := by
  induction n generalizing k sock with
  | zero => exact ⟨sock.rxBuffer, sock.rxHead, sock.rxCount, rfl⟩
  | succ n ih =>
    unfold addRxData
    split
    · obtain ⟨buf, head, count, e⟩ := ih (k + 1)
        { sock with
          rxBuffer := Function.update sock.rxBuffer sock.rxHead.toNat (src k)
          rxHead := (sock.rxHead + 1) % sizeofRxBuffer
          rxCount := sock.rxCount + 1 }
      exact ⟨buf, head, count, e⟩
    · exact ⟨sock.rxBuffer, sock.rxHead, sock.rxCount, rfl⟩

/-- A packet is added to the receive ring of a connected socket, or lost. -/
lemma processNetworkPackets_cases (srv : NetServer) (packetBuffer : Mem) (pkt : Option Packet) :
    processNetworkPackets srv packetBuffer pkt = srv ∨
    ∃ i < maxSockets, ∃ data len,
      (srv.sockets i).inUse = true ∧ (srv.sockets i).state = .connected ∧
      processNetworkPackets srv packetBuffer pkt =
        srv.setSocket i (socketAddRxData (srv.sockets i) data len) := by
  unfold processNetworkPackets
  simp only
  split
  · split
    · exact .inl rfl
    · next i hfind =>
      right
      have hmem := List.mem_of_find?_eq_some hfind
      have hconn := List.find?_some hfind
      simp only [decide_eq_true_eq] at hconn
      exact ⟨i, List.mem_range.mp hmem, _, _, hconn.1, hconn.2, rfl⟩
  · exact .inl rfl

/-! ## One message -/

/-- The id that a message hands out, if it makes a new socket. -/
def issuedId (w : NetWorld) (msgData : Mem) (msgSize : Int) : Option Int :=
  if 8 ≤ msgSize ∧ arg msgData 0 = 1 then
    (freeSlot w.netserv).map fun _ => w.netserv.nextSocketId
  else none

/-- The id of the socket that a message closes, if there is one. -/
def closedId (w : NetWorld) (msgData : Mem) (msgSize : Int) : Option Int :=
  if 8 ≤ msgSize ∧ arg msgData 0 = 7 ∧ (findSocket w.netserv (arg msgData 1)).isSome then
    some (arg msgData 1)
  else none

lemma issuedId_of_ne {msgData : Mem} (h : arg msgData 0 ≠ 1) (w : NetWorld) (msgSize : Int) :
    issuedId w msgData msgSize = none := if_neg fun h' => h h'.2

lemma issuedId_short {msgSize : Int} (h : msgSize < 8) (w : NetWorld) (msgData : Mem) :
    issuedId w msgData msgSize = none := if_neg fun h' => by omega

lemma closedId_of_ne {msgData : Mem} (h : arg msgData 0 ≠ 7) (w : NetWorld) (msgSize : Int) :
    closedId w msgData msgSize = none := if_neg fun h' => h h'.2.1

lemma closedId_short {msgSize : Int} (h : msgSize < 8) (w : NetWorld) (msgData : Mem) :
    closedId w msgData msgSize = none := if_neg fun h' => by omega

/-- The outcomes of a message: the reply, the server afterwards, the id handed out and the id
closed. -/
inductive NetEffect (w : NetWorld) (senderPid : Int) (msg : Mem) :
    Option Reply → NetWorld → Option Int → Option Int → Prop
  | ignored : NetEffect w senderPid msg none w none none
  | answered (v) : NetEffect w senderPid msg (some (intReply v)) w none none
  | allocated (i) (h : freeSlot w.netserv = some i) :
    NetEffect w senderPid msg (some (intReply w.netserv.nextSocketId))
      { w with netserv :=
        { w.netserv.setSocket i (newSocket w.netserv i senderPid (arg msg 1)) with
          nextSocketId := w.netserv.nextSocketId + 1 } }
      (some w.netserv.nextSocketId) none
  | bound (i ip port) (h : findSocket w.netserv (arg msg 1) = some i) :
    NetEffect w senderPid msg (some (intReply 0))
      (w.setSocket i
        { w.netserv.sockets i with localIp := ip, localPort := port, state := .bound })
      none none
  | listening (i) (h : findSocket w.netserv (arg msg 1) = some i)
      (htcp : (w.netserv.sockets i).type = sockTcp) :
    NetEffect w senderPid msg (some (intReply 0))
      (w.setSocket i { w.netserv.sockets i with state := .listening }) none none
  | connected (i ip port) (h : findSocket w.netserv (arg msg 1) = some i)
      (htcp : (w.netserv.sockets i).type = sockTcp) :
    NetEffect w senderPid msg (some (intReply 0))
      (w.setSocket i
        { w.netserv.sockets i with remoteIp := ip, remotePort := port, state := .connected })
      none none
  | handed (i v stats) (h : findSocket w.netserv (arg msg 1) = some i)
      (hconn : (w.netserv.sockets i).state = .connected) :
    NetEffect w senderPid msg (some (intReply v))
      { w with stats := stats, handed := w.handed ++ [(shift msg 12, arg msg 2)] } none none
  | drained (i) (k : Nat) (h : findSocket w.netserv (arg msg 1) = some i) (hk : 0 < k)
      (hcount : k ≤ (w.netserv.sockets i).rxCount) (hsize : k ≤ sizeofRxBuffer) :
    NetEffect w senderPid msg (some ((drain k 0 (w.netserv.sockets i) fun _ => 0).2, k))
      (w.setSocket i (drain k 0 (w.netserv.sockets i) fun _ => 0).1) none none
  | closed (i) (h : findSocket w.netserv (arg msg 1) = some i) :
    NetEffect w senderPid msg (some (intReply 0))
      (w.setSocket i { w.netserv.sockets i with inUse := false, state := .closed })
      none (some (arg msg 1))

section Handler

variable (w : NetWorld) (senderPid : Int) (msg : Mem)

lemma socketCommand_effect :
    NetEffect w senderPid msg
      (some (intReply (allocateSocket w.netserv senderPid (arg msg 1)).1))
      { w with netserv := (allocateSocket w.netserv senderPid (arg msg 1)).2 }
      ((freeSlot w.netserv).map fun _ => w.netserv.nextSocketId) none := by
  cases h : freeSlot w.netserv with
  | none =>
    rw [allocateSocket_none h]
    exact .answered (-1)
  | some i =>
    rw [allocateSocket_some h]
    exact .allocated i h

lemma bindCommand_effect (ip : UInt32) (port : UInt16) :
    NetEffect w senderPid msg (some (intReply (bindSocket w.netserv (arg msg 1) ip port).1))
      { w with netserv := (bindSocket w.netserv (arg msg 1) ip port).2 } none none := by
  unfold bindSocket
  cases h : findSocket w.netserv (arg msg 1) with
  | none => exact .answered (-1)
  | some i => exact .bound i ip port h

lemma listenCommand_effect (backlog : Int) :
    NetEffect w senderPid msg (some (intReply (listenSocket w.netserv (arg msg 1) backlog).1))
      { w with netserv := (listenSocket w.netserv (arg msg 1) backlog).2 } none none := by
  unfold listenSocket
  cases h : findSocket w.netserv (arg msg 1) with
  | none => exact .answered (-1)
  | some i =>
    by_cases htcp : (w.netserv.sockets i).type = sockTcp
    · simp only [if_neg (not_not_intro htcp)]
      exact .listening i h htcp
    · simp only [if_pos htcp]
      exact .answered (-1)

lemma connectCommand_effect (ip : UInt32) (port : UInt16) :
    NetEffect w senderPid msg (some (intReply (connectSocket w.netserv (arg msg 1) ip port).1))
      { w with netserv := (connectSocket w.netserv (arg msg 1) ip port).2 } none none := by
  unfold connectSocket
  cases h : findSocket w.netserv (arg msg 1) with
  | none => exact .answered (-1)
  | some i =>
    by_cases htcp : (w.netserv.sockets i).type = sockTcp
    · simp only [if_neg (not_not_intro htcp)]
      exact .connected i ip port h htcp
    · simp only [if_pos htcp]
      exact .answered (-1)

lemma sendCommand_effect :
    NetEffect w senderPid msg
      (some (intReply (sendSocketData w (arg msg 1) (shift msg 12) (arg msg 2)).1))
      (sendSocketData w (arg msg 1) (shift msg 12) (arg msg 2)).2 none none := by
  unfold sendSocketData
  cases h : findSocket w.netserv (arg msg 1) with
  | none => exact .answered (-1)
  | some i =>
    by_cases hconn : (w.netserv.sockets i).state = .connected
    · simp only [if_neg (not_not_intro hconn)]
      exact .handed i _ _ h hconn
    · simp only [if_pos hconn]
      exact .answered (-1)

/-- The length that the command `recv` asks for: negative and too large values stand for the whole
ring. -/
def recvLimit (msg : Mem) : Nat :=
  if 0 ≤ arg msg 2 ∧ arg msg 2 < sizeofRxBuffer then (arg msg 2).toNat else sizeofRxBuffer

lemma recvLimit_eq : (if toSize (arg msg 2) < sizeofRxBuffer then arg msg 2 else sizeofRxBuffer) =
    (recvLimit msg : Int) := by
  obtain ⟨hlo, hhi⟩ := arg_range msg 2
  unfold toSize recvLimit sizeofRxBuffer
  split <;> split <;> omega

lemma recvLimit_le : recvLimit msg ≤ sizeofRxBuffer := by
  unfold recvLimit sizeofRxBuffer
  split <;> omega

/-- The command `recv` takes nothing and answers with a number, or takes as many bytes as there are
and as it asks for, and answers with them. -/
lemma netRecvCommand_cases :
    (∃ v, netRecvCommand w msg = (some (intReply v), w) ∧
      ∀ i, findSocket w.netserv (arg msg 1) = some i →
        (w.netserv.sockets i).rxCount ≤ 0 ∨ recvLimit msg = 0) ∨
    ∃ (i k : Nat), findSocket w.netserv (arg msg 1) = some i ∧ 0 < k ∧
      k = min (w.netserv.sockets i).rxCount.toNat (recvLimit msg) ∧
      netRecvCommand w msg = (some ((drain k 0 (w.netserv.sockets i) fun _ => 0).2, (k : Int)),
        w.setSocket i (drain k 0 (w.netserv.sockets i) fun _ => 0).1) := by
  unfold netRecvCommand recvSocketData
  simp only [recvLimit_eq]
  cases h : findSocket w.netserv (arg msg 1) with
  | none => exact .inl ⟨-1, rfl, nofun⟩
  | some i =>
    simp only
    by_cases h0 : (w.netserv.sockets i).rxCount = 0
    · left
      rw [if_pos h0]
      refine ⟨0, rfl, ?_⟩
      rintro _ ⟨⟩
      exact .inl h0.le
    · rw [if_neg h0]
      simp only
      generalize hc : (if (w.netserv.sockets i).rxCount < (recvLimit msg : Int) then
        (w.netserv.sockets i).rxCount else (recvLimit msg : Int)) = c
      by_cases hpos : 0 < c
      · right
        obtain ⟨k, rfl⟩ : ∃ k : Nat, c = k := ⟨c.toNat, by omega⟩
        refine ⟨i, k, rfl, by exact_mod_cast hpos, by split at hc <;> omega, ?_⟩
        rw [if_pos hpos]
        rfl
      · -- nothing is copied
        left
        have hzero : c.toNat = 0 := by omega
        have hself := w.setSocket_eq_self i
        unfold NetWorld.setSocket at hself
        refine ⟨c, ?_, ?_⟩
        · rw [if_neg hpos, hzero]
          simp only [drain, hself]
        · rintro _ ⟨⟩
          split at hc <;> omega

lemma recvCommand_effect :
    NetEffect w senderPid msg (netRecvCommand w msg).1 (netRecvCommand w msg).2 none none := by
  rcases netRecvCommand_cases w msg with ⟨v, e, _⟩ | ⟨i, k, hfind, hpos, hk, e⟩
  · rw [e]
    exact .answered v
  · have hle := recvLimit_le msg
    rw [e]
    exact .drained i k hfind hpos (by omega) (by omega)

lemma closeCommand_effect :
    NetEffect w senderPid msg (some (intReply 0))
      { w with netserv := closeSocket w.netserv (arg msg 1) } none
      (if (findSocket w.netserv (arg msg 1)).isSome then some (arg msg 1) else none) := by
  unfold closeSocket
  cases h : findSocket w.netserv (arg msg 1) with
  | none => exact .answered 0
  | some i => exact .closed i h

/-- Every message has one of the outcomes. -/
theorem netHandle_effect (size : Int) :
    NetEffect w senderPid msg (netHandleClientMessage w senderPid msg size).1
      (netHandleClientMessage w senderPid msg size).2 (issuedId w msg size)
      (closedId w msg size) := by
  have hrefused : NetEffect w senderPid msg (some (intReply (-1))) w none none := .answered (-1)
  unfold netHandleClientMessage
  by_cases hshort : size < 4
  · rw [if_pos hshort, issuedId_short (by omega), closedId_short (by omega)]
    exact .ignored
  · rw [if_neg hshort]
    split
    · next hcmd =>
      rw [closedId_of_ne (by omega)]
      split
      · next hsize =>
        unfold issuedId
        rw [if_pos ⟨hsize, hcmd⟩]
        exact socketCommand_effect w senderPid msg
      · rw [issuedId_short (by omega)]
        exact hrefused
    · next hcmd =>
      rw [issuedId_of_ne (by omega), closedId_of_ne (by omega)]
      split
      · exact bindCommand_effect w senderPid msg _ _
      · exact hrefused
    · next hcmd =>
      rw [issuedId_of_ne (by omega), closedId_of_ne (by omega)]
      split
      · exact listenCommand_effect w senderPid msg _
      · exact hrefused
    · next hcmd =>
      rw [issuedId_of_ne (by omega), closedId_of_ne (by omega)]
      split
      · exact connectCommand_effect w senderPid msg _ _
      · exact hrefused
    · next hcmd =>
      rw [issuedId_of_ne (by omega), closedId_of_ne (by omega)]
      split
      · exact sendCommand_effect w senderPid msg
      · exact hrefused
    · next hcmd =>
      rw [issuedId_of_ne (by omega), closedId_of_ne (by omega)]
      split
      · exact recvCommand_effect w senderPid msg
      · exact hrefused
    · next hcmd =>
      rw [issuedId_of_ne (by omega)]
      split
      · next hsize =>
        unfold closedId
        simp only [hsize, hcmd, true_and]
        exact closeCommand_effect w senderPid msg
      · rw [closedId_short (by omega)]
        exact hrefused
    · next h1 _ _ _ _ _ h7 =>
      rw [issuedId_of_ne h1, closedId_of_ne h7]
      exact hrefused

end Handler

/-! ## Histories -/

/-- The server with the ids it has handed out, each with the task whose message it was, and the ids
that have been closed. -/
structure NetHistory where
  world : NetWorld
  msgBuffer : Mem
  created : List (Int × Int)
  closed : List Int

/-- What the server processes: a message that a task sent, or what the network has for it. -/
inductive NetOp where
  | message (sender : Int) (body : List UInt8)
  | packet (packetBuffer : Mem) (pkt : Option Packet)

namespace NetHistory

/-- The server after `net_server_init`, whatever the static variables and the buffer held before. -/
def start (srv : NetServer) (stats : NetStats) (currentTask : Int) (msgBuffer : Mem) :
    NetHistory where
  world := { netserv := netServerInit srv currentTask, stats := stats, handed := [] }
  msgBuffer := msgBuffer
  created := []
  closed := []

/-- Handle a message as the loop of `net_server_main` does: its first word names the sender, whoever
sent it. -/
def message (h : NetHistory) (sender : Int) (body : List UInt8) : NetHistory :=
  let buf := deliver h.msgBuffer body
  { world := (netHandleClientMessage h.world (arg buf 0) (shift buf 4) (body.length - 4)).2
    msgBuffer := buf
    created := h.created ++
      ((issuedId h.world (shift buf 4) (body.length - 4)).map fun id => (id, sender)).toList
    closed := h.closed ++ (closedId h.world (shift buf 4) (body.length - 4)).toList }

def packet (h : NetHistory) (packetBuffer : Mem) (pkt : Option Packet) : NetHistory :=
  { h with world.netserv := processNetworkPackets h.world.netserv packetBuffer pkt }

def step (h : NetHistory) : NetOp → Option NetHistory
  | .message sender body => some (h.message sender body)
  | .packet packetBuffer pkt => some (h.packet packetBuffer pkt)

/-- The run of a list of operations. -/
abbrev run (h : NetHistory) (ops : List NetOp) : Option NetHistory := Run.run step h ops

end NetHistory

/-! ## The invariant of the table -/

/-- A slot of the table: its id is one of those handed out, it is closed when it is not in use, and
only TCP sockets in use listen or are connected. -/
structure SlotOk (nextId : Int) (sock : Socket) : Prop where
  id : sock.inUse = true → 0 < sock.sockId ∧ sock.sockId < nextId
  closed : sock.inUse = false → sock.state = .closed
  tcp : sock.state = .listening ∨ sock.state = .connected →
    sock.inUse = true ∧ sock.type = sockTcp

/-- All slots are in order, and no two of those in use have the same id. -/
structure TableInv (srv : NetServer) : Prop where
  slot : ∀ i < maxSockets, SlotOk srv.nextSocketId (srv.sockets i)
  distinct : ∀ i < maxSockets, ∀ j < maxSockets, (srv.sockets i).inUse = true →
    (srv.sockets j).inUse = true → (srv.sockets i).sockId = (srv.sockets j).sockId → i = j

lemma SlotOk.mono {n m : Int} {sock : Socket} (h : SlotOk n sock) (hle : n ≤ m) : SlotOk m sock :=
  ⟨fun hu => ⟨(h.id hu).1, (h.id hu).2.trans_le hle⟩, h.closed, h.tcp⟩

/-- A socket in use may be changed as long as it keeps its id. -/
lemma SlotOk.change {n : Int} {old sock : Socket} (h : SlotOk n old) (hold : old.inUse = true)
    (huse : sock.inUse = true) (hid : sock.sockId = old.sockId)
    (htcp : sock.state = .listening ∨ sock.state = .connected → sock.type = sockTcp) :
    SlotOk n sock := by
  refine ⟨fun _ => hid ▸ h.id hold, fun h0 => ?_, fun hs => ⟨huse, htcp hs⟩⟩
  rw [huse] at h0
  cases h0

namespace TableInv

variable {srv : NetServer}

lemma init (srv : NetServer) (currentTask : Int) : TableInv (netServerInit srv currentTask) := by
  have hslot : ∀ i < maxSockets, (((netServerInit srv currentTask).sockets i).inUse = false) ∧
      ((netServerInit srv currentTask).sockets i).state = .closed := by
    intro i hi
    simp [netServerInit, hi]
  constructor
  · intro i hi
    obtain ⟨hu, hs⟩ := hslot i hi
    refine ⟨fun h => ?_, fun _ => hs, fun h => ?_⟩
    · rw [hu] at h
      cases h
    · rw [hs] at h
      rcases h with h | h <;> cases h
  · intro i hi j _ h
    rw [(hslot i hi).1] at h
    cases h

/-- A slot may be changed as long as it keeps its id and does not come into use. -/
lemma setSocket (h : TableInv srv) {i : Nat} {sock : Socket}
    (hok : SlotOk srv.nextSocketId sock)
    (hkeeps : sock.inUse = true → (srv.sockets i).inUse = true ∧ sock.sockId = (srv.sockets i).sockId) :
    TableInv (srv.setSocket i sock) := by
  have huse : ∀ j, ((srv.setSocket i sock).sockets j).inUse = true → (srv.sockets j).inUse = true ∧
      ((srv.setSocket i sock).sockets j).sockId = (srv.sockets j).sockId := by
    intro j hj
    rcases eq_or_ne j i with rfl | hne
    · rw [NetServer.setSocket_self] at hj ⊢
      exact hkeeps hj
    · rw [NetServer.setSocket_of_ne srv hne] at hj ⊢
      exact ⟨hj, rfl⟩
  constructor
  · intro j hj
    rcases eq_or_ne j i with rfl | hne
    · rw [NetServer.setSocket_self]
      exact hok
    · rw [NetServer.setSocket_of_ne srv hne]
      exact h.slot j hj
  · intro j hj k hk hju hku e
    obtain ⟨hju', ej⟩ := huse j hju
    obtain ⟨hku', ek⟩ := huse k hku
    rw [ej, ek] at e
    exact h.distinct j hj k hk hju' hku' e

/-- A new socket gets an id that no slot has. -/
lemma allocate (h : TableInv srv) (hpos : 0 < srv.nextSocketId) {i : Nat}
    (hfree : freeSlot srv = some i) (clientPid type : Int) :
    TableInv { srv.setSocket i (newSocket srv i clientPid type) with
      nextSocketId := srv.nextSocketId + 1 } := by
  have hself : (srv.setSocket i (newSocket srv i clientPid type)).sockets i =
      newSocket srv i clientPid type := srv.setSocket_self i _
  have hother : ∀ j ≠ i, (srv.setSocket i (newSocket srv i clientPid type)).sockets j =
      srv.sockets j := fun j hj => srv.setSocket_of_ne hj _
  have hfresh : ∀ j < maxSockets, j ≠ i → (srv.sockets j).inUse = true →
      (srv.sockets j).sockId ≠ srv.nextSocketId := fun j hj _ hju =>
    ((h.slot j hj).id hju).2.ne
  constructor
  · intro j hj
    rcases eq_or_ne j i with rfl | hne
    · show SlotOk (srv.nextSocketId + 1) ((srv.setSocket j _).sockets j)
      rw [hself]
      refine ⟨fun _ => ⟨hpos, Int.lt_succ _⟩, fun hu => ?_, fun hs => ?_⟩
      · cases hu
      · rcases hs with hs | hs <;> cases hs
    · show SlotOk (srv.nextSocketId + 1) ((srv.setSocket i _).sockets j)
      rw [hother j hne]
      exact (h.slot j hj).mono (Int.le_add_one le_rfl)
  · intro j hj k hk hju hku e
    simp only at hju hku e
    rcases eq_or_ne j i with rfl | hji
    · rcases eq_or_ne k j with rfl | hki
      · rfl
      · rw [hother k hki] at hku e
        rw [hself] at e
        exact absurd e.symm (hfresh k hk hki hku)
    · rw [hother j hji] at hju e
      rcases eq_or_ne k i with rfl | hki
      · rw [hself] at e
        exact absurd e (hfresh j hj hji hju)
      · rw [hother k hki] at hku e
        exact h.distinct j hj k hk hju hku e

end TableInv

/-! ## Every history -/

lemma findSocket_setSocket_none {srv : NetServer} {sockId : Int} (h : findSocket srv sockId = none)
    {i : Nat} {sock : Socket} (hkeeps : sock.inUse = true → sock.sockId = sockId →
      (srv.sockets i).inUse = true ∧ (srv.sockets i).sockId = sockId) :
    findSocket (srv.setSocket i sock) sockId = none := by
  rw [findSocket_eq_none] at h ⊢
  intro j hj hju e
  rcases eq_or_ne j i with rfl | hne
  · rw [NetServer.setSocket_self] at hju e
    obtain ⟨hu, e'⟩ := hkeeps hju e
    exact h j hj hu e'
  · rw [NetServer.setSocket_of_ne srv hne] at hju e
    exact h j hj hju e

namespace NetHistory

/-- The table is in order, the ids handed out are those the counter has passed, every socket has one
of them, and no slot has a closed one. -/
structure Inv (h : NetHistory) : Prop where
  table : TableInv h.world.netserv
  next : h.world.netserv.nextSocketId = 1 + h.created.length
  created : ∀ x ∈ h.created, x.1 < h.world.netserv.nextSocketId
  nodup : (h.created.map Prod.fst).Nodup
  known : ∀ i < maxSockets, (h.world.netserv.sockets i).inUse = true →
    ∃ p, ((h.world.netserv.sockets i).sockId, p) ∈ h.created
  closed : ∀ id ∈ h.closed, id < h.world.netserv.nextSocketId ∧ findSocket h.world.netserv id = none

section Effects

variable {w : NetWorld} {buf : Mem} {created : List (Int × Int)} {gone : List Int}

lemma Inv.setSocket (h : Inv ⟨w, buf, created, gone⟩) {i : Nat} {sock : Socket}
    (hok : SlotOk w.netserv.nextSocketId sock)
    (hkeeps : sock.inUse = true →
      (w.netserv.sockets i).inUse = true ∧ sock.sockId = (w.netserv.sockets i).sockId) :
    Inv ⟨w.setSocket i sock, buf, created, gone⟩ := by
  refine ⟨h.table.setSocket hok hkeeps, h.next, h.created, h.nodup, fun j hj hju => ?_,
    fun id hid => ?_⟩
  · simp only [NetWorld.setSocket] at hju ⊢
    rcases eq_or_ne j i with rfl | hne
    · rw [NetServer.setSocket_self] at hju ⊢
      obtain ⟨hju', e⟩ := hkeeps hju
      rw [e]
      exact h.known j hj hju'
    · rw [NetServer.setSocket_of_ne _ hne] at hju ⊢
      exact h.known j hj hju
  · obtain ⟨hlt, hnone⟩ := h.closed id hid
    refine ⟨hlt, findSocket_setSocket_none hnone fun hu e => ?_⟩
    obtain ⟨hu', e'⟩ := hkeeps hu
    exact ⟨hu', e'.symm.trans e⟩

lemma Inv.allocate (h : Inv ⟨w, buf, created, gone⟩) {i : Nat} (hfree : freeSlot w.netserv = some i)
    (clientPid type sender : Int) :
    Inv ⟨{ w with netserv :=
        { w.netserv.setSocket i (newSocket w.netserv i clientPid type) with
          nextSocketId := w.netserv.nextSocketId + 1 } },
      buf, created ++ [(w.netserv.nextSocketId, sender)], gone⟩ := by
  have hnext : w.netserv.nextSocketId = 1 + created.length := h.next
  have hcreated : ∀ x ∈ created, x.1 < w.netserv.nextSocketId := h.created
  have hpos : 0 < w.netserv.nextSocketId := by omega
  refine ⟨h.table.allocate hpos hfree clientPid type, ?_, ?_, ?_, fun j hj hju => ?_, ?_⟩
  · simp only [List.length_append, List.length_singleton]
    omega
  · intro x hx
    show x.1 < w.netserv.nextSocketId + 1
    rcases List.mem_append.mp hx with hx | hx
    · exact (hcreated x hx).trans (Int.lt_succ _)
    · rw [List.mem_singleton.mp hx]
      exact Int.lt_succ _
  · simp only [List.map_append, List.map_cons, List.map_nil]
    refine List.Nodup.append h.nodup (List.nodup_singleton _) ?_
    intro id hid hnew
    obtain ⟨x, hx, rfl⟩ := List.mem_map.mp hid
    exact (hcreated x hx).ne (List.mem_singleton.mp hnew)
  · simp only at hju ⊢
    rcases eq_or_ne j i with rfl | hne
    · rw [NetServer.setSocket_self]
      exact ⟨sender, List.mem_append_right _ (List.mem_singleton_self _)⟩
    · rw [NetServer.setSocket_of_ne _ hne] at hju ⊢
      obtain ⟨q, hq⟩ := h.known j hj hju
      exact ⟨q, List.mem_append_left _ hq⟩
  · intro id hid
    obtain ⟨hlt, hnone⟩ := h.closed id hid
    refine ⟨hlt.trans (Int.lt_succ _), ?_⟩
    have hset : findSocket (w.netserv.setSocket i (newSocket w.netserv i clientPid type)) id = none :=
      findSocket_setSocket_none hnone fun _ e => absurd e hlt.ne'
    exact hset

/-- Closing a socket puts its id out of use for good. -/
lemma Inv.close (h : Inv ⟨w, buf, created, gone⟩) {i : Nat} {sockId : Int}
    (hfind : findSocket w.netserv sockId = some i) :
    Inv ⟨w.setSocket i { w.netserv.sockets i with inUse := false, state := .closed }, buf, created,
      gone ++ [sockId]⟩ := by
  obtain ⟨hi, hu, hid⟩ := findSocket_some hfind
  have hslot := h.table.slot i hi
  have hok : SlotOk w.netserv.nextSocketId
      { w.netserv.sockets i with inUse := false, state := .closed } :=
    ⟨nofun, fun _ => rfl, fun hs => by rcases hs with hs | hs <;> cases hs⟩
  have hset := h.setSocket (i := i) hok nofun
  refine ⟨hset.table, hset.next, hset.created, hset.nodup, hset.known, fun id hmem => ?_⟩
  rcases List.mem_append.mp hmem with hold | hnew
  · exact hset.closed id hold
  · obtain rfl := List.mem_singleton.mp hnew
    refine ⟨hid ▸ (hslot.id hu).2, findSocket_eq_none.mpr fun j hj hju e => ?_⟩
    rcases eq_or_ne j i with rfl | hne
    · simp [NetWorld.setSocket] at hju
    · simp only [NetWorld.setSocket, NetServer.setSocket_of_ne _ hne] at hju e
      exact hne (h.table.distinct j hj i hi hju hu (e.trans hid.symm))

/-- Every outcome of a message keeps the invariant. -/
lemma Inv.effect (h : Inv ⟨w, buf, created, gone⟩) {p : Int} {msg : Mem} {reply : Option Reply}
    {w' : NetWorld} {made dropped : Option Int} (e : NetEffect w p msg reply w' made dropped)
    (buf' : Mem) (sender : Int) :
    Inv ⟨w', buf', created ++ (made.map fun id => (id, sender)).toList, gone ++ dropped.toList⟩ := by
  have hsame : Inv ⟨w, buf', created ++ [], gone ++ []⟩ := by
    rw [List.append_nil, List.append_nil]
    exact ⟨h.table, h.next, h.created, h.nodup, h.known, h.closed⟩
  cases e with
  | ignored | answered => exact hsame
  | handed i v stats hfind hconn =>
    exact ⟨hsame.table, hsame.next, hsame.created, hsame.nodup, hsame.known, hsame.closed⟩
  | allocated i hfree =>
    have hnew := hsame.allocate hfree p (arg msg 1) sender
    rw [List.append_nil] at hnew
    exact hnew
  | bound i ip port hfind =>
    obtain ⟨hi, hu, _⟩ := findSocket_some hfind
    have hslot := h.table.slot i hi
    have hstate : ¬(SocketState.bound = .listening ∨ SocketState.bound = .connected) := by decide
    exact hsame.setSocket (hslot.change hu hu rfl fun hs => absurd hs hstate) fun _ => ⟨hu, rfl⟩
  | listening i hfind htcp =>
    obtain ⟨hi, hu, _⟩ := findSocket_some hfind
    have hslot := h.table.slot i hi
    exact hsame.setSocket (hslot.change hu hu rfl fun _ => htcp) fun _ => ⟨hu, rfl⟩
  | connected i ip port hfind htcp =>
    obtain ⟨hi, hu, _⟩ := findSocket_some hfind
    have hslot := h.table.slot i hi
    exact hsame.setSocket (hslot.change hu hu rfl fun _ => htcp) fun _ => ⟨hu, rfl⟩
  | drained i k hfind =>
    obtain ⟨hi, hu, _⟩ := findSocket_some hfind
    have hslot := h.table.slot i hi
    obtain ⟨tail, count, e⟩ := drain_keeps k 0 (w.netserv.sockets i) fun _ => 0
    rw [e]
    exact hsame.setSocket ⟨hslot.id, hslot.closed, hslot.tcp⟩ fun _ => ⟨hu, rfl⟩
  | closed i hfind =>
    have hclosed := hsame.close hfind
    rw [List.append_nil gone] at hclosed
    exact hclosed

end Effects

lemma message_inv {h : NetHistory} (hi : h.Inv) (sender : Int) (body : List UInt8) :
    (h.message sender body).Inv :=
  Inv.effect hi (netHandle_effect h.world (arg (deliver h.msgBuffer body) 0)
    (shift (deliver h.msgBuffer body) 4) (body.length - 4)) (deliver h.msgBuffer body) sender

lemma packet_inv {h : NetHistory} (hi : h.Inv) (packetBuffer : Mem) (pkt : Option Packet) :
    (h.packet packetBuffer pkt).Inv := by
  unfold packet
  rcases processNetworkPackets_cases h.world.netserv packetBuffer pkt with
    e | ⟨i, hlt, data, len, hu, hconn, e⟩
  · rw [e]
    exact hi
  · obtain ⟨buf, head, count, e'⟩ := addRxData_keeps data len.toNat 0 (h.world.netserv.sockets i)
    rw [e, socketAddRxData, e']
    have hslot := hi.table.slot i hlt
    exact Inv.setSocket hi (hslot.change hu hu rfl fun _ => (hslot.tcp (.inr hconn)).2)
      fun _ => ⟨hu, rfl⟩

/-- Every operation keeps the invariant. -/
lemma step_inv (h : NetHistory) (op : NetOp) (hi : h.Inv) :
    ∃ h', step h op = some h' ∧ h'.Inv := by
  cases op with
  | message sender body => exact ⟨_, rfl, message_inv hi sender body⟩
  | packet packetBuffer pkt => exact ⟨_, rfl, packet_inv hi packetBuffer pkt⟩

lemma start_inv (srv : NetServer) (stats : NetStats) (currentTask : Int) (msgBuffer : Mem) :
    (start srv stats currentTask msgBuffer).Inv := by
  refine ⟨.init srv currentTask, rfl, nofun, List.nodup_nil, fun i hi hu => ?_, nofun⟩
  rw [show ((start srv stats currentTask msgBuffer).world.netserv.sockets i).inUse = false by
    simp [start, netServerInit, hi]] at hu
  cases hu

lemma inv_of_run {srv : NetServer} {stats : NetStats} {currentTask : Int} {msgBuffer : Mem}
    {ops : List NetOp} {h : NetHistory}
    (hrun : run (start srv stats currentTask msgBuffer) ops = some h) : h.Inv :=
  Run.inv_of_run step_inv hrun (start_inv srv stats currentTask msgBuffer)

end NetHistory

/-- No socket has the id, and the commands that name it fail without effect. -/
structure Dead (w : NetWorld) (sockId : Int) : Prop where
  find : findSocket w.netserv sockId = none
  bind : ∀ ip port, bindSocket w.netserv sockId ip port = (-1, w.netserv)
  listen : ∀ backlog, listenSocket w.netserv sockId backlog = (-1, w.netserv)
  connect : ∀ ip port, connectSocket w.netserv sockId ip port = (-1, w.netserv)
  send : ∀ data len, sendSocketData w sockId data len = (-1, w)
  recv : ∀ buffer maxLen, recvSocketData w.netserv sockId buffer maxLen = (-1, buffer, w.netserv)

lemma Dead.of_find {w : NetWorld} {sockId : Int} (h : findSocket w.netserv sockId = none) :
    Dead w sockId := by
  constructor
  · exact h
  · intro ip port
    rw [bindSocket, h]
  · intro backlog
    rw [listenSocket, h]
  · intro ip port
    rw [connectSocket, h]
  · intro data len
    rw [sendSocketData, h]
  · intro buffer maxLen
    rw [recvSocketData, h]

/-- The socket table after any messages and packets: every slot is in order, ids are below the
counter and handed out once, and a closed id stays without a socket for good. The bound on the
number of sockets keeps the counter in its `int`. -/
theorem socket_table (srv : NetServer) (stats : NetStats) (currentTask : Int) (msgBuffer : Mem)
    (ops : List NetOp) (h : NetHistory)
    (hrun : NetHistory.run (.start srv stats currentTask msgBuffer) ops = some h)
    (hbound : h.created.length < 2 ^ 31 - 1) :
    TableInv h.world.netserv ∧ h.world.netserv.nextSocketId ≤ 2 ^ 31 - 1 ∧
      (h.created.map Prod.fst).Nodup ∧ ∀ id ∈ h.closed, Dead h.world id := by
  have hi := NetHistory.inv_of_run hrun
  refine ⟨hi.table, ?_, hi.nodup, fun id hid => .of_find (hi.closed id hid).2⟩
  rw [hi.next]
  omega

/-- The static variables of the server at boot. -/
def bootNet : NetServer where
  serverPid := 0
  sockets := fun _ => ⟨0, 0, 0, .closed, 0, 0, 0, 0, fun _ => 0, 0, 0, 0, false⟩
  nextSocketId := 0
  active := false

/-- Task 1 asks for a TCP socket, and task 2 closes it. -/
def createAndClose : List NetOp :=
  [.message 1 [1, 0, 0, 0, 1, 0, 0, 0, 1, 0, 0, 0],
    .message 2 [2, 0, 0, 0, 7, 0, 0, 0, 1, 0, 0, 0]]

theorem socket_table_closed :
    ∃ h, NetHistory.run (.start bootNet ⟨0, 0, 0, 0, 0, 0⟩ 4 fun _ => 0) createAndClose = some h ∧
      h.closed = [1] ∧ TableInv h.world.netserv ∧ ∀ id ∈ h.closed, Dead h.world id := by
  have hids : (NetHistory.run (.start bootNet ⟨0, 0, 0, 0, 0, 0⟩ 4 fun _ => 0) createAndClose).map
      (fun h => (h.created, h.closed)) = some ([(1, 1)], [1]) := by decide +kernel
  obtain ⟨h, hrun, hids⟩ := Option.map_eq_some_iff.mp hids
  obtain ⟨hcreated, hclosed⟩ := Prod.mk.inj hids
  have hbound : h.created.length < 2 ^ 31 - 1 := by
    rw [hcreated]
    decide
  obtain ⟨htable, _, _, hdead⟩ := socket_table bootNet _ 4 _ createAndClose h hrun hbound
  exact ⟨h, hrun, hclosed, htable, hdead⟩

end Hydra.Server
