import Hydra.Server.Stream

/-!
# Creating a socket

The request of `net_socket` from the client's words to the table and back: the letter that the call
posts, whenever the server takes it, makes one new socket of the first free slot and brings its id
to the client, or finds no free slot and brings -1. The slot that held the letter is free again
when the server replies, so there is always one for the reply.
-/

namespace Hydra.Server
open ByteMem Mailbox Hydra.Ipc Hydra.LibHydra Hydra.Net

/-- One slot comes into use, for a socket with the id, the owner and the type, closed and with an
empty ring; the other slots are as before. -/
def Gains (srv srv' : NetServer) (sockId ownerPid type : Int) : Prop :=
  ∃ i < maxSockets, (srv.sockets i).inUse = false ∧ (srv'.sockets i).inUse = true ∧
    (srv'.sockets i).sockId = sockId ∧ (srv'.sockets i).ownerPid = ownerPid ∧
    (srv'.sockets i).type = type ∧ (srv'.sockets i).state = .closed ∧
    RingOk (srv'.sockets i) ∧ stream (srv'.sockets i) = [] ∧
    ∀ j ≠ i, srv'.sockets j = srv.sockets j

/-- The server took one letter and sent one of 4 bytes, which the receiver reads as the value. -/
def RepliesInt (s : IpcState) (server receiver v : Int) (s' : IpcState) : Prop :=
  ∃ b, b.sender = server ∧ b.body.length = 4 ∧ (∀ buf, arg (deliver buf b.body) 0 = v) ∧
    s'.pending = post (take s.pending server) receiver b

/-- What the server makes of a request for a socket: a new socket with the next id, or -1 when all
slots are in use. -/
structure Creates (w : NetWorld) (s : IpcState) (t type : Int) (r : Served NetWorld) : Prop where
  room : (∃ i < maxSockets, (w.netserv.sockets i).inUse = false) →
    RepliesInt s netServerPid t w.netserv.nextSocketId r.ipc ∧
      Gains w.netserv r.world.netserv w.netserv.nextSocketId t type
  full : (∀ i < maxSockets, (w.netserv.sockets i).inUse = true) →
    RepliesInt s netServerPid t (-1) r.ipc ∧ r.world = w

lemma freeSlot_eq_none {srv : NetServer} :
    freeSlot srv = none ↔ ∀ i < maxSockets, (srv.sockets i).inUse = true := by
  unfold freeSlot
  rw [List.find?_eq_none]
  simp

lemma gains_newSocket {srv : NetServer} {i : Nat} (h : freeSlot srv = some i) (clientPid type : Int) :
    Gains srv { srv.setSocket i (newSocket srv i clientPid type) with
      nextSocketId := srv.nextSocketId + 1 } srv.nextSocketId clientPid type := by
  obtain ⟨hi, hfree⟩ := freeSlot_some h
  have hself : (srv.setSocket i (newSocket srv i clientPid type)).sockets i =
      newSocket srv i clientPid type := srv.setSocket_self i _
  refine ⟨i, hi, hfree, ?_⟩
  simp only [hself]
  refine ⟨rfl, rfl, rfl, rfl, rfl, ?_, rfl, fun j hj => ?_⟩
  · exact RingOk.empty rfl rfl rfl
  · exact srv.setSocket_of_ne hj _

/-- A reply that carries an `int` is read as it was written. -/
lemma arg_intReply {v : Int} (hlo : -2 ^ 31 ≤ v) (hhi : v < 2 ^ 31) (buf : Mem) :
    arg (deliver buf (bytes (intBytes v) 4)) 0 = v := by
  rw [arg_deliver _ _ (by decide) (by decide)]
  unfold arg word intBytes
  rw [load_store_same, Nat.mod_eq_of_lt (ofInt32_lt v), toInt32_ofInt32 hlo hhi]

section Create

variable {S : Set Nat} {s : IpcState} {free : List Nat} {box : Int → List Letter}

/-- The iteration of a server that takes a letter with an answer for a task posts the answer. -/
lemma serve_replies {W : Type} {handle : W → Int → Mem → Int → Option Reply × W} {world world' : W}
    {msgBuffer : Mem} (h : Rep S s free box) {server : Int} {a : Letter} {l : List Letter}
    (hb : box server = a :: l) {t v : Int}
    (ht : 0 ≤ t ∧ t < maxTasks) (hpid : arg (deliver msgBuffer a.body) 0 = t)
    (hlo : -2 ^ 31 ≤ v) (hhi : v < 2 ^ 31)
    (hout : handle world t (shift (deliver msgBuffer a.body) 4) (a.body.length - 4) =
      (some (intReply v), world')) :
    (serve handle world s server msgBuffer).world = world' ∧
      RepliesInt s server t v (serve handle world s server msgBuffer).ipc := by
  obtain ⟨hworld, hsent⟩ := serve_result handle world msgBuffer h hb (hpid.symm ▸ hout)
  refine ⟨hworld, ⟨a.slot, server, bytes (intBytes v) 4⟩, rfl, length_bytes _ _,
    arg_intReply hlo hhi, ?_⟩
  have hok : Sendable t (some (intBytes v)) 4 := ⟨ht, ⟨by decide, by decide⟩, rfl⟩
  rw [hpid] at hsent
  rcases hsent with ⟨_, hno⟩ | ⟨x, hx, _, e⟩
  · exact absurd hok (hno _ rfl)
  · obtain rfl : intReply v = x := Option.some.inj hx
    exact e

lemma netHandle_socket {msg : Mem} (hcmd : arg msg 0 = 1) (w : NetWorld) (pid : Int) :
    netHandleClientMessage w pid msg 8 =
      (some (intReply (allocateSocket w.netserv pid (arg msg 1)).1),
        { w with netserv := (allocateSocket w.netserv pid (arg msg 1)).2 }) := by
  unfold netHandleClientMessage
  rw [hcmd]
  rfl

lemma serve_creates (h : Rep S s free box) {t type : Int} (ht : 0 ≤ t ∧ t < maxTasks)
    (hlo : -2 ^ 31 ≤ type) (hhi : type < 2 ^ 31) {stack : Mem} {slot : Nat} {l : List Letter}
    (hb : box netServerPid = (ClientCall.netSocket type).letter t stack slot :: l) {w : NetWorld}
    (hmin : -2 ^ 31 ≤ w.netserv.nextSocketId) (hmax : w.netserv.nextSocketId < 2 ^ 31 - 1)
    (msgBuffer : Mem) :
    Creates w s t type (serve netHandleClientMessage w s netServerPid msgBuffer) := by
  generalize ha : (ClientCall.netSocket type).letter t stack slot = a at hb
  have htask : -2 ^ 31 ≤ t ∧ t < 2 ^ 31 := by
    unfold maxTasks at ht
    omega
  have hpid : arg (deliver msgBuffer a.body) 0 = t :=
    ClientCall.arg_letter_pid ha msgBuffer htask.1 htask.2 (show 4 ≤ 12 by decide)
  have hcmd : arg (shift (deliver msgBuffer a.body) 4) 0 = 1 := by
    rw [ClientCall.arg_letter ha msgBuffer (show 8 ≤ 12 by decide)]
    exact arg_setWords stack (v := 1) rfl (by decide) (by decide)
  have htype : arg (shift (deliver msgBuffer a.body) 4) 1 = type := by
    rw [ClientCall.arg_letter ha msgBuffer (show 12 ≤ 12 by decide)]
    exact arg_setWords stack rfl hlo hhi
  have hout := netHandle_socket hcmd w t
  rw [htype] at hout
  have hsize : (a.body.length : Int) - 4 = 8 := by
    rw [ClientCall.length_letter ha]
    rfl
  constructor
  · rintro ⟨i, hi, hunused⟩
    cases hfree : freeSlot w.netserv with
    | none =>
      rw [freeSlot_eq_none.mp hfree i hi] at hunused
      cases hunused
    | some j =>
      rw [allocateSocket_some hfree] at hout
      obtain ⟨hworld, hreply⟩ := serve_replies h hb ht hpid hmin (by omega) (hsize ▸ hout)
      rw [hworld]
      exact ⟨hreply, gains_newSocket hfree t type⟩
  · intro hall
    rw [allocateSocket_none (freeSlot_eq_none.mpr hall)] at hout
    obtain ⟨hworld, hreply⟩ := serve_replies (v := -1) h hb ht hpid (by decide) (by decide)
      (hsize ▸ hout)
    exact ⟨hreply, hworld⟩

end Create

/-- The next id was never handed out, and no socket has it. -/
lemma NetHistory.Inv.next_fresh {hist : NetHistory} (h : hist.Inv) :
    (∀ x ∈ hist.created, x.1 ≠ hist.world.netserv.nextSocketId) ∧
      ∀ i < maxSockets, (hist.world.netserv.sockets i).inUse = true →
        (hist.world.netserv.sockets i).sockId ≠ hist.world.netserv.nextSocketId :=
  ⟨fun x hx => (h.created x hx).ne, fun i hi hu => ((h.table.slot i hi).id hu).2.ne⟩

/-- In every reachable state of the message system `net_socket` posts its letter if it can send at
all; and whenever the network server takes it, in any state of the server, it makes one new socket
of the caller and the caller gets its id, or there is no free slot and the caller gets -1. In the
reachable states of the server the id is a new one. -/
theorem socket_creation (n : Nat) (s₀ : IpcState) (h₀ : Initial n s₀) (ops : List IpcOp)
    (s : History) (hrun : History.run s₀ ops = some s) (t type : Int)
    (ht : 0 ≤ t ∧ t < maxTasks) (htype : -2 ^ 31 ≤ type ∧ type < 2 ^ 31) (stack : Mem) :
    ((netSocket s.ipc t stack type).requested = true → ∃ slot,
      (netSocket s.ipc t stack type).afterSend.pending = post s.ipc.pending netServerPid
        ((ClientCall.netSocket type).letter t stack slot)) ∧
    (∀ slot l, s.ipc.pending netServerPid =
        (ClientCall.netSocket type).letter t stack slot :: l →
      ∀ (w : NetWorld) (msgBuffer : Mem), -2 ^ 31 ≤ w.netserv.nextSocketId →
        w.netserv.nextSocketId < 2 ^ 31 - 1 →
        Creates w s.ipc t type (serve netHandleClientMessage w s.ipc netServerPid msgBuffer)) ∧
    ∀ srv stats currentTask buf netOps hist,
      NetHistory.run (.start srv stats currentTask buf) netOps = some hist →
      (∀ x ∈ hist.created, x.1 ≠ hist.world.netserv.nextSocketId) ∧
        ∀ i < maxSockets, (hist.world.netserv.sockets i).inUse = true →
          (hist.world.netserv.sockets i).sockId ≠ hist.world.netserv.nextSocketId := by
  obtain ⟨slots, free, box, hrep, _⟩ := History.inv_of_run h₀ hrun
  refine ⟨?_, fun slot l hb w msgBuffer hmin hmax => ?_, ?_⟩
  · exact (ClientCall.netSocket type).exec_posts hrep t stack
  · rw [hrep.pending_eq] at hb
    exact serve_creates hrep ht htype.1 htype.2 hb hmin hmax msgBuffer
  · intro srv stats currentTask buf netOps hist hnet
    exact (NetHistory.inv_of_run hnet).next_fresh

/-- Task 1 asks for a TCP socket. -/
theorem socket_creation_first :
    ∃ (s : History) (slot : Nat), s.ipc.pending netServerPid =
        [(ClientCall.netSocket sockTcp).letter 1 (fun _ => 0) slot] ∧
      Creates startedNet s.ipc 1 sockTcp
        (serve netHandleClientMessage startedNet s.ipc netServerPid fun _ => 0) := by
  obtain ⟨s, slot, hrun, hb⟩ :=
    (ClientCall.netSocket sockTcp).letter_sent (by decide) 1 fun _ => 0
  have hcreation := socket_creation 2 poolState poolState_initial _ s hrun 1 sockTcp (by decide)
    (by decide) fun _ => 0
  exact ⟨s, slot, hb, hcreation.2.1 slot [] hb startedNet (fun _ => 0) (by decide) (by decide)⟩

end Hydra.Server
