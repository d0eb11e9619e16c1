import Hydra.Server.Request

/-!
# Requests that the servers misread

A client function puts the pid of its caller and a command into a message, a server strips the pid
and counts the bytes that are left. Three of the requests do not pass the server's test of the size:
a bind request has ip and port packed into one word where the server wants two (`bind_codec`), a
migration request has no data where the server wants at least a word of it (`migrate_codec`), and a
send request counts as complete only with at least four bytes of data (`send_codec`). A send request
also says how long the client's buffer is, not how much of it is in the message.

All three results are about the message as it arrives: the letter that the call posts, whenever it
is the oldest in the queue of the server, in any state of the server.
-/

namespace Hydra.Server
open ByteMem Mailbox Hydra.Ipc Hydra.LibHydra Hydra.Net

/-! ## bind -/

/-- The socket in a slot is bound to the address, and nothing else in the server is changed; the
client gets 0. -/
structure BindAgrees (w : NetWorld) (s : IpcState) (t : Int) (i : Nat) (ip : UInt32) (port : UInt16)
    (r : Served NetWorld) : Prop where
  bound : r.world.netserv = w.netserv.setSocket i
    { w.netserv.sockets i with localIp := ip, localPort := port, state := .bound }
  reply : ∃ slot, r.ipc.pending =
    post (take s.pending netServerPid) t ⟨slot, netServerPid, bytes (intBytes 0) 4⟩

/-- The server refuses a bind command of less than four words. -/
lemma netHandle_bind_short {msg : Mem} (hcmd : arg msg 0 = 2) (w : NetWorld) (pid : Int) {size : Int}
    (hlo : 4 ≤ size) (hhi : size < 16) :
    netHandleClientMessage w pid msg size = (some (intReply (-1)), w) := by
  unfold netHandleClientMessage
  rw [hcmd, if_neg (by omega)]
  exact if_neg (by omega)

section Bind

variable {S : Set Nat} {s : IpcState} {free : List Nat} {box : Int → List Letter}

/-- The letter of `net_bind` leaves 12 bytes for the command, so the answer is -1. -/
lemma not_bindAgrees (h : Rep S s free box) {t sockId : Int} {ip : UInt32} {port : UInt16}
    {stack : Mem} {slot : Nat} {l : List Letter}
    (hb : box netServerPid = (ClientCall.netBind sockId ip port).letter t stack slot :: l)
    (w : NetWorld) (i : Nat) (msgBuffer : Mem) :
    ¬BindAgrees w s t i ip port (serve netHandleClientMessage w s netServerPid msgBuffer) := by
  generalize ha : (ClientCall.netBind sockId ip port).letter t stack slot = a at hb
  have hout : netHandleClientMessage w (arg (deliver msgBuffer a.body) 0)
      (shift (deliver msgBuffer a.body) 4) (a.body.length - 4) = (some (intReply (-1)), w) := by
    have hlen : a.body.length = 16 := ClientCall.length_letter ha
    apply netHandle_bind_short
    · rw [ClientCall.arg_letter ha msgBuffer (show 8 ≤ 16 by decide)]
      exact arg_setWords stack (v := 2) rfl (by decide) (by decide)
    · rw [hlen]
      decide
    · rw [hlen]
      decide
  rintro ⟨_, slot', hreply⟩
  rcases (serve_result netHandleClientMessage w msgBuffer h hb hout).2 with
    ⟨e, _⟩ | ⟨x, hx, _, e⟩
  · rw [e] at hreply
    exact post_ne _ _ _ hreply.symm
  · obtain rfl := Option.some.inj hx
    rw [e] at hreply
    have hbytes : bytes (intBytes (-1)) 4 = bytes (intBytes 0) 4 :=
      congrArg Letter.body (post_inj hreply).2
    exact absurd hbytes (by decide)

end Bind

/-- In every reachable state of the message system `net_bind` posts its letter if it can send at
all; and whenever the network server takes it, in any state of the server, no socket is bound and
the client does not get 0. -/
theorem bind_codec (n : Nat) (s₀ : IpcState) (h₀ : Initial n s₀) (ops : List IpcOp) (s : History)
    (hrun : History.run s₀ ops = some s) (t sockId : Int) (ip : UInt32) (port : UInt16)
    (stack : Mem) :
    ((netBind s.ipc t stack sockId ip port).requested = true → ∃ slot,
      (netBind s.ipc t stack sockId ip port).afterSend.pending = post s.ipc.pending netServerPid
        ((ClientCall.netBind sockId ip port).letter t stack slot)) ∧
    ∀ slot l, s.ipc.pending netServerPid =
        (ClientCall.netBind sockId ip port).letter t stack slot :: l →
      ∀ w i msgBuffer, findSocket w.netserv sockId = some i →
        ¬BindAgrees w s.ipc t i ip port
          (serve netHandleClientMessage w s.ipc netServerPid msgBuffer) := by
  obtain ⟨slots, free, box, hrep, _⟩ := History.inv_of_run h₀ hrun
  constructor
  · exact (ClientCall.netBind sockId ip port).exec_posts hrep t stack
  · intro slot l hb w i msgBuffer _
    rw [hrep.pending_eq] at hb
    exact not_bindAgrees hrep hb w i msgBuffer

/-- The network server with one TCP socket, of task 1, which is connected. -/
def connectedNet : NetWorld where
  netserv := (connectSocket (allocateSocket startedNet.netserv 1 sockTcp).2 1 0 0).2
  stats := startedNet.stats
  handed := []

theorem bind_codec_one :
    ∃ (s : History) (slot : Nat), s.ipc.pending netServerPid =
        [(ClientCall.netBind 1 0x0a000001 80).letter 1 (fun _ => 0) slot] ∧
      ¬BindAgrees connectedNet s.ipc 1 0 0x0a000001 80
        (serve netHandleClientMessage connectedNet s.ipc netServerPid fun _ => 0) := by
  obtain ⟨s, slot, hrun, hb⟩ :=
    (ClientCall.netBind 1 0x0a000001 80).letter_sent (by decide) 1 fun _ => 0
  have hcodec := bind_codec 2 poolState poolState_initial _ s hrun 1 1 0x0a000001 80 fun _ => 0
  exact ⟨s, slot, hb, hcodec.2 slot [] hb connectedNet 0 (fun _ => 0) (by decide +kernel)⟩

/-- Task 1 binds its socket to 10.0.0.1 and port 80. -/
theorem bind_codec_fails :
    ∃ s slot, Initial 2 poolState ∧
      History.run poolState [.sendMessage 1 netServerPid
        (some ((ClientCall.netBind 1 0x0a000001 80).request 1 fun _ => 0)) 16] = some s ∧
      s.ipc.pending netServerPid =
        [(ClientCall.netBind 1 0x0a000001 80).letter 1 (fun _ => 0) slot] ∧
      findSocket connectedNet.netserv 1 = some 0 ∧
      ¬BindAgrees connectedNet s.ipc 1 0 0x0a000001 80
        (serve netHandleClientMessage connectedNet s.ipc netServerPid fun _ => 0) := by
  obtain ⟨s, slot, hrun, hb⟩ :=
    (ClientCall.netBind 1 0x0a000001 80).letter_sent (by decide) 1 fun _ => 0
  obtain ⟨slots, free, box, hrep, _⟩ := History.inv_of_run poolState_initial hrun
  refine ⟨s, slot, poolState_initial, hrun, hb, by decide +kernel, ?_⟩
  exact not_bindAgrees hrep (hrep.pending_eq ▸ hb) connectedNet 0 fun _ => 0

/-! ## Migration -/

/-- One request is recorded, with the caller and the arguments of the call, and the client gets its
id. -/
structure MigrateAgrees (srv : BulletServer) (s : IpcState) (t targetNode size : Int)
    (r : Served BulletServer) : Prop where
  count : r.world.numRequests = srv.numRequests + 1
  sourcePid : (r.world.requests srv.numRequests.toNat).sourcePid = t
  targetNode : (r.world.requests srv.numRequests.toNat).targetNode = targetNode
  processSize : (r.world.requests srv.numRequests.toNat).processSize = size
  kept : ∀ i < srv.numRequests.toNat, r.world.requests i = srv.requests i
  reply : ∃ slot, r.ipc.pending = post (take s.pending bulletServerPid) t
    ⟨slot, bulletServerPid, bytes (intBytes srv.numRequests) 4⟩

/-- The letter of `bullet_migrate_process` leaves 12 bytes for the command, so nothing is recorded
and nothing is replied. -/
lemma serve_migrate {S : Set Nat} {s : IpcState} {free : List Nat} {box : Int → List Letter}
    (h : Rep S s free box) {t targetNode size : Int} {stack : Mem} {slot : Nat} {l : List Letter}
    (hb : box bulletServerPid =
      (ClientCall.bulletMigrateProcess targetNode size).letter t stack slot :: l)
    (srv : BulletServer) (msgBuffer : Mem) :
    (serve bulletHandleClientMessage srv s bulletServerPid msgBuffer).world = srv ∧
      (serve bulletHandleClientMessage srv s bulletServerPid msgBuffer).ipc.pending =
        take s.pending bulletServerPid := by
  generalize ha : (ClientCall.bulletMigrateProcess targetNode size).letter t stack slot = a at hb
  have hout : bulletHandleClientMessage srv (arg (deliver msgBuffer a.body) 0)
      (shift (deliver msgBuffer a.body) 4) (a.body.length - 4) = (none, srv) := by
    have hcmd : arg (shift (deliver msgBuffer a.body) 4) 0 = 1 := by
      rw [ClientCall.arg_letter ha msgBuffer (show 8 ≤ 16 by decide)]
      exact arg_setWords stack (v := 1) rfl (by decide) (by decide)
    have hlen : a.body.length = 16 := ClientCall.length_letter ha
    unfold bulletHandleClientMessage
    rw [hcmd, hlen]
    rfl
  obtain ⟨hworld, hsent⟩ := serve_result bulletHandleClientMessage srv msgBuffer h hb hout
  rcases hsent with ⟨e, _⟩ | ⟨x, hx, _⟩
  · exact ⟨hworld, e⟩
  · cases hx

/-- The bullet server after its initialisation. -/
def startedBullet : BulletServer := bulletInit ⟨0, fun _ => ⟨0, 0, 0, 0, 0⟩, 0, false⟩ 3

/-- In every reachable state of the message system `bullet_migrate_process` posts its letter if it
can send at all; and whenever the bullet server takes it, with room in its table, no request is
recorded and the client gets no reply. -/
theorem migrate_codec (n : Nat) (s₀ : IpcState) (h₀ : Initial n s₀) (ops : List IpcOp) (s : History)
    (hrun : History.run s₀ ops = some s) (t targetNode size : Int) (stack : Mem) :
    ((bulletMigrateProcess s.ipc t stack targetNode size).requested = true → ∃ slot,
      (bulletMigrateProcess s.ipc t stack targetNode size).afterSend.pending =
        post s.ipc.pending bulletServerPid
          ((ClientCall.bulletMigrateProcess targetNode size).letter t stack slot)) ∧
    ∀ slot l, s.ipc.pending bulletServerPid =
        (ClientCall.bulletMigrateProcess targetNode size).letter t stack slot :: l →
      ∀ srv msgBuffer, 0 ≤ srv.numRequests → srv.numRequests < maxMigrationRequests →
        ¬MigrateAgrees srv s.ipc t targetNode size
          (serve bulletHandleClientMessage srv s.ipc bulletServerPid msgBuffer) := by
  obtain ⟨slots, free, box, hrep, _⟩ := History.inv_of_run h₀ hrun
  constructor
  · exact (ClientCall.bulletMigrateProcess targetNode size).exec_posts hrep t stack
  · intro slot l hb srv msgBuffer _ _ hagrees
    rw [hrep.pending_eq] at hb
    have hcount := hagrees.count
    rw [(serve_migrate hrep hb srv msgBuffer).1] at hcount
    exact absurd hcount (Int.lt_succ _).ne

theorem migrate_codec_first :
    ∃ (s : History) (slot : Nat), s.ipc.pending bulletServerPid =
        [(ClientCall.bulletMigrateProcess 2 4096).letter 1 (fun _ => 0) slot] ∧
      ¬MigrateAgrees startedBullet s.ipc 1 2 4096
        (serve bulletHandleClientMessage startedBullet s.ipc bulletServerPid fun _ => 0) := by
  obtain ⟨s, slot, hrun, hb⟩ :=
    (ClientCall.bulletMigrateProcess 2 4096).letter_sent (by decide) 1 fun _ => 0
  have hcodec := migrate_codec 2 poolState poolState_initial _ s hrun 1 2 4096 fun _ => 0
  exact ⟨s, slot, hb, hcodec.2 slot [] hb startedBullet (fun _ => 0) le_rfl (by decide)⟩

/-- Task 1 asks for its migration to node 2. -/
theorem migrate_codec_fails :
    ∃ s slot, Initial 2 poolState ∧
      History.run poolState [.sendMessage 1 bulletServerPid
        (some ((ClientCall.bulletMigrateProcess 2 4096).request 1 fun _ => 0)) 16] = some s ∧
      s.ipc.pending bulletServerPid =
        [(ClientCall.bulletMigrateProcess 2 4096).letter 1 (fun _ => 0) slot] ∧
      ¬MigrateAgrees startedBullet s.ipc 1 2 4096
        (serve bulletHandleClientMessage startedBullet s.ipc bulletServerPid fun _ => 0) := by
  obtain ⟨s, slot, hrun, hb⟩ :=
    (ClientCall.bulletMigrateProcess 2 4096).letter_sent (by decide) 1 fun _ => 0
  obtain ⟨slots, free, box, hrep, _⟩ := History.inv_of_run poolState_initial hrun
  refine ⟨s, slot, poolState_initial, hrun, hb, fun hagrees => ?_⟩
  have hworld := (serve_migrate hrep (hrep.pending_eq ▸ hb) startedBullet fun _ => 0).1
  have hcount := hagrees.count
  rw [hworld] at hcount
  exact absurd hcount (by decide)

/-! ## send -/

/-- The server hands the client's bytes to the driver in one call; of a longer buffer it hands over
nothing but bytes of the client, of which the message carries 240. -/
def SendAgrees (w : NetWorld) (data : Mem) (len : Int) (r : Served NetWorld) : Prop :=
  if len ≤ 240 then
    ∃ m, r.world.handed = w.handed ++ [(m, len)] ∧ bytes m len.toNat = bytes data len.toNat
  else
    ∃ calls, r.world.handed = w.handed ++ calls ∧
      ∀ x ∈ calls, x.2 ≤ 240 ∧ bytes x.1 x.2.toNat = bytes data x.2.toNat

/-- The server refuses a send command of less than four words, and hands over the data of a longer
one if the socket is connected. -/
lemma netHandle_send {msg : Mem} (hcmd : arg msg 0 = 5) {w : NetWorld} {i : Nat}
    (hfind : findSocket w.netserv (arg msg 1) = some i)
    (hconn : (w.netserv.sockets i).state = .connected) (pid : Int) {size : Int} (hlo : 4 ≤ size) :
    (netHandleClientMessage w pid msg size).2.handed =
      if 16 ≤ size then w.handed ++ [(shift msg 12, arg msg 2)] else w.handed := by
  unfold netHandleClientMessage sendSocketData
  rw [hcmd, if_neg (by omega)]
  simp only [hfind, hconn]
  split <;> rfl

section Send

variable {sockId len : Int}

/-- The size of the message. -/
lemma send_size (hlen : 1 ≤ len) (data : Mem) :
    (ClientCall.netSocketSend sockId data len).size.toNat = 16 + (min len 240).toNat := by
  show (16 + (if len < 240 then len else 240)).toNat = _
  split <;> omega

/-- The request as the server reads it: the words behind the pid, and as many bytes of the client's
buffer as were copied. -/
lemma send_words (hsock : -2 ^ 31 ≤ sockId ∧ sockId < 2 ^ 31) (hlen : 1 ≤ len) (hmax : len < 2 ^ 31)
    (data msgBuffer stack : Mem) (t : Int) {n : Nat} (hn : n = (min len 240).toNat) :
    let msg := shift (deliver msgBuffer
      (bytes ((ClientCall.netSocketSend sockId data len).request t stack) (16 + n))) 4
    (arg msg 0 = 5 ∧ arg msg 1 = sockId ∧ arg msg 2 = len) ∧
      bytes (shift msg 12) n = bytes data n := by
  have hreq : (ClientCall.netSocketSend sockId data len).request t stack = copyAt data 16 n
      (setWords stack 0 [ofInt32 (syscallGetPid t), 5, ofInt32 sockId, ofInt32 len]) := by
    have hcopy : (if len < 240 then len else 240).toNat = n := by split <;> omega
    rw [← hcopy]
    rfl
  have hword : ∀ j v, j < 3 → -2 ^ 31 ≤ v → v < 2 ^ 31 →
      [ofInt32 (syscallGetPid t), 5, ofInt32 sockId, ofInt32 len][j + 1]? = some (ofInt32 v) →
      arg (shift (deliver msgBuffer
        (bytes ((ClientCall.netSocketSend sockId data len).request t stack) (16 + n))) 4) j = v := by
    intro j v hj hlo hhi hv
    rw [arg_shift, arg_deliver _ _ (by omega) (by omega), hreq]
    unfold arg word
    rw [load_copyAt_of_le _ _ _ (by omega)]
    exact arg_setWords stack hv hlo hhi
  refine ⟨⟨?_, ?_, ?_⟩, bytes_congr fun i hi => ?_⟩
  · exact hword 0 5 (by decide) (by decide) (by decide) rfl
  · exact hword 1 sockId (by decide) hsock.1 hsock.2 rfl
  · exact hword 2 len (by decide) (by omega) hmax rfl
  · unfold shift
    rw [deliver_apply _ _ (by omega) (by omega), hreq, copyAt_apply, if_pos (by omega)]
    congr 1
    omega

/-- The server hands over what it should exactly if the data is at least a word, and all of it is in
the message. -/
lemma sendAgrees_iff {S : Set Nat} {s : IpcState} {free : List Nat} {box : Int → List Letter}
    (h : Rep S s free box) {t : Int} {data stack : Mem} {slot : Nat} {l : List Letter}
    (hsock : -2 ^ 31 ≤ sockId ∧ sockId < 2 ^ 31) (hlen : 1 ≤ len) (hmax : len < 2 ^ 31)
    (hb : box netServerPid = (ClientCall.netSocketSend sockId data len).letter t stack slot :: l)
    {w : NetWorld} {i : Nat} (hfind : findSocket w.netserv sockId = some i)
    (hconn : (w.netserv.sockets i).state = .connected) (msgBuffer : Mem) :
    SendAgrees w data len (serve netHandleClientMessage w s netServerPid msgBuffer) ↔
      4 ≤ len ∧ len ≤ 240 := by
  generalize ha : (ClientCall.netSocketSend sockId data len).letter t stack slot = a at hb
  obtain ⟨n, hn⟩ : ∃ n, n = (min len 240).toNat := ⟨_, rfl⟩
  have hbody : a.body =
      bytes ((ClientCall.netSocketSend sockId data len).request t stack) (16 + n) := by
    rw [← ha, hn, ← send_size hlen data]
    rfl
  obtain ⟨⟨hcmd, hid, harg⟩, hdata⟩ := send_words hsock hlen hmax data msgBuffer stack t hn
  rw [← hbody] at hcmd hid harg hdata
  have hbytes : (a.body.length : Int) - 4 = 12 + n := by
    rw [hbody, length_bytes]
    omega
  obtain ⟨hworld, _⟩ := serve_result netHandleClientMessage w msgBuffer h hb Prod.mk.eta.symm
  have hhanded := netHandle_send hcmd (hid ▸ hfind) hconn (arg (deliver msgBuffer a.body) 0)
    (show 4 ≤ (a.body.length : Int) - 4 by omega)
  rw [← hworld, harg] at hhanded
  unfold SendAgrees
  rw [hhanded]
  by_cases hlong : len ≤ 240
  · rw [if_pos hlong]
    have hnlen : n = len.toNat := by omega
    by_cases hword : 4 ≤ len
    · rw [if_pos (by omega)]
      refine iff_of_true ⟨_, rfl, ?_⟩ ⟨hword, hlong⟩
      rw [← hnlen]
      exact hdata
    · -- the data counts as part of the command
      rw [if_neg (by omega)]
      apply iff_of_false
      · rintro ⟨m, hm, _⟩
        have hlength := congrArg List.length hm
        rw [List.length_append, List.length_singleton] at hlength
        exact Nat.succ_ne_self _ hlength.symm
      · exact fun hr => hword hr.1
  · -- the length of the whole buffer is passed on
    rw [if_neg hlong, if_pos (by omega)]
    apply iff_of_false
    · rintro ⟨calls, hcalls, hall⟩
      have heq := List.append_cancel_left hcalls
      have hlast := (hall (_, len) (heq ▸ List.mem_singleton_self _)).1
      exact hlong hlast
    · exact fun hr => hlong hr.2

end Send

/-- In every reachable state of the message system `net_socket_send` posts its letter if it can send
at all; and whenever the network server takes it, in any state of the server in which the socket is
connected, the server hands over the client's bytes, and no others, exactly if the length is from 4
to 240. -/
theorem send_codec (n : Nat) (s₀ : IpcState) (h₀ : Initial n s₀) (ops : List IpcOp) (s : History)
    (hrun : History.run s₀ ops = some s) (t sockId len : Int) (data stack : Mem)
    (hsock : -2 ^ 31 ≤ sockId ∧ sockId < 2 ^ 31) (hlen : 1 ≤ len) (hmax : len < 2 ^ 31) :
    ((netSocketSend s.ipc t stack sockId data len).requested = true → ∃ slot,
      (netSocketSend s.ipc t stack sockId data len).afterSend.pending =
        post s.ipc.pending netServerPid
          ((ClientCall.netSocketSend sockId data len).letter t stack slot)) ∧
    ∀ slot l, s.ipc.pending netServerPid =
        (ClientCall.netSocketSend sockId data len).letter t stack slot :: l →
      ∀ w i msgBuffer, findSocket w.netserv sockId = some i →
        (w.netserv.sockets i).state = .connected →
        (SendAgrees w data len (serve netHandleClientMessage w s.ipc netServerPid msgBuffer) ↔
          4 ≤ len ∧ len ≤ 240) := by
  obtain ⟨slots, free, box, hrep, _⟩ := History.inv_of_run h₀ hrun
  constructor
  · exact (ClientCall.netSocketSend sockId data len).exec_posts hrep t stack
  · intro slot l hb w i msgBuffer hfind hconn
    rw [hrep.pending_eq] at hb
    exact sendAgrees_iff hrep hsock hlen hmax hb hfind hconn msgBuffer

theorem send_codec_four :
    ∃ (s : History) (slot : Nat), s.ipc.pending netServerPid =
        [(ClientCall.netSocketSend 1 (fun _ => 7) 4).letter 1 (fun _ => 0) slot] ∧
      SendAgrees connectedNet (fun _ => 7) 4
        (serve netHandleClientMessage connectedNet s.ipc netServerPid fun _ => 0) := by
  obtain ⟨s, slot, hrun, hb⟩ :=
    (ClientCall.netSocketSend 1 (fun _ => 7) 4).letter_sent (by decide) 1 fun _ => 0
  have hcodec := send_codec 2 poolState poolState_initial _ s hrun 1 1 4 (fun _ => 7) (fun _ => 0)
    (by decide) (by decide) (by decide)
  refine ⟨s, slot, hb, (hcodec.2 slot [] hb connectedNet 0 (fun _ => 0) ?_ ?_).mpr (by decide)⟩
  · decide +kernel
  · decide +kernel

/-- Task 1 sends one byte. -/
theorem send_codec_fails :
    ∃ s slot, Initial 2 poolState ∧
      History.run poolState [.sendMessage 1 netServerPid
        (some ((ClientCall.netSocketSend 1 (fun _ => 7) 1).request 1 fun _ => 0)) 17] = some s ∧
      s.ipc.pending netServerPid =
        [(ClientCall.netSocketSend 1 (fun _ => 7) 1).letter 1 (fun _ => 0) slot] ∧
      findSocket connectedNet.netserv 1 = some 0 ∧
      (connectedNet.netserv.sockets 0).state = .connected ∧
      ¬SendAgrees connectedNet (fun _ => 7) 1
        (serve netHandleClientMessage connectedNet s.ipc netServerPid fun _ => 0) := by
  obtain ⟨s, slot, hrun, hb⟩ :=
    (ClientCall.netSocketSend 1 (fun _ => 7) 1).letter_sent (by decide) 1 fun _ => 0
  obtain ⟨slots, free, box, hrep, _⟩ := History.inv_of_run poolState_initial hrun
  have hfind : findSocket connectedNet.netserv 1 = some 0 := by decide +kernel
  have hconn : (connectedNet.netserv.sockets 0).state = .connected := by decide +kernel
  refine ⟨s, slot, poolState_initial, hrun, hb, hfind, hconn, ?_⟩
  rw [sendAgrees_iff hrep (by decide) (by decide) (by decide) (hrep.pending_eq ▸ hb) hfind hconn]
  decide

end Hydra.Server
