import Hydra.LibNet.Socket
import Hydra.Server.Request

/-!
# Payloads

`send` and `sendto` of `lib/libnet/socket.c` send the bytes of the program as they are, with no
command in front of them, to the task that they take for the network server. The server reads every
message as a pid, a command and its arguments. So whoever runs the server takes the payload for a
command, and a payload is transmitted only if it happens to spell a send command whose data is the
payload itself (`payload_transmitted`).
-/

namespace Hydra.LibNet
open ByteMem Mailbox Hydra.Ipc Hydra.LibHydra Hydra.Server

/-! ## What the calls send -/

/-- The calls that send a payload. -/
inductive PayloadCall where
  | send
  | sendto

namespace PayloadCall

/-- The call with its arguments. -/
def exec (c : PayloadCall) (sockets : Table) (s : IpcState) (currentTask sockfd : Int) (buf : Mem)
    (len : Nat) : Int × IpcState :=
  match c with
  | send => LibNet.send sockets s currentTask sockfd buf len
  | sendto => LibNet.sendto sockets s currentTask sockfd buf len

/-- The socket is one that the call can be used on. -/
def Permitted (c : PayloadCall) (sockets : Table) (sockfd : Int) : Prop :=
  ∃ idx, index sockfd = some idx ∧
    match c with
    | send => (sockets idx).state = .connected
    | sendto => (sockets idx).type = sockDgram

lemma exec_permitted {c : PayloadCall} {sockets : Table} {sockfd : Int}
    (hc : c.Permitted sockets sockfd) (s : IpcState) (t : Int) (buf : Mem) {len : Nat}
    (hlen : len ≤ 256) :
    c.exec sockets s t sockfd buf len = sendMessage s t netServerPid (some buf) len := by
  obtain ⟨idx, hidx, hperm⟩ := hc
  have hsize : toInt32 (len % 2 ^ 32) = len := by
    unfold toInt32
    split <;> omega
  cases c with
  | send =>
    simp only [exec, LibNet.send, hidx, if_neg (not_not_intro hperm), hsize]
    rfl
  | sendto =>
    simp only [exec, LibNet.sendto, hidx, if_neg (not_not_intro hperm), hsize]
    rfl

/-- A permitted call fails without effect, or posts the bytes of the program. -/
lemma exec_posts {S : Set Nat} {s : IpcState} {free : List Nat} {box : Int → List Letter}
    (h : Rep S s free box) {c : PayloadCall} {sockets : Table} {sockfd : Int}
    (hc : c.Permitted sockets sockfd) (t : Int) (buf : Mem) {len : Nat} (hlen : len ≤ 256) :
    c.exec sockets s t sockfd buf len = (-1, s) ∨
    ∃ slot, (c.exec sockets s t sockfd buf len).1 = 0 ∧
      (c.exec sockets s t sockfd buf len).2.pending =
        post s.pending netServerPid ⟨slot, t, bytes buf len⟩ := by
  rw [exec_permitted hc s t buf hlen]
  rcases sendMessage_cases h t netServerPid (some buf) len with
    ⟨e, _⟩ | ⟨f, free', src, s', _, hsrc, _, e, h'⟩
  · exact .inl e
  · right
    obtain rfl := Option.some.inj hsrc
    rw [e, h.pending_eq]
    exact ⟨f, rfl, h'.pending_eq⟩

end PayloadCall

/-! ## What the server makes of it -/

/-- The server has a socket of this id, and it is connected. -/
def Connected (srv : NetServer) (sockId : Int) : Prop :=
  ∃ i, findSocket srv sockId = some i ∧ (srv.sockets i).state = .connected

/-- The server that runs as task `t` hands the payload to the driver, for a connected socket, and
does nothing else: its sockets are as before, and if it answers then the sender. The driver is not
told the socket. -/
structure Transmits (w : NetWorld) (s : IpcState) (t pid sockId : Int) (buf : Mem) (n : Nat)
    (r : Served NetWorld) : Prop where
  connected : Connected w.netserv sockId
  handed : ∃ data, r.world.handed = w.handed ++ [(data, (n : Int))] ∧ bytes data n = bytes buf n
  untouched : r.world.netserv = w.netserv
  replies : r.ipc.pending = take s.pending t ∨
    ∃ b, r.ipc.pending = post (take s.pending t) pid b

/-- The payload is a send command whose data is the payload: its words are the pid of the sender,
or one that no task has, the command, a connected socket and the length, and it repeats itself
after these 16 bytes, for the last of them in what an earlier message left in the buffer. -/
structure SendsItself (w : NetWorld) (pid : Int) (msgBuffer buf : Mem) (n : Nat) : Prop where
  whole : 20 ≤ n
  sender : arg buf 0 = pid ∨ ¬(0 ≤ arg buf 0 ∧ arg buf 0 < maxTasks)
  command : arg buf 1 = 5
  socket : Connected w.netserv (arg buf 2)
  length : arg buf 3 = n
  data : ∀ i < n, deliver msgBuffer (bytes buf n) (16 + i) = buf i

/-- The data goes to the driver if the socket is connected, and nothing happens otherwise. -/
lemma sendSocketData_cases (w : NetWorld) (sockId : Int) (data : Mem) (len : Int) :
    (Connected w.netserv sockId ∧ ∃ v stats, sendSocketData w sockId data len =
      (v, { w with stats := stats, handed := w.handed ++ [(data, len)] })) ∨
    sendSocketData w sockId data len = (-1, w) := by
  unfold sendSocketData Connected
  cases h : findSocket w.netserv sockId with
  | none => exact .inr rfl
  | some i =>
    by_cases hconn : (w.netserv.sockets i).state = .connected
    · left
      simp only [if_neg (not_not_intro hconn)]
      exact ⟨⟨i, rfl, hconn⟩, _, _, rfl⟩
    · right
      simp only [if_pos hconn]

lemma sendSocketData_connected {w : NetWorld} {sockId : Int} (h : Connected w.netserv sockId)
    (data : Mem) (len : Int) : ∃ v stats, sendSocketData w sockId data len =
      (v, { w with stats := stats, handed := w.handed ++ [(data, len)] }) := by
  obtain ⟨i, hfind, hconn⟩ := h
  unfold sendSocketData
  simp only [hfind, if_neg (not_not_intro hconn)]
  exact ⟨_, _, rfl⟩

lemma netHandle_send (w : NetWorld) (pid : Int) {msg : Mem} {size : Int} (hsize : 16 ≤ size)
    (hcmd : arg msg 0 = 5) :
    netHandleClientMessage w pid msg size =
      (some (intReply (sendSocketData w (arg msg 1) (shift msg 12) (arg msg 2)).1),
        (sendSocketData w (arg msg 1) (shift msg 12) (arg msg 2)).2) := by
  unfold netHandleClientMessage
  rw [if_neg (by omega), hcmd]
  simp only [if_pos hsize]

lemma netRecvCommand_handed (w : NetWorld) (msg : Mem) :
    (netRecvCommand w msg).2.handed = w.handed := by
  rcases netRecvCommand_cases w msg with ⟨v, e, _⟩ | ⟨i, k, _, _, _, e⟩
  · rw [e]
  · rw [e]
    rfl

/-- Only a whole send command hands anything to the driver. -/
lemma netHandle_handed (w : NetWorld) (pid : Int) (msg : Mem) (size : Int) :
    (16 ≤ size ∧ arg msg 0 = 5) ∨ (netHandleClientMessage w pid msg size).2.handed = w.handed := by
  unfold netHandleClientMessage
  split
  · exact .inr rfl
  · split
    · right
      split <;> rfl
    · right
      split <;> rfl
    · right
      split <;> rfl
    · right
      split <;> rfl
    · next hcmd =>
      split
      · next hsize => exact .inl ⟨hsize, hcmd⟩
      · exact .inr rfl
    · right
      split
      · exact netRecvCommand_handed w msg
      · rfl
    · right
      split <;> rfl
    · exact .inr rfl

section Letter

variable {S : Set Nat} {s : IpcState} {free : List Nat} {box : Int → List Letter}
  (h : Rep S s free box) {r pid : Int} {buf : Mem} {n slot : Nat} {l : List Letter}
  (hb : box r = ⟨slot, pid, bytes buf n⟩ :: l) (hn : n ≤ 256) (w : NetWorld) (msgBuffer : Mem)
include h hb hn

/-- The server carries out the send command that the payload spells. -/
lemma serve_sendCommand (hwhole : 20 ≤ n) (hcmd : arg buf 1 = 5) :
    let sent := sendSocketData w (arg buf 2) (shift (deliver msgBuffer (bytes buf n)) 16) (arg buf 3)
    let served := serve netHandleClientMessage w s r msgBuffer
    served.world = sent.2 ∧
      ((served.ipc.pending = take s.pending r ∧ ¬(0 ≤ arg buf 0 ∧ arg buf 0 < maxTasks)) ∨
        (0 ≤ arg buf 0 ∧ arg buf 0 < maxTasks) ∧
          ∃ b, served.ipc.pending = post (take s.pending r) (arg buf 0) b) := by
  have hword : ∀ i, i < 4 → arg (shift (deliver msgBuffer (bytes buf n)) 4) i = arg buf (i + 1) := by
    intro i hi
    rw [arg_shift, arg_deliver _ _ (by omega) hn]
  have hpid : arg (deliver msgBuffer (bytes buf n)) 0 = arg buf 0 := arg_deliver _ _ (by omega) hn
  have hsize : (16 : Int) ≤ (bytes buf n).length - 4 := by
    rw [length_bytes]
    omega
  have hout := netHandle_send w (arg (deliver msgBuffer (bytes buf n)) 0) hsize
    ((hword 0 (by decide)).trans hcmd)
  rw [hword 1 (by decide), hword 2 (by decide), shift_shift] at hout
  obtain ⟨hworld, hsent⟩ := serve_result netHandleClientMessage w msgBuffer h hb hout
  rw [hpid] at hsent
  refine ⟨hworld, ?_⟩
  have hfour : (0 : Int) < 4 ∧ (4 : Int) ≤ maxMessageSize := by decide
  rcases hsent with ⟨e, hno⟩ | ⟨x, _, hok, e⟩
  · exact .inl ⟨e, fun hpid => hno _ rfl ⟨hpid, hfour, rfl⟩⟩
  · exact .inr ⟨hok.1, _, e⟩

/-- The payload is transmitted on a socket exactly if the socket is connected and the payload is the
send command for itself. -/
lemma transmits_iff (sockId : Int) :
    Transmits w s r pid sockId buf n (serve netHandleClientMessage w s r msgBuffer) ↔
      Connected w.netserv sockId ∧ SendsItself w pid msgBuffer buf n := by
  constructor
  · intro htrans
    obtain ⟨data, hhanded, hdata⟩ := htrans.handed
    obtain ⟨hwhole, hcmd⟩ : 20 ≤ n ∧ arg buf 1 = 5 := by
      obtain ⟨hworld, _⟩ := serve_result netHandleClientMessage w msgBuffer h hb Prod.mk.eta.symm
      rw [hworld] at hhanded
      rcases netHandle_handed w (arg (deliver msgBuffer (bytes buf n)) 0)
        (shift (deliver msgBuffer (bytes buf n)) 4) ((bytes buf n).length - 4) with ⟨hsize, hcmd⟩ | e
      · rw [length_bytes] at hsize
        rw [arg_shift, arg_deliver _ _ (by omega) hn] at hcmd
        exact ⟨by omega, hcmd⟩
      · rw [e] at hhanded
        simp at hhanded
    obtain ⟨hworld, hsent⟩ := serve_sendCommand h hb hn w msgBuffer hwhole hcmd
    rw [hworld] at hhanded
    rcases sendSocketData_cases w (arg buf 2) (shift (deliver msgBuffer (bytes buf n)) 16)
      (arg buf 3) with ⟨hconn, v, stats, e⟩ | e
    · rw [e] at hhanded
      obtain ⟨rfl, hlen⟩ := Prod.mk.inj (List.singleton_inj.mp (List.append_cancel_left hhanded))
      refine ⟨htrans.connected, hwhole, ?_, hcmd, hconn, hlen, bytes_eq_iff.mp hdata⟩
      rcases hsent with ⟨_, hno⟩ | ⟨_, b, e'⟩
      · exact .inr hno
      · left
        rcases htrans.replies with hnone | ⟨b', hpid⟩
        · exact absurd (e'.symm.trans hnone) (post_ne _ _ _)
        · exact (post_inj (e'.symm.trans hpid)).1
    · rw [e] at hhanded
      simp at hhanded
  · rintro ⟨hsock, hself⟩
    obtain ⟨hworld, hsent⟩ := serve_sendCommand h hb hn w msgBuffer hself.whole hself.command
    obtain ⟨v, stats, e⟩ := sendSocketData_connected hself.socket
      (shift (deliver msgBuffer (bytes buf n)) 16) (arg buf 3)
    rw [e] at hworld
    refine ⟨hsock, ⟨shift (deliver msgBuffer (bytes buf n)) 16, ?_, bytes_eq_iff.mpr hself.data⟩,
      ?_, ?_⟩
    · rw [hworld, hself.length]
    · rw [hworld]
    · rcases hsent with ⟨hnone, _⟩ | ⟨hvalid, b, hpost⟩
      · exact .inl hnone
      · rw [hself.sender.resolve_right (not_not_intro hvalid)] at hpost
        exact .inr ⟨b, hpost⟩

end Letter

/-- A permitted call fails without effect or posts the bytes of the program; and whichever task runs
the server that takes them, it transmits them on a given socket, and does nothing else, exactly if
that socket is connected and the payload is the send command for itself. -/
theorem payload_transmitted (n₀ : Nat) (s₀ : IpcState) (h₀ : Initial n₀ s₀) (ops : List IpcOp)
    (s : History) (hrun : History.run s₀ ops = some s) (t : Int) (buf : Mem) (n : Nat)
    (hn : 1 ≤ n ∧ n ≤ 256) :
    (∀ (c : PayloadCall) sockets sockfd, c.Permitted sockets sockfd →
      c.exec sockets s.ipc t sockfd buf n = (-1, s.ipc) ∨
      ∃ slot, (c.exec sockets s.ipc t sockfd buf n).1 = 0 ∧
        (c.exec sockets s.ipc t sockfd buf n).2.pending =
          post s.ipc.pending netServerPid ⟨slot, t, bytes buf n⟩) ∧
    ∀ r slot l, s.ipc.pending r = ⟨slot, t, bytes buf n⟩ :: l → ∀ w msgBuffer sockId,
      Transmits w s.ipc r t sockId buf n (serve netHandleClientMessage w s.ipc r msgBuffer) ↔
        Connected w.netserv sockId ∧ SendsItself w t msgBuffer buf n := by
  obtain ⟨slots, free, box, hrep, _⟩ := History.inv_of_run h₀ hrun
  constructor
  · intro c sockets sockfd hc
    exact PayloadCall.exec_posts hrep hc t buf hn.2
  · intro r slot l hb w msgBuffer sockId
    rw [hrep.pending_eq] at hb
    exact transmits_iff hrep hb hn.2 w msgBuffer sockId

/-- A payload of task 5 that is the send command for itself, on the socket 1. -/
def selfSending : Mem := fun i => setWords (fun _ => 0) 0 [5, 5, 1, 20] (i % 16)

/-- The network server with one connected socket. -/
def connectedNet : NetWorld :=
  { startedNet with
    netserv := (connectSocket (allocateSocket startedNet.netserv 5 sockTcp).2 1 0 0).2 }

theorem payload_transmitted_self :
    ∃ s, History.run poolState [.sendMessage 5 netServerPid (some selfSending) 20] = some s ∧
      Transmits connectedNet s.ipc 2 5 1 selfSending 20
        (serve netHandleClientMessage connectedNet s.ipc 2 selfSending) := by
  have hok : Sendable netServerPid (some selfSending) 20 := ⟨by decide, by decide, rfl⟩
  obtain ⟨s, slot, hrun, hb⟩ := History.send_one 5 hok
  have hsock : Connected connectedNet.netserv 1 := ⟨0, by decide +kernel, by decide +kernel⟩
  have hself : SendsItself connectedNet 5 selfSending selfSending 20 :=
    ⟨by decide, .inl (by decide +kernel), by decide +kernel, hsock, by decide +kernel,
      by decide +kernel⟩
  refine ⟨s, hrun, ?_⟩
  exact ((payload_transmitted 2 poolState poolState_initial _ s hrun 5 selfSending 20
    (by decide)).2 2 slot [] hb connectedNet selfSending 1).mpr ⟨hsock, hself⟩

/-- A datagram of three words that are all 1 is taken for the command to create a socket for
task 1. -/
theorem payload_transmitted_fails :
    PayloadCall.sendto.Permitted (socket bootTable afInet sockDgram 0).2 1 ∧
      ∃ s, PayloadCall.sendto.exec (socket bootTable afInet sockDgram 0).2 poolState 5 1
          (setWords (fun _ => 0) 0 [1, 1, 1]) 12 = (0, s) ∧
        (s.pending netServerPid).map Letter.body =
          [bytes (setWords (fun _ => 0) 0 [1, 1, 1]) 12] ∧
        startedNet.netserv.nextSocketId = 1 ∧
        (serve netHandleClientMessage startedNet s 2 (fun _ => 0)).world.netserv.nextSocketId = 2 ∧
        ∀ sockId, ¬Transmits startedNet s 2 5 sockId (setWords (fun _ => 0) 0 [1, 1, 1]) 12
          (serve netHandleClientMessage startedNet s 2 (fun _ => 0)) := by
  have hfacts : (fun r : Int × IpcState => (r.1, (r.2.pending netServerPid).map Letter.body,
      (serve netHandleClientMessage startedNet r.2 2 (fun _ => 0)).world.netserv.nextSocketId))
      (PayloadCall.sendto.exec (socket bootTable afInet sockDgram 0).2 poolState 5 1
        (setWords (fun _ => 0) 0 [1, 1, 1]) 12) =
      (0, [bytes (setWords (fun _ => 0) 0 [1, 1, 1]) 12], 2) := by decide +kernel
  obtain ⟨hret, hrest⟩ := Prod.mk.inj hfacts
  obtain ⟨hbody, hid⟩ := Prod.mk.inj hrest
  refine ⟨⟨0, by decide +kernel, by decide +kernel⟩, _, Prod.ext hret rfl, hbody,
    by decide +kernel, hid, fun sockId htrans => ?_⟩
  have hsame := hid.symm.trans (congrArg NetServer.nextSocketId htrans.untouched)
  exact absurd hsame (by decide +kernel)

end Hydra.LibNet
