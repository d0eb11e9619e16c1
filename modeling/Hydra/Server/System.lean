import Hydra.Server.Net
import Hydra.Server.Bullet
import Hydra.Server.Client
import Hydra.Lib.Run

/-!
# Clients and servers together

The message system shared by client tasks, the network server (task 4) and the bullet server
(task 3). A step is a whole client call, one iteration of a server loop between two yields, or any
other send or receive of a task; tasks are not interrupted, so these interleave in any order.

To say which request a message answers, a system carries a record that the code does not have: each
slot has a tag that tells what was last put into it, and each call is logged with the tag of the
message it received. A client never waits: it sends its request and looks once into its queue before
the server can run, so what it finds there was put there before. `reply_correlation` says that all
calls of a run are correlated exactly if none of them finds a message.
-/

namespace Hydra.Server
open ByteMem Mailbox Hydra.Ipc Hydra.LibHydra Hydra.Net

/-- What was put into a slot: the request of a client call, the reply of a server to it, or any
other message. -/
inductive Tag where
  | request (call : Nat)
  | reply (server : Int) (call : Nat)
  | other
  deriving DecidableEq, Repr

/-- A client call with its arguments. -/
inductive ClientCall where
  | netSocket (type : Int)
  | netBind (sockId : Int) (ip : UInt32) (port : UInt16)
  | netSocketSend (sockId : Int) (data : Mem) (len : Int)
  | bulletMigrateProcess (targetNode size : Int)
  | bulletCheckMigrationStatus (reqId : Int)

namespace ClientCall

/-- The server a call addresses. -/
def server : ClientCall → Int
  | netSocket _ => netServerPid
  | netBind _ _ _ => netServerPid
  | netSocketSend _ _ _ => netServerPid
  | bulletMigrateProcess _ _ => bulletServerPid
  | bulletCheckMigrationStatus _ => bulletServerPid

/-- The size of the request of a call. -/
def size : ClientCall → Int
  | netSocket _ => 12
  | netBind _ _ _ => 16
  | netSocketSend _ _ len => 16 + if len < 240 then len else 240
  | bulletMigrateProcess _ _ => 16
  | bulletCheckMigrationStatus _ => 12

/-- Execute a call by the task `t`. -/
def exec (s : IpcState) (t : Int) (stack : Mem) : ClientCall → CallResult
  | netSocket type => Server.netSocket s t stack type
  | netBind sockId ip port => Server.netBind s t stack sockId ip port
  | netSocketSend sockId data len => Server.netSocketSend s t stack sockId data len
  | bulletMigrateProcess targetNode size => Server.bulletMigrateProcess s t stack targetNode size
  | bulletCheckMigrationStatus reqId => Server.bulletCheckMigrationStatus s t stack reqId

end ClientCall

/-- The record of a call: its number, the server it addressed, and the tag of the message it
received, if any. -/
structure CallRecord where
  call : Nat
  server : Int
  received : Option Tag
  deriving DecidableEq

/-- A message received by the call is the reply of the addressed server to its own request. -/
def CallRecord.Correlated (c : CallRecord) : Prop :=
  ∀ tag, c.received = some tag → tag = .reply c.server c.call

instance (c : CallRecord) : Decidable c.Correlated :=
  match h : c.received with
  | none => isTrue (by simp [CallRecord.Correlated, h])
  | some tag => decidable_of_iff (tag = .reply c.server c.call) (by simp [CallRecord.Correlated, h])

/-- The message system and the two servers, with the record of slots and calls. -/
structure System where
  ipc : IpcState
  net : NetWorld
  netBuffer : Mem
  bullet : BulletServer
  bulletBuffer : Mem
  tag : Nat → Tag
  calls : Nat
  log : List CallRecord

/-- What happens next: a client call, an iteration of a server loop, or another send or receive. -/
inductive SystemOp where
  | call (t : Int) (stack : Mem) (c : ClientCall)
  | netServer (packetBuffer : Mem) (pkt : Option Packet)
  | bulletServer
  | send (t receiver : Int) (data : Option Mem) (size : Int)
  | recv (t sender : Int) (buffer : Option Mem) (maxSize : Int)

/-- The tag of a server's reply to a message. -/
def replyTag (server : Int) : Tag → Tag
  | .request call => .reply server call
  | _ => .other

namespace System

/-- The tags after a server iteration. -/
def tagReply (w : System) (server : Int) (taken replied : Option Nat) : Nat → Tag :=
  match taken, replied with
  | some p, some f => Function.update w.tag f (replyTag server (w.tag p))
  | _, _ => w.tag

/-- The tags after a client call. -/
def tagRequest (w : System) (r : CallResult) : Nat → Tag :=
  if r.requested then Function.update w.tag w.ipc.freeMessages (.request w.calls) else w.tag

/-- The tag of the message that a client call by the task `t` received. -/
def received (w : System) (t : Int) (r : CallResult) : Option Tag :=
  if 0 < r.recvRet then some (w.tagRequest r (r.afterSend.messageQueues t).head) else none

/-- A client call by the task `t`. -/
def call (w : System) (t : Int) (stack : Mem) (c : ClientCall) : System :=
  let r := c.exec w.ipc t stack
  { w with
    ipc := r.state
    tag := w.tagRequest r
    calls := w.calls + 1
    log := w.log ++ [⟨w.calls, c.server, w.received t r⟩] }

/-- The network server from one yield to the next: the server starts with its initialisation. -/
def netServer (w : System) (packetBuffer : Mem) (pkt : Option Packet) : System :=
  let net := if w.net.netserv.active then w.net
    else { w.net with netserv := netServerInit w.net.netserv netServerPid }
  let r := netServerBody net w.ipc netServerPid w.netBuffer packetBuffer pkt
  { w with
    ipc := r.ipc
    net := r.world
    netBuffer := r.msgBuffer
    tag := w.tagReply netServerPid r.taken r.replied }

/-- The bullet server from one yield to the next. -/
def bulletServer (w : System) : System :=
  let bullet := if w.bullet.active then w.bullet else bulletInit w.bullet bulletServerPid
  let r := bulletServerBody bullet w.ipc bulletServerPid w.bulletBuffer
  { w with
    ipc := r.ipc
    bullet := r.world
    bulletBuffer := r.msgBuffer
    tag := w.tagReply bulletServerPid r.taken r.replied }

/-- Any other send. -/
def send (w : System) (t receiver : Int) (data : Option Mem) (size : Int) : System :=
  let result := syscallSendMsg w.ipc t receiver data size
  { w with
    ipc := result.2
    tag := if result.1 = 0 then Function.update w.tag w.ipc.freeMessages .other else w.tag }

/-- Any other receive. -/
def recv (w : System) (t sender : Int) (buffer : Option Mem) (maxSize : Int) : System :=
  { w with ipc := (syscallRecvMsg w.ipc t sender buffer maxSize).state }

/-- One step of the system. -/
def step (w : System) : SystemOp → Option System
  | .call t stack c => some (w.call t stack c)
  | .netServer packetBuffer pkt => some (w.netServer packetBuffer pkt)
  | .bulletServer => some w.bulletServer
  | .send t receiver data size => some (w.send t receiver data size)
  | .recv t sender buffer maxSize => some (w.recv t sender buffer maxSize)

/-- The system when the message system has been set up and no server has run: the servers' static
variables are cleared, their message buffers hold anything. -/
def boot (ipc : IpcState) (netBuffer bulletBuffer : Mem) : System where
  ipc := ipc
  net := {
    netserv := {
      serverPid := 0
      sockets := fun _ => ⟨0, 0, 0, .closed, 0, 0, 0, 0, fun _ => 0, 0, 0, 0, false⟩
      nextSocketId := 0
      active := false }
    stats := ⟨0, 0, 0, 0, 0, 0⟩
    handed := [] }
  netBuffer := netBuffer
  bullet := {
    serverPid := 0
    requests := fun _ => ⟨0, 0, 0, 0, 0⟩
    numRequests := 0
    active := false }
  bulletBuffer := bulletBuffer
  tag := fun _ => .other
  calls := 0
  log := []

/-- The run of a list of operations. -/
abbrev run (w : System) (ops : List SystemOp) : Option System := Run.run step w ops

end System

/-! ## Client calls -/

section Calls

variable {S : Set Nat} {s : IpcState} {free : List Nat} {box : Int → List Letter}

lemma sendRetry_fail {t server size : Int} {cmdData : Mem}
    (h : sendMessage s t server (some cmdData) size = (-1, s)) (retries : Nat) :
    sendRetry server cmdData size t retries s = (0, s) := by
  induction retries with
  | zero => rfl
  | succ retries ih =>
    unfold sendRetry syscallSendMsg
    simp only [h]
    exact ih

lemma sendRetry_ok {t server size : Int} {cmdData : Mem} {s' : IpcState}
    (h : sendMessage s t server (some cmdData) size = (0, s')) (retries : Nat) :
    sendRetry server cmdData size t (retries + 1) s = (retries + 1, s') := by
  unfold sendRetry syscallSendMsg
  simp only [h]
  rfl

/-- A call either fails to send its request and gives up, or it posts the request to the server.
Then it takes the oldest letter of its own box, or finds none there. -/
lemma clientCall_cases (h : Rep S s free box) (t : Int) {server size : Int}
    (hserver : 0 ≤ server ∧ server < maxTasks) (hsize : size ≤ maxMessageSize) (cmdData : Mem) :
    (clientCall s t server cmdData size = ⟨-1, s, false, s, -1⟩ ∧ (size ≤ 0 ∨ free = [])) ∨
    ∃ f free' a s₁ r, free = f :: free' ∧ a = ⟨f, t, bytes cmdData size.toNat⟩ ∧ 0 < size ∧
      clientCall s t server cmdData size = r ∧ r.requested = true ∧ r.afterSend = s₁ ∧
      Rep S s₁ free' (post box server a) ∧
      ((r.recvRet = -1 ∧ r.state = s₁ ∧ (¬(0 ≤ t ∧ t < maxTasks) ∨ post box server a t = [])) ∨
        ∃ b l, post box server a t = b :: l ∧ (0 ≤ t ∧ t < maxTasks) ∧ 0 < r.recvRet ∧
          Rep S r.state (b.slot :: free') (take (post box server a) t)) := by
  rcases sendMessage_cases h t server (some cmdData) size with
    ⟨e, hnot⟩ | ⟨f, free', src, s₁, hfree, hsrc, hok, e, h₁⟩
  · left
    refine ⟨?_, hnot.imp_left fun hno => ?_⟩
    · unfold clientCall
      simp only [sendRetry_fail e, if_true]
    · by_contra hpos
      exact hno ⟨hserver, ⟨by omega, hsize⟩, rfl⟩
  · right
    obtain rfl : cmdData = src := Option.some.inj hsrc
    have hcall : clientCall s t server cmdData size =
        ⟨arg ((recvMessage s₁ t server (some (intBytes (-1))) 4).buffer.getD (intBytes (-1))) 0,
          (recvMessage s₁ t server (some (intBytes (-1))) 4).state, true, s₁,
          (recvMessage s₁ t server (some (intBytes (-1))) 4).ret⟩ := by
      unfold clientCall
      simp only [sendRetry_ok e]
      rfl
    refine ⟨f, free', _, s₁, _, hfree, rfl, hok.2.1.1, hcall, rfl, rfl, h₁, ?_⟩
    rcases recvMessage_cases h₁ t server (some (intBytes (-1))) 4 with
      ⟨e', hnot⟩ | ⟨b, l, dst, s₂, hb, _, hok', e', h₂⟩
    · left
      rw [e']
      refine ⟨rfl, rfl, hnot.imp_left fun hno ht => ?_⟩
      exact hno ⟨rfl, by decide, ht⟩
    · right
      have hpos := (h₁.holds t b (by simp [hb])).pos
      rw [e']
      exact ⟨b, l, hb, hok'.2.2, by simpa using hpos, h₂⟩

namespace ClientCall

lemma server_valid (c : ClientCall) : 0 ≤ c.server ∧ c.server < maxTasks := by
  cases c with
  | netSocket | netBind | netSocketSend =>
    show (0 : Int) ≤ 4 ∧ (4 : Int) < 8
    decide
  | bulletMigrateProcess | bulletCheckMigrationStatus =>
    show (0 : Int) ≤ 3 ∧ (3 : Int) < 8
    decide

lemma size_le (c : ClientCall) : c.size ≤ maxMessageSize := by
  cases c with
  | netSocketSend sockId data len =>
    show 16 + (if len < 240 then len else 240) ≤ 256
    split <;> omega
  | netSocket | bulletCheckMigrationStatus => show (12 : Int) ≤ 256; decide
  | netBind | bulletMigrateProcess => show (16 : Int) ≤ 256; decide

lemma exec_eq (c : ClientCall) (s : IpcState) (t : Int) (stack : Mem) :
    ∃ cmdData, c.exec s t stack = clientCall s t c.server cmdData c.size := by
  cases c <;> exact ⟨_, rfl⟩

lemma exec_rep (h : Rep S s free box) (t : Int) (stack : Mem) (c : ClientCall) :
    ∃ free' box', Rep S (c.exec s t stack).state free' box' := by
  obtain ⟨cmdData, e⟩ := c.exec_eq s t stack
  rw [e]
  rcases clientCall_cases h t c.server_valid c.size_le cmdData with
    ⟨e', _⟩ | ⟨f, free', a, s₁, r, _, _, _, e', _, _, h₁, hrest⟩
  · rw [e']
    exact ⟨free, box, h⟩
  · rw [e']
    rcases hrest with ⟨_, hs, _⟩ | ⟨b, l, _, _, _, h₂⟩
    · rw [hs]
      exact ⟨_, _, h₁⟩
    · exact ⟨_, _, h₂⟩

end ClientCall

/-- A call finds no message: the task does not exist, the request cannot be sent, or nothing is
queued for the task, which is not the server itself. -/
def Quiet (s : IpcState) (t : Int) (c : ClientCall) : Prop :=
  ¬(0 ≤ t ∧ t < maxTasks) ∨ c.size ≤ 0 ∨ s.freeMessages = 0 ∨
    ((s.messageQueues t).head = 0 ∧ t ≠ c.server)

lemma post_eq_nil (a : Letter) (server t : Int) :
    post box server a t = [] ↔ box t = [] ∧ t ≠ server := by
  rcases eq_or_ne t server with rfl | hne
  · simp
  · simp [hne]

/-- A call receives a message exactly if it is not quiet. -/
lemma exec_received (h : Rep S s free box) (t : Int) (stack : Mem) (c : ClientCall) :
    0 < (c.exec s t stack).recvRet ↔ ¬Quiet s t c := by
  have hfree : s.freeMessages = 0 ↔ free = [] := h.pool.head_eq_zero
  have hhead := h.head_eq_zero t
  obtain ⟨cmdData, e⟩ := c.exec_eq s t stack
  rw [e]
  unfold Quiet
  rw [hfree, hhead]
  rcases clientCall_cases h t c.server_valid c.size_le cmdData with
    ⟨e', hfail⟩ | ⟨f, free', a, s₁, r, hcons, _, hpos, e', _, _, _, hrest⟩
  · rw [e']
    apply iff_of_false
    · show ¬(0 : Int) < -1
      decide
    · exact not_not_intro (.inr (hfail.imp_right .inl))
  · rw [e']
    rw [post_eq_nil] at hrest
    rcases hrest with ⟨hret, _, hnone⟩ | ⟨b, l, hb, ht, hret, _⟩
    · apply iff_of_false
      · rw [hret]
        decide
      · exact not_not_intro (hnone.imp_right fun hnil => .inr (.inr hnil))
    · apply iff_of_true hret
      rintro (hno | hsize | hnil | hempty)
      · exact hno ht
      · omega
      · simp [hcons] at hnil
      · rw [(post_eq_nil a c.server t).mpr hempty] at hb
        cases hb

end Calls

/-! ## Tags -/

/-- The tag belongs to one of the first `n` calls, if to any. -/
def Tag.Before (n : Nat) : Tag → Prop
  | .request call => call < n
  | .reply _ call => call < n
  | .other => True

lemma Tag.Before.mono {n m : Nat} (h : n ≤ m) {tag : Tag} (ht : tag.Before n) : tag.Before m := by
  cases tag with
  | request call => exact lt_of_lt_of_le ht h
  | reply server call => exact lt_of_lt_of_le ht h
  | other => trivial

lemma Tag.Before.reply {n : Nat} {tag : Tag} (ht : tag.Before n) (server : Int) :
    (replyTag server tag).Before n := by
  cases tag with
  | request call => exact ht
  | reply _ call => trivial
  | other => trivial

namespace System

variable {w : System}

lemma before_update {n : Nat} {tags : Nat → Tag} (h : ∀ p, (tags p).Before n) {tag : Tag}
    (ht : tag.Before n) (f p : Nat) : (Function.update tags f tag p).Before n := by
  rcases eq_or_ne p f with rfl | hne
  · rw [Function.update_self]
    exact ht
  · rw [Function.update_of_ne hne]
    exact h p

lemma tagReply_before (h : ∀ p, (w.tag p).Before w.calls) (server : Int)
    (taken replied : Option Nat) (p : Nat) :
    (w.tagReply server taken replied p).Before w.calls := by
  cases taken with
  | none => exact h p
  | some q =>
    cases replied with
    | none => exact h p
    | some f => exact before_update h ((h q).reply server) f p

lemma tagRequest_before (h : ∀ p, (w.tag p).Before w.calls) (r : CallResult) (p : Nat) :
    (w.tagRequest r p).Before (w.calls + 1) := by
  have hle : ∀ p, (w.tag p).Before (w.calls + 1) := fun p => (h p).mono (Nat.le_succ _)
  have hreq : Tag.Before (w.calls + 1) (.request w.calls) := Nat.lt_succ_self w.calls
  unfold tagRequest
  split
  · exact before_update hle hreq _ p
  · exact hle p

/-- When a call looks for a message, no server has replied to it. -/
lemma tagRequest_ne (h : ∀ p, (w.tag p).Before w.calls) (r : CallResult) (p : Nat) (server : Int) :
    w.tagRequest r p ≠ .reply server w.calls := by
  have hold : w.tag p ≠ .reply server w.calls := fun e => by
    have hlt := h p
    rw [e] at hlt
    exact lt_irrefl _ hlt
  unfold tagRequest
  split
  · rcases eq_or_ne p w.ipc.freeMessages with rfl | hne
    · rw [Function.update_self]
      exact Tag.noConfusion
    · rwa [Function.update_of_ne hne]
  · exact hold

/-- What a call receives is not the reply to its request. -/
lemma received_ne (h : ∀ p, (w.tag p).Before w.calls) (t : Int) (r : CallResult) (server : Int) :
    w.received t r ≠ some (.reply server w.calls) := by
  unfold received
  split
  · exact fun e => tagRequest_ne h r _ server (Option.some.inj e)
  · exact nofun

/-! ## The invariant -/

/-- The message system is consistent, every slot has a tag of an earlier call, and no call so far
received the reply to its own request. -/
structure Inv (w : System) : Prop where
  rep : ∃ S free box, Rep S w.ipc free box
  before : ∀ p, (w.tag p).Before w.calls
  foreign : ∀ c ∈ w.log, c.received ≠ some (.reply c.server c.call)

/-- A server iteration receives and sends at most once each. -/
lemma serve_rep {W : Type} (handle : W → Int → Mem → Int → Option Reply × W) (world : W)
    {S : Set Nat} {s : IpcState} {free : List Nat} {box : Int → List Letter}
    (h : Rep S s free box) (t : Int) (msgBuffer : Mem) :
    ∃ free' box', Rep S (serve handle world s t msgBuffer).ipc free' box' := by
  cases hb : box t with
  | nil =>
    rw [serve_idle handle world msgBuffer h hb]
    exact ⟨free, box, h⟩
  | cons a l =>
    obtain ⟨s₁, h₁, e⟩ := serve_letter handle world msgBuffer h hb
    rw [e]
    rcases sendReply_cases h₁ t (arg (deliver msgBuffer a.body) 0)
      (handle world (arg (deliver msgBuffer a.body) 0) (shift (deliver msgBuffer a.body) 4)
        (a.body.length - 4)).1 with ⟨e', _⟩ | ⟨f, free', x, s₂, _, _, _, e', h₂⟩
    · simp only [e']
      exact ⟨_, _, h₁⟩
    · simp only [e']
      exact ⟨_, _, h₂⟩

lemma call_inv (h : w.Inv) (t : Int) (stack : Mem) (c : ClientCall) :
    (w.call t stack c).Inv := by
  obtain ⟨S, free, box, hrep⟩ := h.rep
  refine ⟨⟨S, ClientCall.exec_rep hrep t stack c⟩, tagRequest_before h.before _, ?_⟩
  intro c' hc'
  have hlog : c' ∈ w.log ++ [⟨w.calls, c.server, w.received t (c.exec w.ipc t stack)⟩] := hc'
  rcases List.mem_append.mp hlog with hold | hnew
  · exact h.foreign c' hold
  · rw [List.mem_singleton.mp hnew]
    exact received_ne h.before t _ c.server

lemma netServer_inv (h : w.Inv) (packetBuffer : Mem) (pkt : Option Packet) :
    (w.netServer packetBuffer pkt).Inv := by
  obtain ⟨S, free, box, hrep⟩ := h.rep
  exact ⟨⟨S, serve_rep netHandleClientMessage _ hrep netServerPid w.netBuffer⟩,
    tagReply_before h.before netServerPid _ _, h.foreign⟩

lemma bulletServer_inv (h : w.Inv) : w.bulletServer.Inv := by
  obtain ⟨S, free, box, hrep⟩ := h.rep
  exact ⟨⟨S, serve_rep bulletHandleClientMessage _ hrep bulletServerPid w.bulletBuffer⟩,
    tagReply_before h.before bulletServerPid _ _, h.foreign⟩

lemma send_inv (h : w.Inv) (t receiver : Int) (data : Option Mem) (size : Int) :
    (w.send t receiver data size).Inv := by
  obtain ⟨S, free, box, hrep⟩ := h.rep
  refine ⟨⟨S, sendMessage_rep hrep t receiver data size⟩, fun p => ?_, h.foreign⟩
  unfold send
  simp only
  split
  · exact before_update h.before (show Tag.Before w.calls .other from trivial) _ p
  · exact h.before p

lemma recv_inv (h : w.Inv) (t sender : Int) (buffer : Option Mem) (maxSize : Int) :
    (w.recv t sender buffer maxSize).Inv := by
  obtain ⟨S, free, box, hrep⟩ := h.rep
  exact ⟨⟨S, recvMessage_rep hrep t sender buffer maxSize⟩, h.before, h.foreign⟩

lemma step_inv (h : w.Inv) (op : SystemOp) : ∃ w', step w op = some w' ∧ w'.Inv := by
  cases op with
  | call t stack c => exact ⟨_, rfl, call_inv h t stack c⟩
  | netServer packetBuffer pkt => exact ⟨_, rfl, netServer_inv h packetBuffer pkt⟩
  | bulletServer => exact ⟨_, rfl, bulletServer_inv h⟩
  | send t receiver data size => exact ⟨_, rfl, send_inv h t receiver data size⟩
  | recv t sender buffer maxSize => exact ⟨_, rfl, recv_inv h t sender buffer maxSize⟩

lemma boot_inv {n : Nat} {s₀ : IpcState} (h₀ : Initial n s₀) (netBuffer bulletBuffer : Mem) :
    (boot s₀ netBuffer bulletBuffer).Inv := by
  obtain ⟨slots, _, hrep⟩ := h₀.rep
  exact ⟨⟨_, _, _, hrep⟩, fun _ => trivial, nofun⟩

/-! ## Correlation -/

/-- A call is quiet; the other operations always are. -/
def QuietOp (w : System) : SystemOp → Prop
  | .call t _ c => Quiet w.ipc t c
  | _ => True

lemma correlated_iff (h : w.Inv) {c : CallRecord} (hc : c ∈ w.log) :
    c.Correlated ↔ c.received = none := by
  cases e : c.received with
  | none => exact iff_of_true (fun tag ht => by rw [e] at ht; cases ht) rfl
  | some tag =>
    apply iff_of_false
    · intro hcor
      exact h.foreign c hc (by rw [e, hcor tag e])
    · exact nofun

/-- A step keeps all calls correlated exactly if it is quiet. -/
lemma step_correlated (h : w.Inv) {op : SystemOp} {w' : System} (hstep : step w op = some w') :
    (∀ c ∈ w'.log, c.Correlated) ↔ (∀ c ∈ w.log, c.Correlated) ∧ QuietOp w op := by
  cases op with
  | call t stack c =>
    obtain rfl : w.call t stack c = w' := Option.some.inj hstep
    obtain ⟨S, free, box, hrep⟩ := h.rep
    have hnew : ⟨w.calls, c.server, w.received t (c.exec w.ipc t stack)⟩ ∈ (w.call t stack c).log :=
      List.mem_append_right _ (List.mem_singleton_self _)
    have hquiet : w.received t (c.exec w.ipc t stack) = none ↔ Quiet w.ipc t c := by
      have hrecv := exec_received hrep t stack c
      unfold received
      rw [ite_eq_right_iff, hrecv]
      constructor
      · exact fun hno => not_not.mp fun hq => nomatch hno hq
      · exact fun hq hno => absurd hq hno
    have hlast := correlated_iff (call_inv h t stack c) hnew
    show (∀ c' ∈ w.log ++ [_], _) ↔ _ ∧ Quiet w.ipc t c
    rw [List.forall_mem_append, List.forall_mem_singleton, hlast, hquiet]
  | netServer | bulletServer | send | recv =>
    obtain rfl := Option.some.inj hstep
    exact (and_iff_left trivial).symm

lemma run_correlated (h : w.Inv) {ops : List SystemOp} {w' : System} (hrun : run w ops = some w') :
    (∀ c ∈ w'.log, c.Correlated) ↔
      (∀ c ∈ w.log, c.Correlated) ∧ Run.Admissible step QuietOp w ops := by
  induction ops generalizing w with
  | nil =>
    obtain rfl : w = w' := Option.some.inj hrun
    exact (and_iff_left trivial).symm
  | cons op ops ih =>
    obtain ⟨w₁, hstep, h₁⟩ := step_inv h op
    rw [run, Run.run_cons hstep] at hrun
    rw [ih h₁ hrun, step_correlated h hstep, Run.admissible_cons hstep, and_assoc]

end System

/-- In every run, every message that a client call received is the reply to its own request exactly
if all the calls were quiet: a call that finds a message finds an older one. -/
theorem reply_correlation {n : Nat} {s₀ : IpcState} (h₀ : Initial n s₀) (netBuffer bulletBuffer : Mem)
    (ops : List SystemOp) (w : System)
    (hrun : System.run (System.boot s₀ netBuffer bulletBuffer) ops = some w) :
    (∀ c ∈ w.log, c.Correlated) ↔
      Run.Admissible System.step System.QuietOp (System.boot s₀ netBuffer bulletBuffer) ops := by
  rw [System.run_correlated (System.boot_inv h₀ netBuffer bulletBuffer) hrun]
  exact and_iff_right nofun

/-- Two calls with an iteration of the server between them. -/
def twoSockets : List SystemOp :=
  [.call 0 (fun _ => 0) (.netSocket 1), .netServer (fun _ => 0) none,
    .call 0 (fun _ => 0) (.netSocket 1)]

lemma twoSockets_log :
    (System.run (System.boot poolState (fun _ => 0) (fun _ => 0)) twoSockets).map System.log =
      some [⟨0, 4, none⟩, ⟨1, 4, some (.reply 4 0)⟩] := by
  decide +kernel

theorem reply_correlation_two :
    ∃ w, System.run (System.boot poolState (fun _ => 0) (fun _ => 0)) twoSockets = some w ∧
      ((∀ c ∈ w.log, c.Correlated) ↔ Run.Admissible System.step System.QuietOp
        (System.boot poolState (fun _ => 0) (fun _ => 0)) twoSockets) := by
  obtain ⟨w, hrun, _⟩ := Option.map_eq_some_iff.mp twoSockets_log
  exact ⟨w, hrun, reply_correlation poolState_initial _ _ twoSockets w hrun⟩

/-- The second call returns the reply to the first. -/
theorem reply_correlation_fails :
    ∃ w, System.run (System.boot poolState (fun _ => 0) (fun _ => 0)) twoSockets = some w ∧
      (w.log = [⟨0, 4, none⟩, ⟨1, 4, some (.reply 4 0)⟩] ∧ ¬∀ c ∈ w.log, c.Correlated) := by
  obtain ⟨w, hrun, hlog⟩ := Option.map_eq_some_iff.mp twoSockets_log
  refine ⟨w, hrun, hlog, ?_⟩
  rw [hlog]
  decide

end Hydra.Server
