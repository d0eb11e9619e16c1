import Hydra.Server.System
import Hydra.Server.Socket

/-!
# Requests

Which letter a client function puts into the queue of a server (`ClientCall.letter`), and in whose
name the server acts on a letter, whatever its bytes.

The kernel knows who sent a letter, the server does not: it takes the first word of the message for
the sender. `Attributed` says that an iteration records a given pid and replies to it and to no one
else. Every iteration is attributed to the first word, and the client functions write their own pid
there (`sender_word`); any other send may write what it likes.
-/

namespace Hydra.Server
open ByteMem Mailbox Hydra.Ipc Hydra.LibHydra Hydra.Net

/-- An iteration of the network server that takes a letter is a message of its history, followed by
what the network has. -/
theorem netServerBody_message {S : Set Nat} {s : IpcState} {free : List Nat}
    {box : Int → List Letter} (h : Rep S s free box) {t : Int} {a : Letter} {l : List Letter}
    (hb : box t = a :: l) (hist : NetHistory) (packetBuffer : Mem) (pkt : Option Packet) :
    let r := netServerBody hist.world s t hist.msgBuffer packetBuffer pkt
    let hist' := (hist.message a.sender a.body).packet packetBuffer pkt
    r.world = hist'.world ∧ r.msgBuffer = hist'.msgBuffer := by
  obtain ⟨s₁, _, e⟩ := serve_letter netHandleClientMessage hist.world hist.msgBuffer h hb
  unfold netServerBody
  rw [e]
  exact ⟨rfl, rfl⟩

/-! ## The requests of the client functions -/

namespace ClientCall

/-- The array `cmd_data` of a call by the task `t`. -/
def request (t : Int) (stack : Mem) : ClientCall → Mem
  | netSocket type => setWords stack 0 [ofInt32 (syscallGetPid t), 1, ofInt32 type]
  | netBind sockId ip port =>
    setWords stack 0 [ofInt32 (syscallGetPid t), 2, ofInt32 sockId,
      ((ip <<< 16) ||| port.toUInt32).toNat]
  | netSocketSend sockId data len =>
    copyAt data 16 (if len < 240 then len else 240).toNat
      (setWords stack 0 [ofInt32 (syscallGetPid t), 5, ofInt32 sockId, ofInt32 len])
  | bulletMigrateProcess targetNode size =>
    setWords stack 0 [ofInt32 (syscallGetPid t), 1, ofInt32 targetNode, ofInt32 size]
  | bulletCheckMigrationStatus reqId =>
    setWords stack 0 [ofInt32 (syscallGetPid t), 2, ofInt32 reqId]

lemma exec_request (c : ClientCall) (s : IpcState) (t : Int) (stack : Mem) :
    c.exec s t stack = clientCall s t c.server (c.request t stack) c.size := by
  cases c <;> rfl

/-- The first word of every request is the pid of the caller. -/
lemma request_pid (c : ClientCall) {t : Int} (hlo : -2 ^ 31 ≤ t) (hhi : t < 2 ^ 31) (stack : Mem) :
    arg (c.request t stack) 0 = t := by
  cases c with
  | netSocketSend sockId data len =>
    -- the data is copied behind the words
    unfold arg word request
    rw [load_copyAt_of_le _ _ _ (by decide)]
    exact arg_setWords stack rfl hlo hhi
  | netSocket | netBind | bulletMigrateProcess | bulletCheckMigrationStatus =>
    exact arg_setWords stack rfl hlo hhi

/-- What a call by the task `t` puts into the box of the server. -/
def letter (c : ClientCall) (t : Int) (stack : Mem) (slot : Nat) : Letter :=
  ⟨slot, t, bytes (c.request t stack) c.size.toNat⟩

/-- A call whose request was sent has posted its letter. -/
lemma exec_posts {S : Set Nat} {s : IpcState} {free : List Nat} {box : Int → List Letter}
    (h : Rep S s free box) (c : ClientCall) (t : Int) (stack : Mem)
    (hsent : (c.exec s t stack).requested = true) :
    ∃ slot, (c.exec s t stack).afterSend.pending =
      post s.pending c.server (c.letter t stack slot) := by
  rw [c.exec_request] at hsent ⊢
  rcases clientCall_cases h t c.server_valid c.size_le (c.request t stack) with
    ⟨e, _⟩ | ⟨f, free', a, s₁, r, hfree, ha, _, e, _, hs₁, h₁, _⟩
  · rw [e] at hsent
    cases hsent
  · rw [e, hs₁, h₁.pending_eq, h.pending_eq]
    subst ha
    exact ⟨f, rfl⟩

/-- Two slots are enough to send a request. -/
lemma letter_sent (c : ClientCall) (hsize : 0 < c.size) (t : Int) (stack : Mem) :
    ∃ s slot, History.run poolState
        [.sendMessage t c.server (some (c.request t stack)) c.size] = some s ∧
      s.ipc.pending c.server = [c.letter t stack slot] :=
  History.send_one t ⟨c.server_valid, ⟨hsize, c.size_le⟩, rfl⟩

end ClientCall

/-- The bytes of a request arrive as they were sent. -/
lemma deliver_apply (msgBuffer src : Mem) {i n : Nat} (hi : i < n) (hn : n ≤ 256) :
    deliver msgBuffer (bytes src n) i = src i := by
  unfold deliver
  rw [bytes_take, min_eq_right hn, ← copy_eq_paste, copy_apply, if_pos hi]

lemma arg_deliver (msgBuffer src : Mem) {i n : Nat} (hi : 4 * i + 4 ≤ n) (hn : n ≤ 256) :
    arg (deliver msgBuffer (bytes src n)) i = arg src i := by
  unfold arg word
  rw [load_congr fun x _ hx => deliver_apply msgBuffer src (hx.trans_le hi) hn]

namespace ClientCall

variable {c : ClientCall} {t : Int} {stack : Mem} {slot : Nat} {a : Letter}
  (ha : c.letter t stack slot = a)
include ha

/-- The letter of a call has the size of its request. -/
lemma length_letter : a.body.length = c.size.toNat := by
  rw [← ha]
  exact length_bytes _ _

/-- The server reads the words behind the first one as the client wrote them. -/
lemma arg_letter (msgBuffer : Mem) {i : Nat} (hi : 4 * (i + 1) + 4 ≤ c.size.toNat) :
    arg (shift (deliver msgBuffer a.body) 4) i = arg (c.request t stack) (i + 1) := by
  have hle := c.size_le
  unfold maxMessageSize at hle
  rw [← ha, arg_shift]
  exact arg_deliver _ _ hi (by omega)

/-- The server reads the pid of the client in the first word. -/
lemma arg_letter_pid (msgBuffer : Mem) (hlo : -2 ^ 31 ≤ t) (hhi : t < 2 ^ 31)
    (hsize : 4 ≤ c.size.toNat) : arg (deliver msgBuffer a.body) 0 = t := by
  have hle := c.size_le
  unfold maxMessageSize at hle
  rw [← ha]
  exact (arg_deliver _ _ hsize (by omega)).trans (c.request_pid hlo hhi stack)

end ClientCall

/-! ## Senders -/

/-- The letter is the request of a client function, sent by a task with a 32-bit pid. -/
def FromClient (a : Letter) : Prop :=
  (-2 ^ 31 ≤ a.sender ∧ a.sender < 2 ^ 31) ∧
    ∃ (c : ClientCall) (stack : Mem), a = c.letter a.sender stack a.slot

/-- An iteration of the server that runs as task `t`, and takes a letter, records this pid where it
records any, and replies to this pid or to no one. -/
structure Attributed {W : Type} (recorded : W → Nat → Int) (world : W) (s : IpcState) (t pid : Int)
    (r : Served W) : Prop where
  records : ∀ i, recorded r.world i ≠ recorded world i → recorded r.world i = pid
  replies : r.ipc.pending = take s.pending t ∨
    ∃ b, b.sender = t ∧ r.ipc.pending = post (take s.pending t) pid b

section Attribution

variable {W : Type} {recorded : W → Nat → Int} {handle : W → Int → Mem → Int → Option Reply × W}
  (hrec : ∀ world pid msg size i, recorded (handle world pid msg size).2 i ≠ recorded world i →
    recorded (handle world pid msg size).2 i = pid)
  (hshort : ∀ world pid msg size, size < 4 → handle world pid msg size = (none, world))
  {S : Set Nat} {s : IpcState} {free : List Nat} {box : Int → List Letter} (h : Rep S s free box)
  {t : Int} {a : Letter} {l : List Letter} (hb : box t = a :: l) (world : W) (msgBuffer : Mem)
include h hb

include hrec in
/-- Every iteration is attributed to the first word of its message. -/
lemma serve_attributed : Attributed recorded world s t (arg (deliver msgBuffer a.body) 0)
    (serve handle world s t msgBuffer) := by
  obtain ⟨hworld, hsent⟩ := serve_result handle world msgBuffer h hb rfl
  constructor
  · rw [hworld]
    exact hrec _ _ _ _
  · rcases hsent with ⟨e, _⟩ | ⟨x, _, _, e⟩
    · exact .inl e
    · exact .inr ⟨_, rfl, e⟩

include hrec hshort in
/-- The iteration that takes the request of a client function is attributed to the client. -/
lemma serve_client (ha : FromClient a) :
    Attributed recorded world s t a.sender (serve handle world s t msgBuffer) := by
  by_cases hlen : a.body.length < 8
  · -- the handler ignores the message
    obtain ⟨hworld, hsent⟩ := serve_result handle world msgBuffer h hb
      (hshort _ _ _ _ (show (a.body.length : Int) - 4 < 4 by omega))
    constructor
    · rw [hworld]
      exact fun i hi => absurd rfl hi
    · rcases hsent with ⟨e, _⟩ | ⟨x, hx, _⟩
      · exact .inl e
      · cases hx
  · obtain ⟨⟨hlo, hhi⟩, c, stack, hletter⟩ := ha
    have hsize := ClientCall.length_letter hletter.symm
    have hpid : arg (deliver msgBuffer a.body) 0 = a.sender :=
      ClientCall.arg_letter_pid hletter.symm msgBuffer hlo hhi (by omega)
    rw [← hpid]
    exact serve_attributed hrec h hb world msgBuffer

end Attribution

/-- The owner recorded in a slot of the socket table. -/
def netOwner (w : NetWorld) (i : Nat) : Int := (w.netserv.sockets i).ownerPid

/-- The source recorded in a migration request. -/
def bulletSource (srv : BulletServer) (i : Nat) : Int := (srv.requests i).sourcePid

lemma setSocket_owner {w : NetWorld} {i : Nat} {sock : Socket}
    (h : sock.ownerPid = (w.netserv.sockets i).ownerPid) (j : Nat) :
    netOwner (w.setSocket i sock) j = netOwner w j := by
  unfold netOwner NetWorld.setSocket
  rcases eq_or_ne j i with rfl | hne
  · rw [NetServer.setSocket_self, h]
  · rw [NetServer.setSocket_of_ne _ hne]

lemma netHandle_short (w : NetWorld) (pid : Int) (msg : Mem) (size : Int) (h : size < 4) :
    netHandleClientMessage w pid msg size = (none, w) := by
  unfold netHandleClientMessage
  rw [if_pos h]

/-- The network server records the pid it is given, and only for a new socket. -/
lemma netHandle_records (w : NetWorld) (pid : Int) (msg : Mem) (size : Int) (i : Nat)
    (hi : netOwner (netHandleClientMessage w pid msg size).2 i ≠ netOwner w i) :
    netOwner (netHandleClientMessage w pid msg size).2 i = pid := by
  have he := netHandle_effect w pid msg size
  revert hi
  generalize (netHandleClientMessage w pid msg size).1 = reply,
    (netHandleClientMessage w pid msg size).2 = w', issuedId w msg size = made,
    closedId w msg size = dropped at he ⊢
  cases he with
  | ignored | answered | handed => exact fun hi => absurd rfl hi
  | allocated j hfree =>
    unfold netOwner
    rcases eq_or_ne i j with rfl | hne
    · simp only [NetServer.setSocket_self]
      exact fun _ => rfl
    · simp only [NetServer.setSocket_of_ne _ hne]
      exact fun hi => absurd rfl hi
  | bound | listening | connected | closed =>
    intro hi
    apply absurd _ hi
    apply setSocket_owner
    rfl
  | drained j k =>
    obtain ⟨tail, count, e⟩ := drain_keeps k 0 (w.netserv.sockets j) fun _ => 0
    rw [e]
    intro hi
    apply absurd _ hi
    apply setSocket_owner
    rfl

lemma processNetworkPackets_owner (w : NetWorld) (packetBuffer : Mem) (pkt : Option Packet) (i : Nat) :
    netOwner { w with netserv := processNetworkPackets w.netserv packetBuffer pkt } i =
      netOwner w i := by
  rcases processNetworkPackets_cases w.netserv packetBuffer pkt with
    e | ⟨j, _, data, len, _, _, e⟩
  · rw [e]
  · obtain ⟨buf, head, count, e'⟩ := addRxData_keeps data len.toNat 0 (w.netserv.sockets j)
    rw [e, socketAddRxData, e']
    apply setSocket_owner
    rfl

lemma bulletHandle_short (srv : BulletServer) (pid : Int) (msg : Mem) (size : Int) (h : size < 4) :
    bulletHandleClientMessage srv pid msg size = (none, srv) := by
  unfold bulletHandleClientMessage
  rw [if_pos h]

/-- A message leaves the requests as they are, unless it asks for a migration. -/
lemma bulletHandle_cases (srv : BulletServer) (pid : Int) (msg : Mem) (size : Int) :
    (bulletHandleClientMessage srv pid msg size).2 = srv ∨
      (arg msg 0 = 1 ∧ 16 ≤ size) ∧ (bulletHandleClientMessage srv pid msg size).2 =
        (handleMigrationRequest srv pid (arg msg 1) (4 + 12) (arg msg 2)).2 := by
  unfold bulletHandleClientMessage
  split
  · exact .inl rfl
  · split
    · next hcmd =>
      split
      · next hsize => exact .inr ⟨⟨hcmd, hsize⟩, rfl⟩
      · exact .inl rfl
    · split
      · simp only
        split <;> exact .inl rfl
      · exact .inl rfl
    · exact .inl rfl

/-- The bullet server records the pid it is given, and only for a new request. -/
lemma bulletHandle_records (srv : BulletServer) (pid : Int) (msg : Mem) (size : Int) (i : Nat)
    (hi : bulletSource (bulletHandleClientMessage srv pid msg size).2 i ≠ bulletSource srv i) :
    bulletSource (bulletHandleClientMessage srv pid msg size).2 i = pid := by
  rcases bulletHandle_cases srv pid msg size with e | ⟨_, e⟩
  · rw [e] at hi
    exact absurd rfl hi
  · rw [e] at hi ⊢
    unfold handleMigrationRequest bulletSource at *
    split at hi
    · exact absurd rfl hi
    · next hroom =>
      rw [if_neg hroom]
      rcases eq_or_ne i srv.numRequests.toNat with rfl | hne
      · simp
      · simp [hne] at hi

lemma processFrom_source (n i : Nat) (srv : BulletServer) (j : Nat) :
    bulletSource (processFrom n i srv) j = bulletSource srv j := by
  induction n generalizing i srv with
  | zero => rfl
  | succ n ih =>
    unfold processFrom
    simp only
    split
    · rw [ih]
      unfold bulletSource
      rcases eq_or_ne j i with rfl | hne
      · simp
      · simp [hne]
    · exact ih (i + 1) srv

section Servers

variable {S : Set Nat} {s : IpcState} {free : List Nat} {box : Int → List Letter}
  (h : Rep S s free box) {t : Int} {a : Letter} {l : List Letter} (hb : box t = a :: l)
include h hb

lemma netServerBody_attributed (w : NetWorld) (msgBuffer packetBuffer : Mem) (pkt : Option Packet) :
    Attributed netOwner w s t (arg (deliver msgBuffer a.body) 0)
        (netServerBody w s t msgBuffer packetBuffer pkt) ∧
      (FromClient a → Attributed netOwner w s t a.sender
        (netServerBody w s t msgBuffer packetBuffer pkt)) := by
  have hpackets : ∀ pid, Attributed netOwner w s t pid (serve netHandleClientMessage w s t msgBuffer) →
      Attributed netOwner w s t pid (netServerBody w s t msgBuffer packetBuffer pkt) := by
    intro pid hserve
    refine ⟨fun i => ?_, hserve.replies⟩
    have hkept := processNetworkPackets_owner (serve netHandleClientMessage w s t msgBuffer).world
      packetBuffer pkt i
    unfold netServerBody
    simp only
    rw [hkept]
    exact hserve.records i
  constructor
  · exact hpackets _ (serve_attributed netHandle_records h hb w msgBuffer)
  · intro ha
    exact hpackets _ (serve_client netHandle_records netHandle_short h hb w msgBuffer ha)

lemma bulletServerBody_attributed (srv : BulletServer) (msgBuffer : Mem) :
    Attributed bulletSource srv s t (arg (deliver msgBuffer a.body) 0)
        (bulletServerBody srv s t msgBuffer) ∧
      (FromClient a → Attributed bulletSource srv s t a.sender
        (bulletServerBody srv s t msgBuffer)) := by
  have hmigrations : ∀ pid,
      Attributed bulletSource srv s t pid (serve bulletHandleClientMessage srv s t msgBuffer) →
      Attributed bulletSource srv s t pid (bulletServerBody srv s t msgBuffer) := by
    intro pid hserve
    refine ⟨fun i => ?_, hserve.replies⟩
    have hkept := processFrom_source
      (serve bulletHandleClientMessage srv s t msgBuffer).world.numRequests.toNat 0
      (serve bulletHandleClientMessage srv s t msgBuffer).world i
    unfold bulletServerBody processMigrations
    simp only
    rw [hkept]
    exact hserve.records i
  constructor
  · exact hmigrations _ (serve_attributed bulletHandle_records h hb srv msgBuffer)
  · intro ha
    exact hmigrations _ (serve_client bulletHandle_records bulletHandle_short h hb srv msgBuffer ha)

end Servers

/-- In every reachable state of the message system and whatever the bytes of the letter, the servers
take its first word for the sender: this is the pid they record and the one they reply to. It is the
kernel's sender for the requests of the client functions, which write the pid of their caller. -/
theorem sender_word (n : Nat) (s₀ : IpcState) (h₀ : Initial n s₀) (ops : List IpcOp) (s : History)
    (hrun : History.run s₀ ops = some s) :
    (∀ t a l, s.ipc.pending t = a :: l → ∀ msgBuffer,
      (∀ w packetBuffer pkt,
        Attributed netOwner w s.ipc t (arg (deliver msgBuffer a.body) 0)
            (netServerBody w s.ipc t msgBuffer packetBuffer pkt) ∧
          (FromClient a → Attributed netOwner w s.ipc t a.sender
            (netServerBody w s.ipc t msgBuffer packetBuffer pkt))) ∧
      ∀ srv,
        Attributed bulletSource srv s.ipc t (arg (deliver msgBuffer a.body) 0)
            (bulletServerBody srv s.ipc t msgBuffer) ∧
          (FromClient a → Attributed bulletSource srv s.ipc t a.sender
            (bulletServerBody srv s.ipc t msgBuffer))) ∧
    ∀ (c : ClientCall) t stack, -2 ^ 31 ≤ t → t < 2 ^ 31 → (c.exec s.ipc t stack).requested = true →
      ∃ a, a.sender = t ∧ FromClient a ∧
        (c.exec s.ipc t stack).afterSend.pending = post s.ipc.pending c.server a := by
  obtain ⟨slots, free, box, hrep, _⟩ := History.inv_of_run h₀ hrun
  rw [hrep.pending_eq]
  constructor
  · intro t a l hb msgBuffer
    exact ⟨fun w => netServerBody_attributed hrep hb w msgBuffer,
      fun srv => bulletServerBody_attributed hrep hb srv msgBuffer⟩
  · intro c t stack hlo hhi hsent
    obtain ⟨slot, hpost⟩ := c.exec_posts hrep t stack hsent
    rw [hrep.pending_eq] at hpost
    exact ⟨c.letter t stack slot, rfl, ⟨⟨hlo, hhi⟩, c, stack, rfl⟩, hpost⟩

/-- Task 2 asks the network server for a socket in the name of task 1. -/
def inTheNameOfOne : IpcOp := .sendMessage 2 4 (some (setWords (fun _ => 0) 0 [1, 1, 1])) 12

/-- The network server after its initialisation. -/
def startedNet : NetWorld := ⟨netServerInit bootNet 4, ⟨0, 0, 0, 0, 0, 0⟩, []⟩

/-- Task 1 has asked for a socket, which the server gives to it; then task 0 asks for one. -/
theorem sender_word_two :
    ∃ s a, History.run poolState [.sendMessage 1 4
        (some ((ClientCall.netSocket 1).request 1 fun _ => 0)) 12] = some s ∧
      (s.ipc.pending 4 = [a] ∧ a.sender = 1 ∧ FromClient a ∧
        Attributed netOwner startedNet s.ipc 4 1
          (netServerBody startedNet s.ipc 4 (fun _ => 0) (fun _ => 0) none) ∧
        netOwner (netServerBody startedNet s.ipc 4 (fun _ => 0) (fun _ => 0) none).world 0 = 1) ∧
      ∃ b, b.sender = 0 ∧ FromClient b ∧
        ((ClientCall.netSocket 1).exec s.ipc 0 (fun _ => 0)).afterSend.pending =
          post s.ipc.pending 4 b := by
  obtain ⟨s, slot, hsent, hb⟩ := (ClientCall.netSocket 1).letter_sent (by decide) 1 fun _ => 0
  have hrun : History.run poolState [.sendMessage 1 4
      (some ((ClientCall.netSocket 1).request 1 fun _ => 0)) 12] = some s := hsent
  have hfacts : (History.run poolState [.sendMessage 1 4
      (some ((ClientCall.netSocket 1).request 1 fun _ => 0)) 12]).map (fun s =>
        (netOwner (netServerBody startedNet s.ipc 4 (fun _ => 0) (fun _ => 0) none).world 0,
          ((ClientCall.netSocket 1).exec s.ipc 0 (fun _ => 0)).requested)) = some (1, true) := by
    decide +kernel
  have hfrom : FromClient ((ClientCall.netSocket 1).letter 1 (fun _ => 0) slot) :=
    ⟨⟨show -2 ^ 31 ≤ (1 : Int) by decide, show (1 : Int) < 2 ^ 31 by decide⟩, .netSocket 1, _, rfl⟩
  obtain ⟨hserver, hclient⟩ := sender_word 2 poolState poolState_initial _ s hrun
  obtain ⟨hnet, _⟩ := hserver 4 _ [] hb fun _ => 0
  have hattr := (hnet startedNet (fun _ => 0) none).2 hfrom
  rw [hrun, Option.map_some, Option.some.injEq, Prod.mk.injEq] at hfacts
  exact ⟨s, _, hrun, ⟨hb, rfl, hfrom, hattr, hfacts.1⟩,
    hclient (.netSocket 1) 0 (fun _ => 0) (by decide) (by decide) hfacts.2⟩

/-- The server records task 1 as the owner of the socket, although task 2 sent the message. -/
theorem sender_word_fails :
    ∃ s a, Initial 2 poolState ∧ History.run poolState [inTheNameOfOne] = some s ∧
      s.ipc.pending 4 = [a] ∧ a.sender = 2 ∧
      ¬Attributed netOwner startedNet s.ipc 4 a.sender
        (netServerBody startedNet s.ipc 4 (fun _ => 0) (fun _ => 0) none) := by
  obtain ⟨_, s, _, _, hrun, _⟩ := History.run_inv poolState_initial [inTheNameOfOne]
  have hfacts : ((History.run poolState [inTheNameOfOne]).map fun s =>
      ((s.ipc.pending 4).map Letter.sender, netOwner startedNet 0,
        netOwner (netServerBody startedNet s.ipc 4 (fun _ => 0) (fun _ => 0) none).world 0)) =
      some ([2], 0, 1) := by decide +kernel
  rw [hrun, Option.map_some, Option.some.injEq, Prod.mk.injEq, Prod.mk.injEq] at hfacts
  obtain ⟨hpending, hbefore, hafter⟩ := hfacts
  obtain ⟨a, ha, hsender⟩ := List.map_eq_singleton_iff.mp hpending
  refine ⟨s, a, poolState_initial, hrun, ha, hsender, fun hattr => ?_⟩
  have hpid := hattr.records 0 (by rw [hbefore, hafter]; decide)
  rw [hafter, hsender] at hpid
  cases hpid

end Hydra.Server
