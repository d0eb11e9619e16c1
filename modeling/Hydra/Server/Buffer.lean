import Hydra.Server.Codec
import Hydra.LibNet.Payload

/-!
# The message buffer

Both servers receive into one buffer of 256 bytes that keeps what earlier messages left in it, and
know of a message only its size. Every word they read lies in the message (`no_leftovers`), since
each command checks for its own size and a shorter message is not answered at all. The data that
comes with a message is another matter: a send command and a migration request are passed on with
the length that the client wrote into them (`passed_ranges`).
-/

namespace Hydra.Server
open ByteMem Mailbox Hydra.Ipc Hydra.LibHydra Hydra.Net Hydra.LibNet

/-! ## Words of the message -/

/-- The data of a send goes to the driver, and nothing of it into the table or the result. -/
lemma sendSocketData_data (w : NetWorld) (sockId len : Int) (data data' : Mem) :
    (sendSocketData w sockId data len).1 = (sendSocketData w sockId data' len).1 ∧
      (sendSocketData w sockId data len).2.netserv =
        (sendSocketData w sockId data' len).2.netserv := by
  unfold sendSocketData
  cases findSocket w.netserv sockId with
  | none => exact ⟨rfl, rfl⟩
  | some i =>
    by_cases hstate : (w.netserv.sockets i).state ≠ .connected
    · simp only [if_pos hstate]
      exact ⟨trivial, trivial⟩
    · simp only [if_neg hstate]
      exact ⟨trivial, trivial⟩

section Agree

variable {msg msg' : Mem} {size : Int} (hagree : ∀ i : Nat, (i : Int) < size → msg' i = msg i)
include hagree

lemma word_agree {i : Nat} (hi : (4 * i + 4 : Int) ≤ size) : word msg' i = word msg i :=
  load_congr fun x _ hx => hagree x (by omega)

lemma arg_agree {i : Nat} (hi : (4 * i + 4 : Int) ≤ size) : arg msg' i = arg msg i :=
  congrArg toInt32 (word_agree hagree hi)

/-- The words the network server reads are those of the message; only the data of a send command may
reach behind it. -/
lemma netHandle_agree (w : NetWorld) (pid : Int) :
    (netHandleClientMessage w pid msg' size).1 = (netHandleClientMessage w pid msg size).1 ∧
      (netHandleClientMessage w pid msg' size).2.netserv =
        (netHandleClientMessage w pid msg size).2.netserv := by
  unfold netHandleClientMessage
  split
  · exact ⟨rfl, rfl⟩
  · next hsize =>
    rw [arg_agree hagree (i := 0) (by omega)]
    split
    · split
      · next h8 =>
        rw [arg_agree hagree (i := 1) (by omega)]
        exact ⟨rfl, rfl⟩
      · exact ⟨rfl, rfl⟩
    · split
      · next h16 =>
        rw [arg_agree hagree (i := 1) (by omega), word_agree hagree (i := 2) (by omega),
          word_agree hagree (i := 3) (by omega)]
        exact ⟨rfl, rfl⟩
      · exact ⟨rfl, rfl⟩
    · split
      · next h12 =>
        rw [arg_agree hagree (i := 1) (by omega), arg_agree hagree (i := 2) (by omega)]
        exact ⟨rfl, rfl⟩
      · exact ⟨rfl, rfl⟩
    · split
      · next h16 =>
        rw [arg_agree hagree (i := 1) (by omega), word_agree hagree (i := 2) (by omega),
          word_agree hagree (i := 3) (by omega)]
        exact ⟨rfl, rfl⟩
      · exact ⟨rfl, rfl⟩
    · split
      · next h16 =>
        rw [arg_agree hagree (i := 1) (by omega), arg_agree hagree (i := 2) (by omega)]
        obtain ⟨hresult, hsame⟩ :=
          sendSocketData_data w (arg msg 1) (arg msg 2) (shift msg' 12) (shift msg 12)
        exact ⟨congrArg (fun v => some (intReply v)) hresult, hsame⟩
      · exact ⟨rfl, rfl⟩
    · split
      · next h12 =>
        unfold netRecvCommand
        rw [arg_agree hagree (i := 1) (by omega), arg_agree hagree (i := 2) (by omega)]
        exact ⟨rfl, rfl⟩
      · exact ⟨rfl, rfl⟩
    · split
      · next h8 =>
        rw [arg_agree hagree (i := 1) (by omega)]
        exact ⟨rfl, rfl⟩
      · exact ⟨rfl, rfl⟩
    · exact ⟨rfl, rfl⟩

lemma bulletHandle_agree (srv : BulletServer) (pid : Int) :
    bulletHandleClientMessage srv pid msg' size = bulletHandleClientMessage srv pid msg size := by
  unfold bulletHandleClientMessage
  split
  · rfl
  · next hsize =>
    rw [arg_agree hagree (i := 0) (by omega)]
    split
    · split
      · next h16 =>
        rw [arg_agree hagree (i := 1) (by omega), arg_agree hagree (i := 2) (by omega)]
      · rfl
    · split
      · next h8 => rw [arg_agree hagree (i := 1) (by omega)]
      · rfl
    · rfl

end Agree

/-- What a handler makes of the message in the first `size` bytes of the buffer: the reply with its
receiver, if there is one, and the server afterwards. -/
def handled {W : Type} (handle : W → Int → Mem → Int → Option Reply × W) (world : W) (buf : Mem)
    (size : Int) : Option (Int × Reply) × W :=
  let (reply, world) := handle world (arg buf 0) (shift buf 4) (size - 4)
  (reply.map fun reply => (arg buf 0, reply), world)

/-- A message without a command is not handled. -/
lemma handled_short {W : Type} {handle : W → Int → Mem → Int → Option Reply × W}
    (hhandle : ∀ world pid msg size, size < 4 → handle world pid msg size = (none, world))
    (world : W) (buf : Mem) {size : Int} (hsize : size < 8) :
    handled handle world buf size = (none, world) := by
  have e := hhandle world (arg buf 0) (shift buf 4) (size - 4) (by omega)
  simp only [handled, e, Option.map_none]

section Agree

variable {buf buf' : Mem} {size : Int} (hagree : ∀ i : Nat, (i : Int) < size → buf' i = buf i)
include hagree

lemma shift_agree : ∀ i : Nat, (i : Int) < size - 4 → shift buf' 4 i = shift buf 4 i :=
  fun i hi => hagree (4 + i) (by omega)

lemma netHandled_agree (w : NetWorld) :
    (handled netHandleClientMessage w buf' size).1 = (handled netHandleClientMessage w buf size).1 ∧
      (handled netHandleClientMessage w buf' size).2.netserv =
        (handled netHandleClientMessage w buf size).2.netserv := by
  by_cases hshort : size < 8
  · -- the sender word may be a leftover, but nothing is made of it
    rw [handled_short netHandle_short w buf hshort, handled_short netHandle_short w buf' hshort]
    exact ⟨rfl, rfl⟩
  · have hpid : arg buf' 0 = arg buf 0 := arg_agree hagree (by omega)
    obtain ⟨hreply, hsame⟩ := netHandle_agree (shift_agree hagree) w (arg buf 0)
    unfold handled
    rw [hpid]
    exact ⟨congrArg (Option.map fun reply => (arg buf 0, reply)) hreply, hsame⟩

lemma bulletHandled_agree (srv : BulletServer) :
    handled bulletHandleClientMessage srv buf' size =
      handled bulletHandleClientMessage srv buf size := by
  by_cases hshort : size < 8
  · rw [handled_short bulletHandle_short srv buf hshort,
      handled_short bulletHandle_short srv buf' hshort]
  · have hpid : arg buf' 0 = arg buf 0 := arg_agree hagree (by omega)
    unfold handled
    rw [hpid, bulletHandle_agree (shift_agree hagree)]

end Agree

/-- No leftovers: two contents of the buffer that agree on the message make the same of it, in the
socket table, in the migration requests and in the replies. A message of less than 8 bytes changes
nothing and is not answered. -/
theorem no_leftovers (w : NetWorld) (srv : BulletServer) (buf buf' : Mem) (size : Int)
    (hagree : ∀ i : Nat, (i : Int) < size → buf' i = buf i) :
    (handled netHandleClientMessage w buf' size).1 = (handled netHandleClientMessage w buf size).1 ∧
      (handled netHandleClientMessage w buf' size).2.netserv =
        (handled netHandleClientMessage w buf size).2.netserv ∧
      handled bulletHandleClientMessage srv buf' size =
        handled bulletHandleClientMessage srv buf size ∧
      (size < 8 → handled netHandleClientMessage w buf size = (none, w) ∧
        handled bulletHandleClientMessage srv buf size = (none, srv)) := by
  obtain ⟨hreply, hsame⟩ := netHandled_agree hagree w
  refine ⟨hreply, hsame, bulletHandled_agree hagree srv, fun hshort => ?_⟩
  exact ⟨handled_short netHandle_short w buf hshort,
    handled_short bulletHandle_short srv buf hshort⟩

/-- A request for a socket, in a clean buffer and behind leftovers. -/
theorem no_leftovers_socket :
    (handled netHandleClientMessage startedNet
        (deliver (fun _ => 255) (bytes (setWords (fun _ => 0) 0 [5, 1, 1]) 12)) 12).1 =
      (handled netHandleClientMessage startedNet (setWords (fun _ => 0) 0 [5, 1, 1]) 12).1 := by
  refine (no_leftovers startedNet startedBullet (setWords (fun _ => 0) 0 [5, 1, 1])
    (deliver (fun _ => 255) (bytes (setWords (fun _ => 0) 0 [5, 1, 1]) 12)) 12 fun i hi => ?_).1
  exact deliver_apply _ _ (by omega) (by decide)


/-! ## An iteration -/

lemma sendReply_handled {W : Type} (handle : W → Int → Mem → Int → Option Reply × W) (world : W)
    (s : IpcState) (t : Int) (buf : Mem) (size : Int) :
    (sendReply s t (arg buf 0) (handle world (arg buf 0) (shift buf 4) (size - 4)).1).2 =
      (handled handle world buf size).1.elim s fun x => (sendReply s t x.1 (some x.2)).2 := by
  unfold handled
  obtain ⟨reply, world'⟩ := handle world (arg buf 0) (shift buf 4) (size - 4)
  cases reply <;> rfl

/-- The receive does not depend on the buffer it copies to. -/
lemma recvMessage_buffer (s : IpcState) (t sender size : Int) (buf buf' : Mem) :
    (recvMessage s t sender (some buf') size).state =
      (recvMessage s t sender (some buf) size).state := by
  unfold recvMessage
  simp only
  split_ifs <;> rfl

section Iteration

variable {S : Set Nat} {s : IpcState} {free : List Nat} {box : Int → List Letter}

/-- What an iteration makes of the letter it takes, by what its handler makes of the message. -/
lemma serve_handled {W : Type} (handle : W → Int → Mem → Int → Option Reply × W) (world : W)
    (h : Rep S s free box) {t : Int} {a : Letter} {l : List Letter} (hb : box t = a :: l)
    (buf : Mem) :
    let out := handled handle world (deliver buf a.body) a.body.length
    let s₁ := (recvMessage s t (-1) (some buf) 256).state
    (serve handle world s t buf).world = out.2 ∧
      (serve handle world s t buf).ipc =
        out.1.elim s₁ fun x => (sendReply s₁ t x.1 (some x.2)).2 := by
  have hok : Receivable t (some buf) 256 := ⟨rfl, by decide, h.valid t (by simp [hb])⟩
  obtain ⟨s₁, e, _⟩ := recvMessage_take h hok hb (-1)
  have hpos : (0 : Int) < a.body.length := by exact_mod_cast (h.holds t a (by simp [hb])).pos
  intro out s₁
  have hsent := sendReply_handled handle world s₁ t (deliver buf a.body) a.body.length
  unfold serve syscallRecvMsg
  simp only [e, if_pos hpos]
  refine ⟨rfl, ?_⟩
  rw [← hsent]
  simp only [s₁, e]
  rfl

/-- The kernel fills the buffer with the whole message, whatever was there. -/
lemma deliver_agree (h : Rep S s free box) {t : Int} {a : Letter} {l : List Letter}
    (hb : box t = a :: l) (buf buf' : Mem) :
    ∀ i : Nat, (i : Int) < a.body.length → deliver buf' a.body i = deliver buf a.body i := by
  intro i hi
  obtain ⟨_, _, _, hdata, _, hle⟩ := h.holds t a (by simp [hb])
  have hmax : maxMessageSize = 256 := rfl
  rw [← hdata, deliver_apply _ _ (by omega) (by omega), deliver_apply _ _ (by omega) (by omega)]

/-- An iteration of either loop makes the same of the letter it takes, whatever earlier messages
left in the buffer. -/
theorem serve_agree (h : Rep S s free box) (t : Int) (w : NetWorld) (srv : BulletServer)
    (buf buf' : Mem) :
    (serve netHandleClientMessage w s t buf').world.netserv =
        (serve netHandleClientMessage w s t buf).world.netserv ∧
      (serve netHandleClientMessage w s t buf').ipc = (serve netHandleClientMessage w s t buf).ipc ∧
      (serve bulletHandleClientMessage srv s t buf').world =
        (serve bulletHandleClientMessage srv s t buf).world ∧
      (serve bulletHandleClientMessage srv s t buf').ipc =
        (serve bulletHandleClientMessage srv s t buf).ipc := by
  cases hb : box t with
  | nil =>
    rw [serve_idle _ _ _ h hb, serve_idle _ _ _ h hb, serve_idle _ _ _ h hb, serve_idle _ _ _ h hb]
    exact ⟨rfl, rfl, rfl, rfl⟩
  | cons a l =>
    have hagree := deliver_agree h hb buf buf'
    obtain ⟨hreply, hsame⟩ := netHandled_agree hagree w
    obtain ⟨hworld, hipc⟩ := serve_handled netHandleClientMessage w h hb buf
    obtain ⟨hworld', hipc'⟩ := serve_handled netHandleClientMessage w h hb buf'
    obtain ⟨hsrv, hsent⟩ := serve_handled bulletHandleClientMessage srv h hb buf
    obtain ⟨hsrv', hsent'⟩ := serve_handled bulletHandleClientMessage srv h hb buf'
    rw [recvMessage_buffer] at hipc' hsent'
    rw [hreply] at hipc'
    rw [bulletHandled_agree hagree] at hsrv' hsent'
    exact ⟨by rw [hworld', hworld, hsame], hipc'.trans hipc.symm, hsrv'.trans hsrv.symm,
      hsent'.trans hsent.symm⟩

end Iteration

/-! ## Ranges that are passed on -/

/-- The `len` bytes from `offset` on lie within a message of `size` bytes. -/
def InMessage (size offset : Nat) (len : Int) : Prop := 0 ≤ len ∧ offset + len ≤ size

/-- The message is a send command for a connected socket. -/
def SendsOn (srv : NetServer) (buf : Mem) (size : Nat) : Prop :=
  20 ≤ size ∧ arg buf 1 = 5 ∧ Connected srv (arg buf 2)

/-- The message is a migration request that finds room in the table. -/
def Migrates (srv : BulletServer) (buf : Mem) (size : Nat) : Prop :=
  20 ≤ size ∧ arg buf 1 = 1 ∧ srv.numRequests < maxMigrationRequests

/-- A send command passes on the bytes behind its words, with the length in its last word; nothing
else is passed to the driver. -/
lemma netHandle_passed (w : NetWorld) (pid : Int) (buf : Mem) (n : Nat) :
    (SendsOn w.netserv buf n ∧ (netHandleClientMessage w pid (shift buf 4) (n - 4)).2.handed =
      w.handed ++ [(shift buf 16, arg buf 3)]) ∨
    (¬SendsOn w.netserv buf n ∧
      (netHandleClientMessage w pid (shift buf 4) (n - 4)).2.handed = w.handed) := by
  have hcmd : arg (shift buf 4) 0 = arg buf 1 := arg_shift buf 0
  by_cases hsend : 20 ≤ n ∧ arg buf 1 = 5
  · have hsize : (16 : Int) ≤ n - 4 := by omega
    have hout := LibNet.netHandle_send w pid hsize (hcmd.trans hsend.2)
    rw [arg_shift, arg_shift, shift_shift] at hout
    by_cases hconn : Connected w.netserv (arg buf 2)
    · left
      obtain ⟨v, stats, e⟩ := sendSocketData_connected hconn (shift buf 16) (arg buf 3)
      refine ⟨⟨hsend.1, hsend.2, hconn⟩, ?_⟩
      rw [hout, e]
    · right
      refine ⟨fun hon => hconn hon.2.2, ?_⟩
      rcases sendSocketData_cases w (arg buf 2) (shift buf 16) (arg buf 3) with ⟨h, _⟩ | e
      · exact absurd h hconn
      · rw [hout, e]
  · right
    refine ⟨fun hon => hsend ⟨hon.1, hon.2.1⟩, ?_⟩
    rcases netHandle_handed w pid (shift buf 4) (n - 4) with ⟨hsize, h5⟩ | e
    · exact absurd ⟨by omega, hcmd.symm.trans h5⟩ hsend
    · exact e

lemma bulletHandle_migrate (srv : BulletServer) (pid : Int) {msg : Mem} {size : Int}
    (hsize : 16 ≤ size) (hcmd : arg msg 0 = 1) :
    (bulletHandleClientMessage srv pid msg size).2 =
      (handleMigrationRequest srv pid (arg msg 1) (4 + 12) (arg msg 2)).2 := by
  unfold bulletHandleClientMessage
  rw [if_neg (by omega), hcmd]
  simp only [if_pos hsize]

/-- A migration request is recorded with the bytes behind its words and the length in its last word;
nothing else is recorded. -/
lemma bulletHandle_passed (srv : BulletServer) (pid : Int) (buf : Mem) (n : Nat) :
    (Migrates srv buf n ∧
      ∃ req, (bulletHandleClientMessage srv pid (shift buf 4) (n - 4)).2 = { srv with
          requests := Function.update srv.requests srv.numRequests.toNat req
          numRequests := srv.numRequests + 1 } ∧
        req.processData = 16 ∧ req.processSize = arg buf 3) ∨
    (¬Migrates srv buf n ∧ (bulletHandleClientMessage srv pid (shift buf 4) (n - 4)).2 = srv) := by
  have hcmd : arg (shift buf 4) 0 = arg buf 1 := arg_shift buf 0
  have hlen : arg (shift buf 4) 2 = arg buf 3 := arg_shift buf 2
  by_cases hmig : 20 ≤ n ∧ arg buf 1 = 1
  · have hsize : (16 : Int) ≤ n - 4 := by omega
    rw [bulletHandle_migrate srv pid hsize (hcmd.trans hmig.2), hlen]
    unfold handleMigrationRequest
    by_cases hroom : srv.numRequests < maxMigrationRequests
    · left
      rw [if_neg hroom.not_ge]
      exact ⟨⟨hmig.1, hmig.2, hroom⟩, _, rfl, rfl, rfl⟩
    · right
      rw [if_pos (not_lt.mp hroom)]
      exact ⟨fun h => hroom h.2.2, rfl⟩
  · right
    refine ⟨fun h => hmig ⟨h.1, h.2.1⟩, ?_⟩
    rcases bulletHandle_cases srv pid (shift buf 4) (n - 4) with e | ⟨⟨h1, hsize⟩, _⟩
    · exact e
    · exact absurd ⟨by omega, hcmd.symm.trans h1⟩ hmig

section Served

variable {S : Set Nat} {s : IpcState} {free : List Nat} {box : Int → List Letter}
  (h : Rep S s free box) {t : Int} {a : Letter} {l : List Letter} (hb : box t = a :: l)
  (w : NetWorld) (srv : BulletServer) (msgBuffer : Mem)
include h hb

lemma serve_sends :
    (SendsOn w.netserv (deliver msgBuffer a.body) a.body.length ∧
      (serve netHandleClientMessage w s t msgBuffer).world.handed = w.handed ++
        [(shift (deliver msgBuffer a.body) 16, arg (deliver msgBuffer a.body) 3)]) ∨
    (¬SendsOn w.netserv (deliver msgBuffer a.body) a.body.length ∧
      (serve netHandleClientMessage w s t msgBuffer).world.handed = w.handed) := by
  obtain ⟨e, _⟩ := serve_result netHandleClientMessage w msgBuffer h hb Prod.mk.eta.symm
  rw [e]
  exact netHandle_passed w _ _ _

lemma serve_migrates :
    (Migrates srv (deliver msgBuffer a.body) a.body.length ∧
      ∃ req, (serve bulletHandleClientMessage srv s t msgBuffer).world = { srv with
          requests := Function.update srv.requests srv.numRequests.toNat req
          numRequests := srv.numRequests + 1 } ∧
        req.processData = 16 ∧ req.processSize = arg (deliver msgBuffer a.body) 3) ∨
    (¬Migrates srv (deliver msgBuffer a.body) a.body.length ∧
      (serve bulletHandleClientMessage srv s t msgBuffer).world = srv) := by
  obtain ⟨e, _⟩ := serve_result bulletHandleClientMessage srv msgBuffer h hb Prod.mk.eta.symm
  rw [e]
  exact bulletHandle_passed srv _ _ _

end Served

/-- What the servers pass on of a message they receive starts behind its words, and lies in the
message exactly if the message is not a send command for a connected socket, or a migration request
that finds room, or its length word counts bytes of the message. -/
theorem passed_ranges (n₀ : Nat) (s₀ : IpcState) (h₀ : Initial n₀ s₀) (ops : List IpcOp)
    (s : History) (hrun : History.run s₀ ops = some s) (t : Int) (a : Letter) (l : List Letter)
    (hb : s.ipc.pending t = a :: l) (w : NetWorld) (srv : BulletServer) (msgBuffer : Mem) :
    let buf := deliver msgBuffer a.body
    let n := a.body.length
    let net := (serve netHandleClientMessage w s.ipc t msgBuffer).world
    let bullet := (serve bulletHandleClientMessage srv s.ipc t msgBuffer).world
    (∃ passed, net.handed = w.handed ++ passed ∧ (∀ x ∈ passed, x.1 = shift buf 16) ∧
      ((∀ x ∈ passed, InMessage n 16 x.2) ↔
        (SendsOn w.netserv buf n → InMessage n 16 (arg buf 3)))) ∧
    ((bullet.numRequests ≠ srv.numRequests →
        InMessage n (bullet.requests srv.numRequests.toNat).processData
          (bullet.requests srv.numRequests.toNat).processSize) ↔
      (Migrates srv buf n → InMessage n 16 (arg buf 3))) := by
  obtain ⟨slots, free, box, hrep, _⟩ := History.inv_of_run h₀ hrun
  rw [hrep.pending_eq] at hb
  intro buf n net bullet
  constructor
  · rcases serve_sends hrep hb w msgBuffer with ⟨hon, e⟩ | ⟨hoff, e⟩
    · refine ⟨[(shift buf 16, arg buf 3)], e, ?_, ?_⟩
      · simp
      · simp [hon, buf, n]
    · refine ⟨[], e.trans (List.append_nil _).symm, nofun, ?_⟩
      exact iff_of_true nofun fun h => absurd h hoff
  · rcases serve_migrates hrep hb srv msgBuffer with ⟨hmig, req, e, hdata, hsize⟩ | ⟨hno, e⟩
    · have e' : bullet = _ := e
      rw [e']
      simp [hdata, hsize, hmig, buf, n]
    · have e' : bullet = srv := e
      rw [e']
      exact iff_of_true (fun h => absurd rfl h) fun h => absurd h hno

/-- The send command of task 1 for four bytes is passed on within its message. -/
theorem passed_ranges_four :
    ∃ (s : History) (slot : Nat), s.ipc.pending netServerPid =
        [(ClientCall.netSocketSend 1 (fun _ => 7) 4).letter 1 (fun _ => 0) slot] ∧
      ∃ passed, (serve netHandleClientMessage connectedNet s.ipc netServerPid
          fun _ => 0).world.handed = passed ∧ ∀ x ∈ passed, InMessage 20 16 x.2 := by
  obtain ⟨s, slot, hrun, hb⟩ :=
    (ClientCall.netSocketSend 1 (fun _ => 7) 4).letter_sent (by decide) 1 fun _ => 0
  obtain ⟨⟨passed, e, _, hiff⟩, _⟩ := passed_ranges 2 poolState poolState_initial _ s hrun
    netServerPid _ [] hb connectedNet startedBullet fun _ => 0
  refine ⟨s, slot, hb, passed, e, hiff.mpr fun _ => ?_⟩
  have hlen : arg (deliver (fun _ => 0)
      ((ClientCall.netSocketSend 1 (fun _ => 7) 4).letter 1 (fun _ => 0) slot).body) 3 = 4 :=
    (arg_deliver _ _ (by decide) (by decide)).trans (by decide +kernel)
  rw [hlen]
  exact ⟨by decide, le_of_eq (congrArg Nat.cast (length_bytes _ 20)).symm⟩

/-- Task 1 sends 1000 bytes, of which its message carries 240, and a migration request for 4096
bytes in a message of 20. -/
theorem passed_ranges_fails :
    (∃ s slot, Initial 2 poolState ∧
      History.run poolState [.sendMessage 1 netServerPid
        (some ((ClientCall.netSocketSend 1 (fun _ => 7) 1000).request 1 fun _ => 0)) 256] = some s ∧
      s.ipc.pending netServerPid =
        [(ClientCall.netSocketSend 1 (fun _ => 7) 1000).letter 1 (fun _ => 0) slot] ∧
      (serve netHandleClientMessage connectedNet s.ipc netServerPid
        fun _ => 0).world.handed.map Prod.snd = [1000] ∧
      ¬InMessage 256 16 1000) ∧
    ∃ s slot, History.run poolState [.sendMessage 1 bulletServerPid
        (some (setWords (fun _ => 0) 0 [1, 1, 2, 4096, 0])) 20] = some s ∧
      s.ipc.pending bulletServerPid =
        [⟨slot, 1, bytes (setWords (fun _ => 0) 0 [1, 1, 2, 4096, 0]) 20⟩] ∧
      ((serve bulletHandleClientMessage startedBullet s.ipc bulletServerPid
        fun _ => 0).world.requests 0).processSize = 4096 ∧
      ¬InMessage 20 16 4096 := by
  constructor
  · obtain ⟨s, slot, hrun, hb⟩ :=
      (ClientCall.netSocketSend 1 (fun _ => 7) 1000).letter_sent (by decide) 1 fun _ => 0
    obtain ⟨slots, free, box, hrep, _⟩ := History.inv_of_run poolState_initial hrun
    refine ⟨s, slot, poolState_initial, hrun, hb, ?_, fun h => absurd h.2 (by decide)⟩
    have hword : ∀ i < 4, arg (deliver (fun _ => 0)
        ((ClientCall.netSocketSend 1 (fun _ => 7) 1000).letter 1 (fun _ => 0) slot).body) i =
        arg ((ClientCall.netSocketSend 1 (fun _ => 7) 1000).request 1 fun _ => 0) i :=
      fun i hi => arg_deliver _ _ (n := 256) (by omega) le_rfl
    rcases serve_sends hrep (hrep.pending_eq ▸ hb) connectedNet fun _ => 0 with ⟨_, e⟩ | ⟨hoff, _⟩
    · have hlen : arg ((ClientCall.netSocketSend 1 (fun _ => 7) 1000).request 1 fun _ => 0) 3 =
          1000 := by decide +kernel
      have hnone : connectedNet.handed = [] := rfl
      refine (congrArg (List.map Prod.snd) e).trans ?_
      rw [hnone, hword 3 (by decide), hlen]
      rfl
    · refine absurd ⟨?_, ?_, ?_⟩ hoff
      · exact (by decide : 20 ≤ 256).trans_eq (length_bytes _ 256).symm
      · rw [hword 1 (by decide)]
        decide +kernel
      · rw [hword 2 (by decide)]
        exact ⟨0, by decide +kernel, by decide +kernel⟩
  · have hok : Sendable bulletServerPid (some (setWords (fun _ => 0) 0 [1, 1, 2, 4096, 0])) 20 :=
      ⟨by decide, by decide, rfl⟩
    obtain ⟨s, slot, hrun, hb⟩ := History.send_one 1 hok
    obtain ⟨slots, free, box, hrep, _⟩ := History.inv_of_run poolState_initial hrun
    refine ⟨s, slot, hrun, hb, ?_, fun h => absurd h.2 (by decide)⟩
    have hword : ∀ i < 4, arg (deliver (fun _ => 0)
        (bytes (setWords (fun _ => 0) 0 [1, 1, 2, 4096, 0]) 20)) i =
        arg (setWords (fun _ => 0) 0 [1, 1, 2, 4096, 0]) i :=
      fun i hi => arg_deliver _ _ (by omega) (by decide)
    rcases serve_migrates hrep (hrep.pending_eq ▸ hb) startedBullet fun _ => 0 with
      ⟨_, req, e, _, hsize⟩ | ⟨hno, _⟩
    · rw [e]
      exact hsize.trans ((hword 3 (by decide)).trans (by decide +kernel))
    · refine absurd ⟨?_, ?_, by decide⟩ hno
      · exact (length_bytes _ 20).ge
      · exact (hword 1 (by decide)).trans (by decide +kernel)

end Hydra.Server
