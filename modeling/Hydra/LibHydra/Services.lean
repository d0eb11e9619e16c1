import Hydra.Server.Codec

/-!
# The service stubs of libhydra

The functions of `lib/libhydra/net_client.c` and `lib/libhydra/bullet_client.c`. Each one fills in a
struct for its request, sends it with `send_request` in the frame of `ipc_send_message`, and takes
its result out of a struct for the response.

The servers know neither the frame nor the structs. In place of the command they find the receiver's
pid of the frame, so the network server takes every request for a bind and the bullet server takes
every request for a migration (`netHandle_frame`, `bulletHandle_frame`), with the type and the size
of the frame as arguments. Their reply is a bare `int`, of which `ipc_receive_message` takes the
size from beyond its end, so what a stub returns depends on what the stack happened to hold
(`services_speak_one_format`).
-/

namespace Hydra.LibHydra
open ByteMem Mailbox Hydra.Ipc Hydra.Server

/-! ## The stubs -/

/-- `NET_SERVER_PID`, as `net_client.c` assumes it. -/
def netServerPid : Int := 2

/-- `BULLET_SERVER_PID`, as `bullet_client.c` assumes it. -/
def bulletServerPid : Int := 1

/-- `MSG_TYPE_REQUEST`. -/
def msgTypeRequest : Int := 2

/-- `sizeof(struct net_response)`: status, socket id and size of the data, and 200 bytes of data. -/
def sizeofNetResponse : Nat := 212

/-- `sizeof(struct bullet_response)`: status and 128 bytes of message. -/
def sizeofBulletResponse : Nat := 132

/-- What the memory of the local structs holds before they are filled in: the request, the frames
that are sent and received, and the response. -/
structure Stack where
  request : Mem
  sent : Mem
  received : Mem
  response : Mem

/-- C `send_request`. -/
def sendRequest (s : IpcState) (currentTask : Int) (stack : Stack) (server : Int) (request : Mem)
    (reqSize maxRespSize : Nat) : IpcReception :=
  let (result, s) :=
    ipcSendMessage s currentTask stack.sent server msgTypeRequest request reqSize
  if result < 0 then ⟨result, none, stack.response, s⟩
  else ipcReceiveMessage s currentTask stack.received server stack.response maxRespSize

/-- `struct net_bind_request`, two bytes. -/
def netBindRequest (req : Mem) (port : UInt16) : Mem := store req 0 2 port.toNat

/-- `struct net_connect_request`, eight bytes with the padding. -/
def netConnectRequest (req : Mem) (address : UInt32) (port : UInt16) : Mem :=
  store (store req 0 4 address.toNat) 4 2 port.toNat

/-- `struct net_send_request`, 208 bytes. -/
def netSendRequest (req : Mem) (socketId : Int) (data : Mem) (size : Nat) : Mem :=
  copyAt data 8 size (store (store req 0 4 (ofInt32 socketId)) 4 4 size)

/-- `struct net_receive_request`, eight bytes. -/
def netReceiveRequest (req : Mem) (socketId : Int) (maxSize : Nat) : Mem :=
  store (store req 0 4 (ofInt32 socketId)) 4 4 (if 200 < maxSize then 200 else maxSize)

/-- The copy loop for the name of a node: at most `n` more characters, from index `i` on, and the
terminator. -/
def copyTargetNode (targetNode : Mem) : Nat → Nat → Mem → Mem
  | 0, i, req => Function.update req (4 + i) 0
  | n + 1, i, req =>
    if targetNode i = 0 then Function.update req (4 + i) 0
    else copyTargetNode targetNode n (i + 1) (Function.update req (4 + i) (targetNode i))

/-- `struct bullet_migrate_request`, 68 bytes. -/
def bulletMigrateRequest (req : Mem) (process : Int) (targetNode : Mem) : Mem :=
  copyTargetNode targetNode 63 0 (store req 0 4 (ofInt32 process))

/-- `struct bullet_status_request`, four bytes. -/
def bulletStatusRequest (req : Mem) (process : Int) : Mem := store req 0 4 (ofInt32 process)

section Stubs

variable (s : IpcState) (currentTask : Int) (stack : Stack)

/-- C `net_service_bind`. -/
def netServiceBind (port : UInt16) : Int × IpcState :=
  let resp := sendRequest s currentTask stack netServerPid
    (netBindRequest stack.request port) 2 sizeofNetResponse
  (if 0 < resp.ret then arg resp.buffer 1 else -1, resp.state)

/-- C `net_service_connect`. -/
def netServiceConnect (addr : UInt32) (port : UInt16) : Int × IpcState :=
  let resp := sendRequest s currentTask stack netServerPid
    (netConnectRequest stack.request addr port) 8 sizeofNetResponse
  (if 0 < resp.ret then arg resp.buffer 1 else -1, resp.state)

/-- C `net_service_send`. -/
def netServiceSend (socketId : Int) (data : Mem) (size : Nat) : Int × IpcState :=
  if 200 < size then (-1, s)
  else
    let resp := sendRequest s currentTask stack netServerPid
      (netSendRequest stack.request socketId data size) 208 sizeofNetResponse
    (if 0 < resp.ret then arg resp.buffer 0 else -1, resp.state)

/-- The number of bytes `net_service_receive` copies out of a response. -/
def receiveSize (resp : Mem) (maxSize : Nat) : Nat :=
  if toSize (arg resp 2) < maxSize then toSize (arg resp 2) else maxSize

/-- C `net_service_receive`: the return value, the buffer and the state. -/
def netServiceReceive (socketId : Int) (buffer : Mem) (maxSize : Nat) : Int × Mem × IpcState :=
  let resp := sendRequest s currentTask stack netServerPid
    (netReceiveRequest stack.request socketId maxSize) 8 sizeofNetResponse
  if 0 < resp.ret ∧ 0 < arg resp.buffer 2 then
    let copySize := receiveSize resp.buffer maxSize
    (toInt32 (copySize % 2 ^ 32), copy (shift resp.buffer 12) copySize buffer, resp.state)
  else (-1, buffer, resp.state)

/-- C `client_bullet_migrate_process`. -/
def clientBulletMigrateProcess (process : Int) (targetNode : Mem) : Int × IpcState :=
  let resp := sendRequest s currentTask stack bulletServerPid
    (bulletMigrateRequest stack.request process targetNode) 68 sizeofBulletResponse
  (if 0 < resp.ret then arg resp.buffer 0 else -1, resp.state)

/-- C `client_bullet_get_migration_status`. -/
def clientBulletGetMigrationStatus (process : Int) : Int × IpcState :=
  let resp := sendRequest s currentTask stack bulletServerPid
    (bulletStatusRequest stack.request process) 4 sizeofBulletResponse
  (if 0 < resp.ret then arg resp.buffer 0 else -1, resp.state)

end Stubs

/-! ## Frames and replies -/

/-- A stub with its arguments. -/
inductive ServiceCall where
  | netServiceBind (port : UInt16)
  | netServiceConnect (addr : UInt32) (port : UInt16)
  | netServiceSend (socketId : Int) (data : Mem) (size : Nat)
  | netServiceReceive (socketId : Int) (buffer : Mem) (maxSize : Nat)
  | clientBulletMigrateProcess (process : Int) (targetNode : Mem)
  | clientBulletGetMigrationStatus (process : Int)

namespace ServiceCall

/-- The return value of a call and the state. -/
def exec (s : IpcState) (currentTask : Int) (stack : Stack) : ServiceCall → Int × IpcState
  | netServiceBind port => LibHydra.netServiceBind s currentTask stack port
  | netServiceConnect addr port => LibHydra.netServiceConnect s currentTask stack addr port
  | netServiceSend socketId data size =>
    LibHydra.netServiceSend s currentTask stack socketId data size
  | netServiceReceive socketId buffer maxSize =>
    let result := LibHydra.netServiceReceive s currentTask stack socketId buffer maxSize
    (result.1, result.2.2)
  | clientBulletMigrateProcess process targetNode =>
    LibHydra.clientBulletMigrateProcess s currentTask stack process targetNode
  | clientBulletGetMigrationStatus process =>
    LibHydra.clientBulletGetMigrationStatus s currentTask stack process

/-- The struct of the request and its size; none is made for data that is too long. -/
def request (req : Mem) : ServiceCall → Option (Mem × Nat)
  | netServiceBind port => some (netBindRequest req port, 2)
  | netServiceConnect addr port => some (netConnectRequest req addr port, 8)
  | netServiceSend socketId data size =>
    if 200 < size then none else some (netSendRequest req socketId data size, 208)
  | netServiceReceive socketId _ maxSize => some (netReceiveRequest req socketId maxSize, 8)
  | clientBulletMigrateProcess process targetNode =>
    some (bulletMigrateRequest req process targetNode, 68)
  | clientBulletGetMigrationStatus process => some (bulletStatusRequest req process, 4)

lemma request_eq_none {c : ServiceCall} {req : Mem} :
    c.request req = none ↔ ∃ socketId data size, c = netServiceSend socketId data size ∧ 200 < size := by
  constructor
  · intro hnone
    cases c with
    | netServiceSend socketId data size =>
      refine ⟨socketId, data, size, rfl, ?_⟩
      by_contra hsize
      rw [request, if_neg hsize] at hnone
      cases hnone
    | netServiceBind | netServiceConnect | netServiceReceive | clientBulletMigrateProcess
    | clientBulletGetMigrationStatus => cases hnone
  · rintro ⟨socketId, data, size, rfl, hsize⟩
    exact if_pos hsize

def server : ServiceCall → Int
  | netServiceBind _ | netServiceConnect _ _ | netServiceSend _ _ _ | netServiceReceive _ _ _ =>
    netServerPid
  | clientBulletMigrateProcess _ _ | clientBulletGetMigrationStatus _ => bulletServerPid

/-- The size of the struct of the response. -/
def respSize : ServiceCall → Nat
  | netServiceBind _ | netServiceConnect _ _ | netServiceSend _ _ _ | netServiceReceive _ _ _ =>
    sizeofNetResponse
  | clientBulletMigrateProcess _ _ | clientBulletGetMigrationStatus _ => sizeofBulletResponse

/-- The return value that a stub makes of what `send_request` gives. -/
def finish (resp : IpcReception) : ServiceCall → Int
  | netServiceBind _ | netServiceConnect _ _ => if 0 < resp.ret then arg resp.buffer 1 else -1
  | netServiceReceive _ _ maxSize =>
    if 0 < resp.ret ∧ 0 < arg resp.buffer 2 then
      toInt32 (receiveSize resp.buffer maxSize % 2 ^ 32)
    else -1
  | netServiceSend _ _ _ | clientBulletMigrateProcess _ _ | clientBulletGetMigrationStatus _ =>
    if 0 < resp.ret then arg resp.buffer 0 else -1

/-- Every stub sends its request and takes its return value out of the response. -/
lemma exec_eq (c : ServiceCall) (s : IpcState) (t : Int) (stack : Stack) :
    c.exec s t stack =
      match c.request stack.request with
      | none => (-1, s)
      | some (req, size) =>
        let resp := sendRequest s t stack c.server req size c.respSize
        (c.finish resp, resp.state) := by
  cases c with
  | netServiceSend socketId data size =>
    unfold exec LibHydra.netServiceSend request
    by_cases hsize : 200 < size
    · simp only [if_pos hsize]
    · simp only [if_neg hsize]
      rfl
  | netServiceReceive socketId buffer maxSize =>
    simp only [exec, LibHydra.netServiceReceive, request, finish, server, respSize]
    split
    · next hdata => simp only [hdata, and_self, if_true]
    · next hnone => simp only [hnone, if_false]
  | netServiceBind | netServiceConnect | clientBulletMigrateProcess
  | clientBulletGetMigrationStatus => rfl

/-- No frame is ever sent, so every stub returns -1. -/
lemma exec_fails (c : ServiceCall) (s : IpcState) (t : Int) (stack : Stack) :
    c.exec s t stack = (-1, s) := by
  have hsend : ∀ req size, sendRequest s t stack c.server req size c.respSize =
      ⟨-1, none, stack.response, s⟩ := by
    intro req size
    unfold sendRequest
    rw [ipcSendMessage_fails]
    rfl
  rw [exec_eq]
  cases c.request stack.request with
  | none => rfl
  | some r =>
    obtain ⟨req, size⟩ := r
    simp only [hsend]
    cases c <;> rfl

/-- The frame of a call by the task `t`. -/
def frame (t : Int) (stack : Stack) (c : ServiceCall) : Option Mem :=
  (c.request stack.request).map fun r =>
    LibHydra.frame stack.sent (syscallGetPid t) c.server msgTypeRequest r.1 r.2

/-- The message is the command for the call, as the handler of its server reads it: the number of
the command, and the arguments where the call has them. The source of a migration is the sender of
the message. A server knows nodes by number, and no rule says which number a name stands for. -/
def RequestAgrees (pid : Int) (msg : Mem) : ServiceCall → Prop
  | netServiceBind port => arg msg 0 = 2 ∧ UInt16.ofNat (word msg 3) = port
  | netServiceConnect addr port =>
    arg msg 0 = 4 ∧ UInt32.ofNat (word msg 2) = addr ∧ UInt16.ofNat (word msg 3) = port
  | netServiceSend socketId data size =>
    arg msg 0 = 5 ∧ arg msg 1 = socketId ∧ arg msg 2 = size ∧
      bytes (shift msg 12) size = bytes data size
  | netServiceReceive socketId _ maxSize =>
    arg msg 0 = 6 ∧ arg msg 1 = socketId ∧ arg msg 2 = (min maxSize 200 : Nat)
  | clientBulletMigrateProcess process _ => arg msg 0 = 1 ∧ pid = process
  | clientBulletGetMigrationStatus process => arg msg 0 = 2 ∧ arg msg 1 = process

/-- The server of the call, in one of its states, gives this reply to the message. -/
def Replies (pid : Int) (msg : Mem) (size : Int) (reply : Option Reply) : ServiceCall → Prop
  | netServiceBind _ | netServiceConnect _ _ | netServiceSend _ _ _ | netServiceReceive _ _ _ =>
    ∃ w, (netHandleClientMessage w pid msg size).1 = reply
  | clientBulletMigrateProcess _ _ | clientBulletGetMigrationStatus _ =>
    ∃ srv, (bulletHandleClientMessage srv pid msg size).1 = reply

/-- Whenever the result that the server replied with is the next message for the task, the stub
returns it, whatever the stack holds. -/
def ReplyAgrees (c : ServiceCall) (t v : Int) : Prop :=
  ∀ n s₀ ops s slot sender l, Initial n s₀ → History.run s₀ ops = some s →
    s.ipc.pending t = ⟨slot, sender, bytes (intBytes v) 4⟩ :: l →
    ∀ stack : Stack, c.finish
      (ipcReceiveMessage s.ipc t stack.received c.server stack.response c.respSize) = v

/-- The frame of the call is the command for it, and the stub returns what the server replies. -/
def Agrees (c : ServiceCall) (t : Int) (stack : Stack) : Prop :=
  ∀ f, c.frame t stack = some f →
    c.RequestAgrees (arg f 0) (shift f 4) ∧
    ∀ v, c.Replies (arg f 0) (shift f 4) (sizeofIpcMessage - 4) (some (intReply v)) →
      c.ReplyAgrees t v

end ServiceCall

section Frame

variable (stack data : Mem) (t : Int) (size : Nat)

/-- The network server takes every frame that is addressed to its pid 2 for a bind of the socket 2:
the ip is the size of the request and the port is its first two bytes. -/
lemma netHandle_frame (w : NetWorld) (pid : Int) :
    netHandleClientMessage w pid (shift (frame stack t netServerPid msgTypeRequest data size) 4)
        (sizeofIpcMessage - 4) =
      let bound := bindSocket w.netserv msgTypeRequest (UInt32.ofNat (ofInt32 size))
        (UInt16.ofNat (load (frame stack t netServerPid msgTypeRequest data size) 16 4))
      (some (intReply bound.1), { w with netserv := bound.2 }) := by
  obtain ⟨_, hreceiver, htype, hsize⟩ := load_frame stack t netServerPid msgTypeRequest data size
  have hcmd : arg (shift (frame stack t netServerPid msgTypeRequest data size) 4) 0 = 2 := by
    rw [arg_shift, arg, word, hreceiver]
    rfl
  have hsock : arg (shift (frame stack t netServerPid msgTypeRequest data size) 4) 1 =
      msgTypeRequest := by
    rw [arg_shift, arg, word, htype]
    rfl
  have hip : word (shift (frame stack t netServerPid msgTypeRequest data size) 4) 2 =
      ofInt32 size := by
    rw [word, load_shift, hsize]
  have hport : word (shift (frame stack t netServerPid msgTypeRequest data size) 4) 3 =
      load (frame stack t netServerPid msgTypeRequest data size) 16 4 := by
    rw [word, load_shift]
  unfold netHandleClientMessage
  rw [if_neg (by decide), hcmd, hsock, hip, hport]
  rfl

/-- The bullet server takes every frame that is addressed to its pid 1 for a migration of the sender
to node 2. -/
lemma bulletHandle_frame (srv : BulletServer) (pid : Int) (hsize : size < 2 ^ 31) :
    bulletHandleClientMessage srv pid
        (shift (frame stack t bulletServerPid msgTypeRequest data size) 4) (sizeofIpcMessage - 4) =
      let recorded := handleMigrationRequest srv pid msgTypeRequest 16 size
      (some (intReply recorded.1), recorded.2) := by
  obtain ⟨_, hreceiver, htype, hlen⟩ := load_frame stack t bulletServerPid msgTypeRequest data size
  have hcmd : arg (shift (frame stack t bulletServerPid msgTypeRequest data size) 4) 0 = 1 := by
    rw [arg_shift, arg, word, hreceiver]
    rfl
  have hnode : arg (shift (frame stack t bulletServerPid msgTypeRequest data size) 4) 1 =
      msgTypeRequest := by
    rw [arg_shift, arg, word, htype]
    rfl
  have hdata : arg (shift (frame stack t bulletServerPid msgTypeRequest data size) 4) 2 = size := by
    rw [arg_shift, arg, word, hlen, toInt32_ofInt32 (by omega) (by omega)]
  unfold bulletHandleClientMessage
  rw [if_neg (by decide), hcmd, hnode, hdata]
  rfl

end Frame

/-! ## Replies -/

/-- A reply of the server is in the queue of the task. -/
lemma reply_sent {t : Int} (ht : 0 ≤ t ∧ t < maxTasks) (v server : Int) :
    ∃ s slot, History.run poolState [.sendMessage server t (some (intBytes v)) 4] = some s ∧
      s.ipc.pending t = [⟨slot, server, bytes (intBytes v) 4⟩] :=
  History.send_one server ⟨ht, by decide, rfl⟩

/-- A reply of four bytes on a stack that is filled with one value has this value where the frame
has its size and its data. -/
lemma paste_reply (v : Int) (x : UInt8) {i : Nat} (hi : 4 ≤ i) :
    paste ((bytes (intBytes v) 4).take sizeofIpcMessage.toNat) (fun _ => x) i = x := by
  unfold paste
  apply List.getD_eq_default
  rw [List.length_take, length_bytes]
  exact (min_le_right _ _).trans hi

namespace ServiceCall

lemma respSize_range (c : ServiceCall) : 12 ≤ c.respSize ∧ c.respSize ≤ 212 := by
  cases c <;> simp only [respSize] <;> decide

/-- Without a response a stub returns -1. -/
lemma finish_none (c : ServiceCall) {resp : IpcReception} (h : ¬0 < resp.ret) :
    c.finish resp = -1 := by
  cases c with
  | netServiceReceive => exact if_neg fun hr => h hr.1
  | netServiceBind | netServiceConnect | netServiceSend | clientBulletMigrateProcess
  | clientBulletGetMigrationStatus => exact if_neg h

/-- The words of the response other than -1 make a result other than -1. -/
lemma finish_ne (c : ServiceCall) {resp : IpcReception} (hret : 0 < resp.ret)
    (hword : ∀ i < 3, arg resp.buffer i = 0x01010101) : c.finish resp ≠ -1 := by
  have hne : (0x01010101 : Int) ≠ -1 := by decide
  cases c with
  | netServiceReceive socketId buffer maxSize =>
    have hpos : 0 < arg resp.buffer 2 := by
      rw [hword 2 (by decide)]
      decide
    have hle : receiveSize resp.buffer maxSize ≤ 0x01010101 := by
      unfold receiveSize toSize
      rw [hword 2 (by decide)]
      split <;> omega
    have hresult : (netServiceReceive socketId buffer maxSize).finish resp =
        toInt32 (receiveSize resp.buffer maxSize % 2 ^ 32) := if_pos ⟨hret, hpos⟩
    rw [hresult]
    unfold toInt32
    split <;> omega
  | netServiceBind | netServiceConnect =>
    simp only [finish, if_pos hret, hword 1 (by decide)]
    exact hne
  | netServiceSend | clientBulletMigrateProcess | clientBulletGetMigrationStatus =>
    simp only [finish, if_pos hret, hword 0 (by decide)]
    exact hne

/-- On a stack of zeros the reply counts as empty. -/
lemma finish_zeros (c : ServiceCall) (v : Int) (response : Mem) (s : IpcState) :
    c.finish (unframe (paste ((bytes (intBytes v) 4).take sizeofIpcMessage.toNat) fun _ => 0)
      response c.respSize s) = -1 := by
  have hsize : load (paste ((bytes (intBytes v) 4).take sizeofIpcMessage.toNat) fun _ => 0) 12 4 =
      0 := by
    rw [load_congr fun x hx _ => paste_reply v 0 (by omega)]
    rfl
  have hpos := c.respSize_range.1
  apply finish_none
  unfold unframe
  simp only [hsize]
  rw [if_pos (show toSize (toInt32 0) < c.respSize by exact lt_of_lt_of_le (by decide) hpos)]
  decide

/-- On a stack of ones the reply counts as long, and the response is filled from the stack. -/
lemma finish_ones (c : ServiceCall) (v : Int) (response : Mem) (s : IpcState) :
    c.finish (unframe (paste ((bytes (intBytes v) 4).take sizeofIpcMessage.toNat) fun _ => 1)
      response c.respSize s) ≠ -1 := by
  have hones : ∀ a, load (fun _ => 1) a 4 = 0x01010101 := fun a => by simp [load]
  have hsize : load (paste ((bytes (intBytes v) 4).take sizeofIpcMessage.toNat) fun _ => 1) 12 4 =
      0x01010101 := by
    rw [load_congr fun x hx _ => paste_reply v 1 (by omega)]
    exact hones 12
  obtain ⟨hlo, hhi⟩ := c.respSize_range
  have hcopy : (if toSize (toInt32 0x01010101) < c.respSize then toSize (toInt32 0x01010101)
      else c.respSize) = c.respSize := by
    apply if_neg
    have : toSize (toInt32 0x01010101) = 0x01010101 := by decide
    omega
  unfold unframe
  simp only [hsize, hcopy]
  apply finish_ne
  · simp only
    unfold toInt32
    split <;> omega
  · intro i hi
    unfold arg word
    rw [load_congr (m := fun _ => 1) fun x _ hx => ?_, hones]
    · decide
    · exact (copy_apply _ _ _ x).trans ((if_pos (by omega)).trans (paste_reply v 1 (by omega)))

/-- No result of a server is what a stub returns whatever the stack holds. -/
lemma not_replyAgrees (c : ServiceCall) {t : Int} (ht : 0 ≤ t ∧ t < maxTasks) (v : Int) :
    ¬c.ReplyAgrees t v := by
  obtain ⟨s, slot, hrun, hb⟩ := reply_sent ht v c.server
  obtain ⟨slots, free, box, hrep, _⟩ := History.inv_of_run poolState_initial hrun
  intro hagrees
  have hfill : ∀ x : UInt8, ∃ s', c.finish (unframe
      (paste ((bytes (intBytes v) 4).take sizeofIpcMessage.toNat) fun _ => x)
      (fun _ => 0) c.respSize s') = v := by
    intro x
    obtain ⟨s', e⟩ := ipcReceiveMessage_take hrep (hrep.pending_eq ▸ hb) (fun _ => x) c.server
      (fun _ => 0) c.respSize
    refine ⟨s', ?_⟩
    rw [← e]
    exact hagrees 2 poolState _ s slot c.server [] poolState_initial hrun hb
      ⟨fun _ => 0, fun _ => 0, fun _ => x, fun _ => 0⟩
  obtain ⟨s₁, hzeros⟩ := hfill 0
  obtain ⟨s₂, hones⟩ := hfill 1
  rw [finish_zeros] at hzeros
  exact c.finish_ones v _ s₂ (hones.trans hzeros.symm)

/-- The server replies to every frame with an `int`. -/
lemma frame_replies (c : ServiceCall) {t : Int} {stack : Stack} {f : Mem}
    (hf : c.frame t stack = some f) :
    ∃ v, c.Replies (arg f 0) (shift f 4) (sizeofIpcMessage - 4) (some (intReply v)) := by
  obtain ⟨⟨req, size⟩, hreq, rfl⟩ := Option.map_eq_some_iff.mp hf
  cases c with
  | netServiceBind | netServiceConnect | netServiceSend | netServiceReceive =>
    exact ⟨_, startedNet, congrArg Prod.fst (netHandle_frame stack.sent req t size startedNet _)⟩
  | clientBulletMigrateProcess | clientBulletGetMigrationStatus =>
    obtain ⟨_, hsize⟩ := Prod.mk.inj (Option.some.inj hreq)
    exact ⟨_, startedBullet, congrArg Prod.fst
      (bulletHandle_frame stack.sent req t size startedBullet _ (by omega))⟩

/-- Only the frames for a bind, and for a migration of the caller itself, are read as the command
for the call. -/
lemma requestAgrees_cases (c : ServiceCall) {t : Int} (ht : 0 ≤ t ∧ t < maxTasks) {stack : Stack}
    {f : Mem} (hf : c.frame t stack = some f) (hreq : c.RequestAgrees (arg f 0) (shift f 4)) :
    (∃ port, c = netServiceBind port) ∨ ∃ node, c = clientBulletMigrateProcess t node := by
  obtain ⟨⟨req, size⟩, _, rfl⟩ := Option.map_eq_some_iff.mp hf
  obtain ⟨hsender, hreceiver, _, _⟩ :=
    load_frame stack.sent (syscallGetPid t) c.server msgTypeRequest req size
  have hcmd : arg (shift (LibHydra.frame stack.sent (syscallGetPid t) c.server msgTypeRequest
      req size) 4) 0 = toInt32 (ofInt32 c.server) := by
    rw [arg_shift, arg, word, hreceiver]
  cases c with
  | netServiceBind port => exact .inl ⟨port, rfl⟩
  | clientBulletMigrateProcess process node =>
    have hpid : toInt32 (ofInt32 t) = process := by
      rw [← hreq.2, arg, word, hsender]
      rfl
    have hmax : maxTasks = 8 := rfl
    rw [toInt32_ofInt32 (by omega) (by omega)] at hpid
    exact .inr ⟨node, by rw [hpid]⟩
  | netServiceConnect | netServiceSend | netServiceReceive | clientBulletGetMigrationStatus =>
    have hcode := hcmd.symm.trans hreq.1
    simp only [server] at hcode
    exact absurd hcode (by decide)

end ServiceCall

/-- Every stub returns -1 and sends nothing. Whatever the arguments with which it makes a frame, the
frame is not the command for the call with a reply that the stub understands; most frames are not
even the command. -/
theorem services_speak_one_format (c : ServiceCall) (t : Int) (ht : 0 ≤ t ∧ t < maxTasks)
    (stack : Stack) :
    (∀ s, c.exec s t stack = (-1, s)) ∧
    (∀ f, c.frame t stack = some f → c.RequestAgrees (arg f 0) (shift f 4) →
      (∃ port, c = .netServiceBind port) ∨ ∃ node, c = .clientBulletMigrateProcess t node) ∧
    (c.Agrees t stack ↔
      ∃ socketId data size, c = .netServiceSend socketId data size ∧ 200 < size) := by
  rw [← ServiceCall.request_eq_none]
  refine ⟨fun s => c.exec_fails s t stack, fun f hf => c.requestAgrees_cases ht hf,
    fun hagrees => ?_, fun hnone f hf => ?_⟩
  · by_contra hsome
    obtain ⟨r, hr⟩ := Option.ne_none_iff_exists'.mp hsome
    have hf := congrArg (Option.map fun r =>
      frame stack.sent (syscallGetPid t) c.server msgTypeRequest r.1 r.2) hr
    obtain ⟨v, hv⟩ := c.frame_replies hf
    exact c.not_replyAgrees ht v ((hagrees _ hf).2 v hv)
  · rw [ServiceCall.frame, hnone] at hf
    cases hf

/-- The memory of the local structs, all zeros. -/
def clearedStack : Stack := ⟨fun _ => 0, fun _ => 0, fun _ => 0, fun _ => 0⟩

theorem services_speak_one_format_bind :
    ¬(ServiceCall.netServiceBind 80).Agrees 1 clearedStack := by
  have h := services_speak_one_format (.netServiceBind 80) 1 (by decide) clearedStack
  intro hagrees
  obtain ⟨_, _, _, hc, _⟩ := h.2.2.mp hagrees
  cases hc

/-- Task 1 asks the network server to connect to 10.0.0.1 and port 80. -/
theorem services_speak_one_format_fails :
    (ServiceCall.netServiceConnect 0x0a000001 80).exec poolState 1 clearedStack = (-1, poolState) ∧
      ((ServiceCall.netServiceConnect 0x0a000001 80).frame 1 clearedStack).map
        (fun f => arg (shift f 4) 0) = some 2 ∧
      ¬(ServiceCall.netServiceConnect 0x0a000001 80).Agrees 1 clearedStack := by
  refine ⟨ServiceCall.exec_fails _ _ _ _, by decide +kernel, fun hagrees => ?_⟩
  obtain ⟨hreq, _⟩ := hagrees _ rfl
  exact absurd hreq.1 (by decide +kernel)

end Hydra.LibHydra
