import Hydra.Server.Socket

/-!
# Who can touch a socket

A socket records the task that created it, but no command compares that with the sender of a
message: the six commands that take a socket id act on whatever socket has it. What isolates the
sockets from each other is the id alone. A message that does not name the id of a socket neither
reads nor changes the socket (`Unaffected`): the slot keeps it, and with any other socket of the
same id in the slot the server would send the same reply and do the same to the rest.

So the owner of a socket has it for himself in those histories in which no other task names its id
(`socket_isolation`), and in no others: the ids are small consecutive numbers.
-/

namespace Hydra.Server
open ByteMem Hydra.LibHydra Hydra.Net

/-- The command of the message is one that takes a socket id, and it names this one. -/
def Names (msg : Mem) (sockId : Int) : Prop :=
  2 ≤ arg msg 0 ∧ arg msg 0 ≤ 7 ∧ arg msg 1 = sockId

instance (msg : Mem) (sockId : Int) : Decidable (Names msg sockId) :=
  inferInstanceAs (Decidable (_ ∧ _ ∧ _))

/-- Handling a message neither changes nor reads the socket in a slot. -/
structure Unaffected (w : NetWorld) (i : Nat) (senderPid : Int) (msg : Mem) (size : Int) : Prop where
  kept : (netHandleClientMessage w senderPid msg size).2.netserv.sockets i = w.netserv.sockets i
  unread : ∀ sock : Socket, sock.inUse = true → sock.sockId = (w.netserv.sockets i).sockId →
    netHandleClientMessage (w.setSocket i sock) senderPid msg size =
      ((netHandleClientMessage w senderPid msg size).1,
        (netHandleClientMessage w senderPid msg size).2.setSocket i sock)

/-! ## Commands and other slots -/

lemma NetServer.setSocket_comm (srv : NetServer) {i j : Nat} (h : j ≠ i) (a b : Socket) :
    (srv.setSocket i a).setSocket j b = (srv.setSocket j b).setSocket i a := by
  simp [setSocket, Function.update_comm h]

section Frame

variable {srv : NetServer} {i : Nat} {sock : Socket} (hold : (srv.sockets i).inUse = true)
  (huse : sock.inUse = true) (hid : sock.sockId = (srv.sockets i).sockId)
include hold huse hid

/-- The searches of the table see the flag and the id of a slot only. -/
lemma setSocket_looks (j : Nat) :
    ((srv.setSocket i sock).sockets j).inUse = (srv.sockets j).inUse ∧
      ((srv.setSocket i sock).sockets j).sockId = (srv.sockets j).sockId := by
  rcases eq_or_ne j i with rfl | hne
  · rw [NetServer.setSocket_self, huse, hold, hid]
    exact ⟨rfl, rfl⟩
  · rw [NetServer.setSocket_of_ne srv hne]
    exact ⟨rfl, rfl⟩

lemma findSocket_setSocket (x : Int) : findSocket (srv.setSocket i sock) x = findSocket srv x := by
  have hlooks := setSocket_looks hold huse hid
  unfold findSocket
  simp only [hlooks]

lemma freeSlot_setSocket : freeSlot (srv.setSocket i sock) = freeSlot srv := by
  have hlooks := setSocket_looks hold huse hid
  unfold freeSlot
  simp only [hlooks]

lemma allocateSocket_frame (clientPid type : Int) :
    allocateSocket (srv.setSocket i sock) clientPid type =
      ((allocateSocket srv clientPid type).1,
        (allocateSocket srv clientPid type).2.setSocket i sock) := by
  have hfree := freeSlot_setSocket hold huse hid
  cases h : freeSlot srv with
  | none =>
    rw [h] at hfree
    rw [allocateSocket_none h, allocateSocket_none hfree]
  | some j =>
    rw [h] at hfree
    have hji : j ≠ i := by
      rintro rfl
      rw [(freeSlot_some h).2] at hold
      cases hold
    rw [allocateSocket_some h, allocateSocket_some hfree]
    unfold newSocket
    rw [NetServer.setSocket_of_ne srv hji, NetServer.setSocket_comm srv hji]
    rfl

section Named

variable {x : Int} (hx : x ≠ (srv.sockets i).sockId)
include hx

omit hold huse hid in
lemma findSocket_ne {j : Nat} (h : findSocket srv x = some j) : j ≠ i := by
  rintro rfl
  exact hx (findSocket_some h).2.2.symm

/-- A lookup finds nothing in both tables, or the same slot, which is another one. -/
lemma findSocket_frame :
    (findSocket srv x = none ∧ findSocket (srv.setSocket i sock) x = none) ∨
      ∃ j, findSocket srv x = some j ∧ findSocket (srv.setSocket i sock) x = some j ∧
        (srv.setSocket i sock).sockets j = srv.sockets j ∧
        ∀ s, (srv.setSocket i sock).setSocket j s = (srv.setSocket j s).setSocket i sock := by
  rw [findSocket_setSocket hold huse hid]
  cases h : findSocket srv x with
  | none => exact .inl ⟨rfl, rfl⟩
  | some j =>
    have hji := findSocket_ne hx h
    exact .inr ⟨j, rfl, rfl, NetServer.setSocket_of_ne srv hji sock,
      NetServer.setSocket_comm srv hji sock⟩

lemma closeSocket_frame :
    closeSocket (srv.setSocket i sock) x = (closeSocket srv x).setSocket i sock := by
  unfold closeSocket
  rcases findSocket_frame hold huse hid hx with ⟨h, h'⟩ | ⟨j, h, h', hsame, hcomm⟩
  · rw [h, h']
  · rw [h, h']
    simp only [hsame, hcomm]

lemma bindSocket_frame (ip : UInt32) (port : UInt16) :
    bindSocket (srv.setSocket i sock) x ip port =
      ((bindSocket srv x ip port).1, (bindSocket srv x ip port).2.setSocket i sock) := by
  unfold bindSocket
  rcases findSocket_frame hold huse hid hx with ⟨h, h'⟩ | ⟨j, h, h', hsame, hcomm⟩
  · rw [h, h']
  · rw [h, h']
    simp only [hsame, hcomm]

lemma listenSocket_frame (backlog : Int) :
    listenSocket (srv.setSocket i sock) x backlog =
      ((listenSocket srv x backlog).1, (listenSocket srv x backlog).2.setSocket i sock) := by
  unfold listenSocket
  rcases findSocket_frame hold huse hid hx with ⟨h, h'⟩ | ⟨j, h, h', hsame, hcomm⟩
  · rw [h, h']
  · rw [h, h']
    simp only [hsame, hcomm]
    split <;> rfl

lemma connectSocket_frame (ip : UInt32) (port : UInt16) :
    connectSocket (srv.setSocket i sock) x ip port =
      ((connectSocket srv x ip port).1, (connectSocket srv x ip port).2.setSocket i sock) := by
  unfold connectSocket
  rcases findSocket_frame hold huse hid hx with ⟨h, h'⟩ | ⟨j, h, h', hsame, hcomm⟩
  · rw [h, h']
  · rw [h, h']
    simp only [hsame, hcomm]
    split <;> rfl

lemma recvSocketData_frame (buffer : Mem) (maxLen : Int) :
    recvSocketData (srv.setSocket i sock) x buffer maxLen =
      ((recvSocketData srv x buffer maxLen).1, (recvSocketData srv x buffer maxLen).2.1,
        (recvSocketData srv x buffer maxLen).2.2.setSocket i sock) := by
  unfold recvSocketData
  rcases findSocket_frame hold huse hid hx with ⟨h, h'⟩ | ⟨j, h, h', hsame, hcomm⟩
  · rw [h, h']
  · rw [h, h']
    simp only [hsame, hcomm]
    split <;> rfl

end Named

end Frame

/-! ## Messages -/

section Messages

variable {w : NetWorld} {i : Nat} {sock : Socket} (hold : (w.netserv.sockets i).inUse = true)
  (huse : sock.inUse = true) (hid : sock.sockId = (w.netserv.sockets i).sockId)
include hold huse hid

lemma sendSocketData_frame {x : Int} (hx : x ≠ (w.netserv.sockets i).sockId) (data : Mem)
    (len : Int) :
    sendSocketData (w.setSocket i sock) x data len =
      ((sendSocketData w x data len).1, (sendSocketData w x data len).2.setSocket i sock) := by
  unfold sendSocketData NetWorld.setSocket
  rcases findSocket_frame hold huse hid hx with ⟨h, h'⟩ | ⟨j, h, h', hsame, _⟩
  · simp only [h, h']
  · simp only [h, h', hsame]
    split <;> rfl

lemma netRecvCommand_frame {msg : Mem} (hx : arg msg 1 ≠ (w.netserv.sockets i).sockId) :
    netRecvCommand (w.setSocket i sock) msg =
      ((netRecvCommand w msg).1, (netRecvCommand w msg).2.setSocket i sock) := by
  have hrecv := recvSocketData_frame hold huse hid hx
  unfold netRecvCommand NetWorld.setSocket
  simp only [recvLimit_eq, hrecv]
  split <;> rfl

omit hold huse hid in
/-- Commands that answer with the result of a function of the table. -/
lemma answer_frame {r r' : Int × NetServer} (h : r' = (r.1, r.2.setSocket i sock)) :
    ((some (intReply r'.1) : Option Reply), { w.setSocket i sock with netserv := r'.2 }) =
      (some (intReply r.1), ({ w with netserv := r.2 } : NetWorld).setSocket i sock) := by
  rw [h]
  rfl

/-- With another socket of the same id in a slot, a message that does not name the id gets the same
reply and does the same to the rest. -/
lemma netHandle_frame {msg : Mem} (hno : ¬Names msg (w.netserv.sockets i).sockId) (senderPid size : Int) :
    netHandleClientMessage (w.setSocket i sock) senderPid msg size =
      ((netHandleClientMessage w senderPid msg size).1,
        (netHandleClientMessage w senderPid msg size).2.setSocket i sock) := by
  have hx : 2 ≤ arg msg 0 → arg msg 0 ≤ 7 → arg msg 1 ≠ (w.netserv.sockets i).sockId :=
    fun h2 h7 e => hno ⟨h2, h7, e⟩
  unfold netHandleClientMessage
  by_cases hshort : size < 4
  · rw [if_pos hshort, if_pos hshort]
  · rw [if_neg hshort, if_neg hshort]
    split
    · split
      · exact answer_frame (allocateSocket_frame hold huse hid senderPid (arg msg 1))
      · rfl
    · next hcmd =>
      split
      · exact answer_frame (bindSocket_frame hold huse hid (hx (by omega) (by omega)) _ _)
      · rfl
    · next hcmd =>
      split
      · exact answer_frame (listenSocket_frame hold huse hid (hx (by omega) (by omega)) _)
      · rfl
    · next hcmd =>
      split
      · exact answer_frame (connectSocket_frame hold huse hid (hx (by omega) (by omega)) _ _)
      · rfl
    · next hcmd =>
      split
      · have hsend := sendSocketData_frame hold huse hid (hx (by omega) (by omega)) (shift msg 12)
          (arg msg 2)
        simp only [hsend]
      · rfl
    · next hcmd =>
      split
      · exact netRecvCommand_frame hold huse hid (hx (by omega) (by omega))
      · rfl
    · next hcmd =>
      split
      · have hclose := closeSocket_frame hold huse hid (hx (by omega) (by omega))
        unfold NetWorld.setSocket
        simp only [hclose]
      · rfl
    · rfl

omit huse hid in
/-- A message that does not name a socket in use leaves it alone. -/
lemma unaffected_of_not_names {msg : Mem} (hno : ¬Names msg (w.netserv.sockets i).sockId)
    (senderPid size : Int) : Unaffected w i senderPid msg size := by
  have hframe := fun (sock : Socket) (huse : sock.inUse = true)
    (hid : sock.sockId = (w.netserv.sockets i).sockId) =>
      netHandle_frame hold huse hid hno senderPid size
  refine ⟨?_, hframe⟩
  -- put the socket that is there into the slot
  have hsame := hframe (w.netserv.sockets i) hold rfl
  rw [w.setSocket_eq_self i] at hsame
  rw [hsame]
  exact NetServer.setSocket_self _ i _

end Messages

/-! ## Histories -/

/-- The message as the server's handler gets it, without its first word. -/
def NetHistory.msgData (h : NetHistory) (body : List UInt8) : Mem :=
  shift (deliver h.msgBuffer body) 4

/-- A message of this history leaves the socket in a slot alone. -/
def NetHistory.LeavesAlone (h : NetHistory) (i : Nat) (body : List UInt8) : Prop :=
  Unaffected h.world i (arg (deliver h.msgBuffer body) 0) (h.msgData body) (body.length - 4)

/-- If the message names a socket, it was sent by the task that created it. -/
def NetHistory.ByOwner (h : NetHistory) : NetOp → Prop
  | .message sender body => ∀ id p, (id, p) ∈ h.created → Names (h.msgData body) id → sender = p
  | .packet _ _ => True

/-- The message of another task. -/
def NetOp.NotFrom (p : Int) : NetOp → Prop
  | .message sender _ => sender ≠ p
  | .packet _ _ => False

section Owner

variable {h : NetHistory} {id p : Int} {i : Nat} (huse : (h.world.netserv.sockets i).inUse = true)
  (hid : (h.world.netserv.sockets i).sockId = id) (hp : (id, p) ∈ h.created)
include huse hid

lemma leavesAlone_of_not_names {body : List UInt8} (hno : ¬Names (h.msgData body) id) :
    h.LeavesAlone i body := by
  rw [← hid] at hno
  exact unaffected_of_not_names huse hno _ _

include hp

lemma leavesAlone_of_byOwner {sender : Int} {body : List UInt8}
    (hown : h.ByOwner (.message sender body)) (hne : sender ≠ p) : h.LeavesAlone i body :=
  leavesAlone_of_not_names huse hid fun hname => hne (hown id p hp hname)

/-- Messages of other tasks keep the socket, one after the other. -/
lemma run_keeps {ops : List NetOp} (hothers : ∀ op ∈ ops, op.NotFrom p)
    (hown : Run.Admissible NetHistory.step NetHistory.ByOwner h ops) {h' : NetHistory}
    (hrun : NetHistory.run h ops = some h') :
    h'.world.netserv.sockets i = h.world.netserv.sockets i := by
  induction ops generalizing h with
  | nil =>
    obtain rfl : h = h' := Option.some.inj hrun
    rfl
  | cons op ops ih =>
    obtain ⟨hop, hrest⟩ := List.forall_mem_cons.mp hothers
    cases op with
    | packet packetBuffer pkt => exact hop.elim
    | message sender body =>
      obtain ⟨hfirst, hown'⟩ := (Run.admissible_cons rfl).mp hown
      have hkept := (leavesAlone_of_byOwner huse hid hp hfirst hop).kept
      have huse' : ((h.message sender body).world.netserv.sockets i).inUse = true :=
        (congrArg Socket.inUse hkept).trans huse
      have hid' : ((h.message sender body).world.netserv.sockets i).sockId = id :=
        (congrArg Socket.sockId hkept).trans hid
      exact (ih huse' hid' (List.mem_append_left _ hp) hrest hown' hrun).trans hkept

end Owner

/-- In every history each socket has one creator. A message has an effect on the socket only if it
names its id, whoever sent it; so as long as the messages that name a socket come from its creator,
messages of other tasks have no effect on it, however many. -/
theorem socket_isolation (srv : NetServer) (stats : NetStats) (currentTask : Int) (msgBuffer : Mem)
    (ops : List NetOp) (h : NetHistory)
    (hrun : NetHistory.run (.start srv stats currentTask msgBuffer) ops = some h) (id : Int) (i : Nat)
    (hfind : findSocket h.world.netserv id = some i) :
    ∃ p, (id, p) ∈ h.created ∧ (∀ q, (id, q) ∈ h.created → q = p) ∧
      (∀ body, ¬Names (h.msgData body) id → h.LeavesAlone i body) ∧
      (∀ sender body, h.ByOwner (.message sender body) → sender ≠ p → h.LeavesAlone i body) ∧
      ∀ ops', (∀ op ∈ ops', op.NotFrom p) →
        Run.Admissible NetHistory.step NetHistory.ByOwner h ops' →
        ∀ h', NetHistory.run h ops' = some h' →
          h'.world.netserv.sockets i = h.world.netserv.sockets i := by
  have hi := NetHistory.inv_of_run hrun
  obtain ⟨hlt, huse, hid⟩ := findSocket_some hfind
  obtain ⟨p, hp⟩ := hi.known i hlt huse
  rw [hid] at hp
  refine ⟨p, hp, fun q hq => ?_, fun _ => leavesAlone_of_not_names huse hid,
    fun _ _ => leavesAlone_of_byOwner huse hid hp, fun _ hothers hown _ =>
    run_keeps huse hid hp hothers hown⟩
  have hnd := hi.nodup
  have heq := List.inj_on_of_nodup_map hnd hq hp rfl
  exact (Prod.mk.inj heq).2

/-- Task 1 creates socket 1. -/
def createByOne : List NetOp := [.message 1 [1, 0, 0, 0, 1, 0, 0, 0, 1, 0, 0, 0]]

/-- The message that closes socket 1, with the pid of task 2 in front. -/
def closeOne : List UInt8 := [2, 0, 0, 0, 7, 0, 0, 0, 1, 0, 0, 0]

lemma createByOne_run :
    ∃ h, NetHistory.run (.start bootNet ⟨0, 0, 0, 0, 0, 0⟩ 4 fun _ => 0) createByOne = some h ∧
      h.created = [(1, 1)] ∧ findSocket h.world.netserv 1 = some 0 ∧
      (h.world.netserv.sockets 0).inUse = true ∧
      ((h.message 2 closeOne).world.netserv.sockets 0).inUse = false := by
  have hrun : (NetHistory.run (.start bootNet ⟨0, 0, 0, 0, 0, 0⟩ 4 fun _ => 0) createByOne).map
      (fun h => (h.created, findSocket h.world.netserv 1, (h.world.netserv.sockets 0).inUse,
        ((h.message 2 closeOne).world.netserv.sockets 0).inUse)) =
      some ([(1, 1)], some 0, true, false) := by decide +kernel
  obtain ⟨h, hrun, hfacts⟩ := Option.map_eq_some_iff.mp hrun
  simp only [Prod.mk.injEq] at hfacts
  exact ⟨h, hrun, hfacts⟩

theorem socket_isolation_one :
    ∃ h, NetHistory.run (.start bootNet ⟨0, 0, 0, 0, 0, 0⟩ 4 fun _ => 0) createByOne = some h ∧
      ∃ p, (1, p) ∈ h.created ∧
        ∀ sender body, h.ByOwner (.message sender body) → sender ≠ p → h.LeavesAlone 0 body := by
  obtain ⟨h, hrun, _, hfind, _⟩ := createByOne_run
  obtain ⟨p, hp, _, _, hown, _⟩ :=
    socket_isolation bootNet ⟨0, 0, 0, 0, 0, 0⟩ 4 (fun _ => 0) createByOne h hrun 1 0 hfind
  exact ⟨h, hrun, p, hp, hown⟩

/-- Task 2 closes the socket of task 1. -/
theorem socket_isolation_fails :
    ∃ h, NetHistory.run (.start bootNet ⟨0, 0, 0, 0, 0, 0⟩ 4 fun _ => 0) createByOne = some h ∧
      (1, 1) ∈ h.created ∧ findSocket h.world.netserv 1 = some 0 ∧
      (h.world.netserv.sockets 0).inUse = true ∧
      ((h.message 2 closeOne).world.netserv.sockets 0).inUse = false := by
  obtain ⟨h, hrun, hcreated, hfacts⟩ := createByOne_run
  refine ⟨h, hrun, ?_, hfacts⟩
  rw [hcreated]
  exact List.mem_singleton_self _

end Hydra.Server
