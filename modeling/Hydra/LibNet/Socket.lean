import Hydra.LibHydra.Ipc

/-!
# The socket library

The descriptor table of `lib/libnet/socket.c` and the calls that programs make. A slot whose state
is `SOCK_CLOSED` counts as free. But `socket` leaves the slot it hands out in that state, and `bind`
and `connect` refuse a closed slot, so no call ever takes a slot out of it: in every reachable table
all slots are closed (`AllClosed`). The next `socket` hands out the same descriptor again
(`descriptors_exclusive`), and no socket is ever bound or connected (`stream_lifecycle`).
-/

namespace Hydra.LibNet
open ByteMem Hydra.Ipc Hydra.LibHydra

/-- `SOCK_STREAM`. -/
def sockStream : Int := 1

/-- `SOCK_DGRAM`. -/
def sockDgram : Int := 2

/-- `AF_INET`. -/
def afInet : Int := 2

/-- `MAX_SOCKETS`. -/
def maxSockets : Nat := 16

/-- `NET_SERVER_PID`, as the library assumes it. -/
def netServerPid : Int := 2

/-- The states of a socket. -/
inductive SockState where
  | closed
  | bound
  | listening
  | connected
  deriving DecidableEq, Repr

/-- `struct socket_info`. -/
structure SocketInfo where
  type : Int
  state : SockState
  localPort : UInt16
  localAddr : UInt32
  remotePort : UInt16
  remoteAddr : UInt32

/-- `struct sockaddr_in`, without its padding. -/
structure SockaddrIn where
  sinFamily : UInt16
  sinPort : UInt16
  sinAddr : UInt32

/-- The array `sockets`. -/
abbrev Table := Nat → SocketInfo

/-- The array at boot. -/
def bootTable : Table := fun _ => ⟨0, .closed, 0, 0, 0, 0⟩

/-- The slot of a descriptor, if it is in range. -/
def index (sockfd : Int) : Option Nat :=
  if sockfd < 1 ∨ maxSockets < sockfd then none else some (sockfd - 1).toNat

/-- C `socket`. -/
def socket (sockets : Table) (domain type _protocol : Int) : Int × Table :=
  if domain ≠ afInet then (-1, sockets)
  else if type ≠ sockStream ∧ type ≠ sockDgram then (-1, sockets)
  else
    match (List.range maxSockets).find? fun i => (sockets i).state = .closed with
    | none => (-1, sockets)
    | some i => (i + 1, Function.update sockets i ⟨type, .closed, 0, 0, 0, 0⟩)

/-- C `bind`. -/
def bind (sockets : Table) (sockfd : Int) (addr : SockaddrIn) : Int × Table :=
  match index sockfd with
  | none => (-1, sockets)
  | some idx =>
    if (sockets idx).state = .closed then (-1, sockets)
    else if (addr.sinFamily.toNat : Int) ≠ afInet then (-1, sockets)
    else
      (0, Function.update sockets idx { sockets idx with
        localPort := addr.sinPort, localAddr := addr.sinAddr, state := .bound })

/-- C `listen`. -/
def listen (sockets : Table) (sockfd _backlog : Int) : Int × Table :=
  match index sockfd with
  | none => (-1, sockets)
  | some idx =>
    if (sockets idx).state ≠ .bound ∨ (sockets idx).type ≠ sockStream then (-1, sockets)
    else (0, Function.update sockets idx { sockets idx with state := .listening })

/-- C `accept`. -/
def accept (sockets : Table) (sockfd : Int) : Int × Table :=
  match index sockfd with
  | none => (-1, sockets)
  | some idx =>
    if (sockets idx).state ≠ .listening then (-1, sockets)
    else
      let (newSockfd, sockets) := socket sockets afInet sockStream 0
      if newSockfd < 0 then (-1, sockets)
      else
        let newIdx := (newSockfd - 1).toNat
        (newSockfd, Function.update sockets newIdx { sockets newIdx with
          state := .connected
          localPort := (sockets idx).localPort
          localAddr := (sockets idx).localAddr })

/-- C `connect`. -/
def connect (sockets : Table) (sockfd : Int) (addr : SockaddrIn) : Int × Table :=
  match index sockfd with
  | none => (-1, sockets)
  | some idx =>
    if (sockets idx).state = .closed then (-1, sockets)
    else if (addr.sinFamily.toNat : Int) ≠ afInet then (-1, sockets)
    else
      (0, Function.update sockets idx { sockets idx with
        remotePort := addr.sinPort, remoteAddr := addr.sinAddr, state := .connected })

/-- C `close_user_socket`. -/
def closeUserSocket (sockets : Table) (sockfd : Int) : Int × Table :=
  match index sockfd with
  | none => (-1, sockets)
  | some idx => (0, Function.update sockets idx { sockets idx with state := .closed })

/-- C `send`: the length is converted to the `int` parameter of the system call. -/
def send (sockets : Table) (s : IpcState) (currentTask sockfd : Int) (buf : Mem) (len : Nat) :
    Int × IpcState :=
  match index sockfd with
  | none => (-1, s)
  | some idx =>
    if (sockets idx).state ≠ .connected then (-1, s)
    else syscallSendMsg s currentTask netServerPid (some buf) (toInt32 (len % 2 ^ 32))

/-- C `sendto`; the destination is not used. -/
def sendto (sockets : Table) (s : IpcState) (currentTask sockfd : Int) (buf : Mem) (len : Nat) :
    Int × IpcState :=
  match index sockfd with
  | none => (-1, s)
  | some idx =>
    if (sockets idx).type ≠ sockDgram then (-1, s)
    else syscallSendMsg s currentTask netServerPid (some buf) (toInt32 (len % 2 ^ 32))

/-- C `recv`: the length is converted to the `int` parameter of the system call. -/
def recv (sockets : Table) (s : IpcState) (currentTask sockfd : Int) (buf : Mem) (len : Nat) :
    Reception :=
  match index sockfd with
  | none => ⟨-1, some buf, s⟩
  | some idx =>
    if (sockets idx).state ≠ .connected then ⟨-1, some buf, s⟩
    else syscallRecvMsg s currentTask netServerPid (some buf) (toInt32 (len % 2 ^ 32))

/-- C `recvfrom`; the address of the sender is not filled in. -/
def recvfrom (sockets : Table) (s : IpcState) (currentTask sockfd : Int) (buf : Mem) (len : Nat) :
    Reception :=
  match index sockfd with
  | none => ⟨-1, some buf, s⟩
  | some idx =>
    if (sockets idx).type ≠ sockDgram then ⟨-1, some buf, s⟩
    else syscallRecvMsg s currentTask netServerPid (some buf) (toInt32 (len % 2 ^ 32))

/-! ## Reachable tables -/

/-- A call and its arguments. -/
inductive SocketOp where
  | socket (domain type protocol : Int)
  | bind (sockfd : Int) (addr : SockaddrIn)
  | listen (sockfd backlog : Int)
  | accept (sockfd : Int)
  | connect (sockfd : Int) (addr : SockaddrIn)
  | closeUserSocket (sockfd : Int)

/-- The return value of a call and the table afterwards. -/
def call (sockets : Table) : SocketOp → Int × Table
  | .socket domain type protocol => socket sockets domain type protocol
  | .bind sockfd addr => bind sockets sockfd addr
  | .listen sockfd backlog => listen sockets sockfd backlog
  | .accept sockfd => accept sockets sockfd
  | .connect sockfd addr => connect sockets sockfd addr
  | .closeUserSocket sockfd => closeUserSocket sockets sockfd

/-- The table with the descriptors that were returned and not yet closed. -/
structure SocketHistory where
  sockets : Table
  opened : List Int

namespace SocketHistory

/-- The descriptor that a call of `socket` or `accept` returns, if it succeeds. -/
def returned (h : SocketHistory) : SocketOp → Option Int
  | .socket domain type protocol =>
    let fd := (LibNet.socket h.sockets domain type protocol).1
    if 0 ≤ fd then some fd else none
  | .accept sockfd =>
    let fd := (LibNet.accept h.sockets sockfd).1
    if 0 ≤ fd then some fd else none
  | _ => none

def step (h : SocketHistory) (op : SocketOp) : Option SocketHistory :=
  some {
    sockets := (call h.sockets op).2
    opened :=
      match op with
      | .closeUserSocket sockfd => h.opened.filter (· ≠ sockfd)
      | _ => (h.returned op).toList ++ h.opened }

/-- No call was made yet. -/
def start : SocketHistory := ⟨bootTable, []⟩

/-- The run of a list of calls. -/
abbrev run (ops : List SocketOp) : Option SocketHistory := Run.run step start ops

/-- The descriptor that the call returns, if any, is none of the open ones. -/
def Fresh (h : SocketHistory) (op : SocketOp) : Prop := ∀ fd ∈ h.returned op, fd ∉ h.opened

/-- A valid call of `socket` is made while no descriptor is open. -/
def Alone (h : SocketHistory) : SocketOp → Prop
  | .socket domain type _ =>
    domain = afInet → type = sockStream ∨ type = sockDgram → h.opened = []
  | _ => True

/-- All slots are closed, and no descriptor but the first one is open. -/
structure AllClosed (h : SocketHistory) : Prop where
  closed : ∀ i, (h.sockets i).state = .closed
  first : ∀ fd ∈ h.opened, fd = 1

end SocketHistory

section Closed

variable {sockets : Table} (h : ∀ i, (sockets i).state = .closed)
include h

/-- With all slots closed a valid call gets the first slot, which stays closed. -/
lemma socket_closed (domain type protocol : Int) :
    socket sockets domain type protocol =
      if domain = afInet ∧ (type = sockStream ∨ type = sockDgram) then
        (1, Function.update sockets 0 ⟨type, .closed, 0, 0, 0, 0⟩)
      else (-1, sockets) := by
  have hfind : (List.range maxSockets).find? (fun i => (sockets i).state = .closed) = some 0 := by
    have hall : (fun i => decide ((sockets i).state = .closed)) = fun _ => true := by
      funext i
      rw [h i]
      rfl
    rw [hall]
    rfl
  unfold socket
  by_cases hd : domain = afInet
  · rw [if_neg (not_not_intro hd)]
    by_cases ht : type = sockStream ∨ type = sockDgram
    · rw [if_neg (by tauto), if_pos ⟨hd, ht⟩]
      simp only [hfind]
      rfl
    · rw [if_pos (by tauto), if_neg fun hr => ht hr.2]
  · rw [if_pos hd, if_neg fun hr => hd hr.1]

lemma created_closed (domain type protocol : Int) (i : Nat) :
    ((socket sockets domain type protocol).2 i).state = .closed := by
  rw [socket_closed h]
  split
  · rcases eq_or_ne i 0 with rfl | hne
    · simp
    · simpa [hne] using h i
  · exact h i

lemma bind_closed (sockfd : Int) (addr : SockaddrIn) : bind sockets sockfd addr = (-1, sockets) := by
  unfold bind
  cases index sockfd with
  | none => rfl
  | some idx => exact if_pos (h idx)

lemma connect_closed (sockfd : Int) (addr : SockaddrIn) :
    connect sockets sockfd addr = (-1, sockets) := by
  unfold connect
  cases index sockfd with
  | none => rfl
  | some idx => exact if_pos (h idx)

lemma listen_closed (sockfd backlog : Int) : listen sockets sockfd backlog = (-1, sockets) := by
  unfold listen
  cases index sockfd with
  | none => rfl
  | some idx =>
    apply if_pos
    rw [h idx]
    exact .inl nofun

lemma accept_closed (sockfd : Int) : accept sockets sockfd = (-1, sockets) := by
  unfold accept
  cases index sockfd with
  | none => rfl
  | some idx =>
    apply if_pos
    rw [h idx]
    nofun

/-- No call takes a slot out of the closed state. -/
lemma call_closed (op : SocketOp) (i : Nat) : ((call sockets op).2 i).state = .closed := by
  cases op with
  | socket domain type protocol => exact created_closed h domain type protocol i
  | bind sockfd addr =>
    rw [call, bind_closed h]
    exact h i
  | listen sockfd backlog =>
    rw [call, listen_closed h]
    exact h i
  | accept sockfd =>
    rw [call, accept_closed h]
    exact h i
  | connect sockfd addr =>
    rw [call, connect_closed h]
    exact h i
  | closeUserSocket sockfd =>
    rw [call, closeUserSocket]
    cases index sockfd with
    | none => exact h i
    | some idx =>
      rcases eq_or_ne i idx with rfl | hne
      · simp
      · simpa [hne] using h i

end Closed

namespace SocketHistory

/-- With all slots closed, `socket` is the only call that returns a descriptor, and the descriptor
is 1. -/
lemma AllClosed.returned_eq {h : SocketHistory} (hc : h.AllClosed) (op : SocketOp) :
    h.returned op =
      match op with
      | .socket domain type _ =>
        if domain = afInet ∧ (type = sockStream ∨ type = sockDgram) then some 1 else none
      | _ => none := by
  cases op with
  | socket domain type protocol =>
    simp only [returned, socket_closed hc.closed]
    split <;> rfl
  | accept sockfd =>
    simp only [returned, accept_closed hc.closed]
    rfl
  | bind | listen | connect | closeUserSocket => rfl

lemma step_closed (h : SocketHistory) (op : SocketOp) (hc : h.AllClosed) :
    ∃ h', step h op = some h' ∧ h'.AllClosed := by
  refine ⟨_, rfl, call_closed hc.closed op, fun fd hfd => ?_⟩
  have hret := hc.returned_eq op
  cases op with
  | closeUserSocket sockfd => exact hc.first fd (List.mem_of_mem_filter hfd)
  | socket domain type protocol =>
    simp only [hret] at hfd
    split at hfd
    · rcases List.mem_cons.mp hfd with rfl | hold
      · rfl
      · exact hc.first fd hold
    · exact hc.first fd hfd
  | bind | listen | accept | connect =>
    simp only [hret] at hfd
    exact hc.first fd hfd

lemma start_closed : start.AllClosed := ⟨fun _ => rfl, nofun⟩

/-- With all slots closed a returned descriptor is fresh exactly if no other one is open. -/
lemma AllClosed.fresh_iff {h : SocketHistory} (hc : h.AllClosed) (op : SocketOp) :
    h.Fresh op ↔ h.Alone op := by
  have hret := hc.returned_eq op
  unfold Fresh
  cases op with
  | socket domain type protocol =>
    rw [hret]
    unfold Alone
    by_cases hvalid : domain = afInet ∧ (type = sockStream ∨ type = sockDgram)
    · simp only [if_pos hvalid]
      constructor
      · intro hfresh _ _
        refine List.eq_nil_iff_forall_not_mem.mpr fun fd hfd => ?_
        obtain rfl := hc.first fd hfd
        exact hfresh 1 rfl hfd
      · intro halone fd _
        rw [halone hvalid.1 hvalid.2]
        exact List.not_mem_nil
    · simp only [if_neg hvalid]
      exact iff_of_true nofun fun hd ht => absurd ⟨hd, ht⟩ hvalid
  | bind | listen | accept | connect | closeUserSocket =>
    rw [hret]
    exact iff_of_true nofun trivial

/-- Whatever is called, no slot is ever in use. -/
lemma run_closed {ops : List SocketOp} {h : SocketHistory} (hrun : run ops = some h) : h.AllClosed :=
  Run.inv_of_run step_closed hrun start_closed

end SocketHistory

/-- In every sequence of calls, all descriptors that `socket` and `accept` return are different from
the open ones exactly if `socket` is called only while no descriptor is open. -/
theorem descriptors_exclusive (ops : List SocketOp) :
    Run.Admissible SocketHistory.step SocketHistory.Fresh .start ops ↔
      Run.Admissible SocketHistory.step SocketHistory.Alone .start ops :=
  Run.Admissible.congr_of_inv SocketHistory.start_closed
    (fun h op hc _ => SocketHistory.step_closed h op hc) fun _ op hc => hc.fresh_iff op

/-- Two sockets are created one after the other. -/
theorem descriptors_exclusive_fails :
    ∃ h, SocketHistory.run [.socket afInet sockStream 0, .socket afInet sockStream 0] = some h ∧
      h.opened = [1, 1] ∧ ¬Run.Admissible SocketHistory.step SocketHistory.Fresh .start
        [.socket afInet sockStream 0, .socket afInet sockStream 0] := by
  refine ⟨_, rfl, by decide +kernel, ?_⟩
  rintro ⟨_, hfresh, _⟩
  exact hfresh 1 (by decide +kernel) (by decide +kernel)

/-! ## The life of a stream -/

/-- A new socket can be bound and listen, and gives a connected socket with its address. -/
def ListenPath (sockets : Table) (addr : SockaddrIn) (backlog : Int) : Prop :=
  let created := socket sockets afInet sockStream 0
  let s := created.1
  let bound := bind created.2 s addr
  let listening := listen bound.2 s backlog
  let accepted := accept listening.2 s
  bound.1 = 0 ∧ listening.1 = 0 ∧ 0 ≤ accepted.1 ∧ accepted.1 ≠ s ∧
    ∃ i j, index s = some i ∧ index accepted.1 = some j ∧
      (accepted.2 j).state = .connected ∧ (accepted.2 j).localPort = addr.sinPort ∧
      (accepted.2 j).localAddr = addr.sinAddr ∧ (accepted.2 i).state = .listening

/-- A new socket can be connected, and then used to send. -/
def ConnectPath (sockets : Table) (addr : SockaddrIn) : Prop :=
  let created := socket sockets afInet sockStream 0
  let connected := connect created.2 created.1 addr
  connected.1 = 0 ∧ ∃ i, index created.1 = some i ∧ (connected.2 i).state = .connected

section Paths

variable {sockets : Table} (h : ∀ i, (sockets i).state = .closed) (addr : SockaddrIn)
include h

lemma not_listenPath (backlog : Int) : ¬ListenPath sockets addr backlog := by
  rintro ⟨hbound, _⟩
  rw [bind_closed (created_closed h afInet sockStream 0)] at hbound
  cases hbound

lemma not_connectPath : ¬ConnectPath sockets addr := by
  rintro ⟨hconnected, _⟩
  rw [connect_closed (created_closed h afInet sockStream 0)] at hconnected
  cases hconnected

end Paths

/-- In every reachable table a new stream socket can neither be bound nor connected. -/
theorem stream_lifecycle (ops : List SocketOp) :
    ∃ h, SocketHistory.run ops = some h ∧ (socket h.sockets afInet sockStream 0).1 = 1 ∧
      ∀ addr backlog, ¬ListenPath h.sockets addr backlog ∧ ¬ConnectPath h.sockets addr := by
  obtain ⟨h, hrun, hc⟩ := Run.inv SocketHistory.step_closed ops SocketHistory.start_closed
  refine ⟨h, hrun, ?_, fun addr backlog => ?_⟩
  · rw [socket_closed hc.closed]
    rfl
  · exact ⟨not_listenPath hc.closed addr backlog, not_connectPath hc.closed addr⟩

/-- The library's own test: a socket is created and bound to 127.0.0.1:8080. -/
theorem stream_lifecycle_fails :
    (socket bootTable afInet sockStream 0).1 = 1 ∧
      (bind (socket bootTable afInet sockStream 0).2 1 ⟨2, 0x901f, 0x7f000001⟩).1 = -1 ∧
      ¬ListenPath bootTable ⟨2, 0x901f, 0x7f000001⟩ 5 :=
  ⟨by decide +kernel, by decide +kernel, not_listenPath (fun _ => rfl) _ _⟩

end Hydra.LibNet
