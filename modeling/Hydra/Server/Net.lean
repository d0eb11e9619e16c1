import Hydra.Server.Loop
import Hydra.Net.Driver

/-!
# The network server

The socket table of `server/net_srv.c`, the commands of its clients and the body of its main loop.
`SOCK_...` states are an enumeration; the socket type is the `int` a client sent, cast to the enum.

The server hands data to the network driver with a pointer and a length; `handed` records these
calls.
-/

namespace Hydra.Server
open ByteMem Hydra.Ipc Hydra.LibHydra Hydra.Net

/-- `MAX_SOCKETS`. -/
def maxSockets : Nat := 32

/-- `sizeof(sock->rx_buffer)`. -/
def sizeofRxBuffer : Nat := 1024

/-- `SOCK_TCP`. -/
def sockTcp : Int := 1

/-- `socket_state_t`. -/
inductive SocketState where
  | closed
  | listening
  | connected
  | bound
  deriving DecidableEq, Repr

/-- `struct socket`. -/
structure Socket where
  sockId : Int
  ownerPid : Int
  type : Int
  state : SocketState
  localIp : UInt32
  localPort : UInt16
  remoteIp : UInt32
  remotePort : UInt16
  rxBuffer : Mem
  rxHead : Int
  rxTail : Int
  rxCount : Int
  inUse : Bool

/-- `struct net_server`. -/
structure NetServer where
  serverPid : Int
  sockets : Nat → Socket
  nextSocketId : Int
  active : Bool

/-- The server with the driver's counters and the data handed to the driver so far. -/
structure NetWorld where
  netserv : NetServer
  stats : NetStats
  handed : List (Mem × Int)

/-- Write a slot of the socket table. -/
def NetServer.setSocket (srv : NetServer) (i : Nat) (sock : Socket) : NetServer :=
  { srv with sockets := Function.update srv.sockets i sock }

/-- C `net_server_init`. -/
def netServerInit (srv : NetServer) (currentTask : Int) : NetServer where
  serverPid := syscallGetPid currentTask
  sockets := fun i =>
    if i < maxSockets then
      { srv.sockets i with
        inUse := false, state := .closed, rxHead := 0, rxTail := 0, rxCount := 0 }
    else srv.sockets i
  nextSocketId := 1
  active := true

/-- C `allocate_socket`: the new socket's id, or -1. -/
def allocateSocket (srv : NetServer) (clientPid type : Int) : Int × NetServer :=
  match (List.range maxSockets).find? fun i => !(srv.sockets i).inUse with
  | none => (-1, srv)
  | some i =>
    let sock := { srv.sockets i with
      sockId := srv.nextSocketId
      ownerPid := clientPid
      type := type
      state := .closed
      inUse := true
      rxHead := 0
      rxTail := 0
      rxCount := 0 }
    (srv.nextSocketId, { srv.setSocket i sock with nextSocketId := srv.nextSocketId + 1 })

/-- C `find_socket`: the slot of the socket. -/
def findSocket (srv : NetServer) (sockId : Int) : Option Nat :=
  (List.range maxSockets).find? fun i => (srv.sockets i).inUse ∧ (srv.sockets i).sockId = sockId

/-- C `close_socket`. -/
def closeSocket (srv : NetServer) (sockId : Int) : NetServer :=
  match findSocket srv sockId with
  | none => srv
  | some i => srv.setSocket i { srv.sockets i with inUse := false, state := .closed }

/-- C `bind_socket`. -/
def bindSocket (srv : NetServer) (sockId : Int) (ip : UInt32) (port : UInt16) : Int × NetServer :=
  match findSocket srv sockId with
  | none => (-1, srv)
  | some i =>
    (0, srv.setSocket i { srv.sockets i with localIp := ip, localPort := port, state := .bound })

/-- C `listen_socket`; the backlog is only printed. -/
def listenSocket (srv : NetServer) (sockId _backlog : Int) : Int × NetServer :=
  match findSocket srv sockId with
  | none => (-1, srv)
  | some i =>
    if (srv.sockets i).type ≠ sockTcp then (-1, srv)
    else (0, srv.setSocket i { srv.sockets i with state := .listening })

/-- C `connect_socket`. -/
def connectSocket (srv : NetServer) (sockId : Int) (remoteIp : UInt32) (remotePort : UInt16) :
    Int × NetServer :=
  match findSocket srv sockId with
  | none => (-1, srv)
  | some i =>
    if (srv.sockets i).type ≠ sockTcp then (-1, srv)
    else
      (0, srv.setSocket i { srv.sockets i with
        remoteIp := remoteIp, remotePort := remotePort, state := .connected })

/-- C `send_socket_data`. -/
def sendSocketData (w : NetWorld) (sockId : Int) (data : Mem) (len : Int) : Int × NetWorld :=
  match findSocket w.netserv sockId with
  | none => (-1, w)
  | some i =>
    if (w.netserv.sockets i).state ≠ .connected then (-1, w)
    else
      let (result, stats) := syscallNetSend w.stats len
      (result, { w with stats := stats, handed := w.handed ++ [(data, len)] })

/-- The copy loop of `recv_socket_data`: `n` bytes from the ring to the buffer, from index `i`
on. -/
def drain : Nat → Nat → Socket → Mem → Socket × Mem
  | 0, _, sock, buf => (sock, buf)
  | n + 1, i, sock, buf =>
    let buf := Function.update buf i (sock.rxBuffer sock.rxTail.toNat)
    let sock := { sock with
      rxTail := (sock.rxTail + 1) % sizeofRxBuffer
      rxCount := sock.rxCount - 1 }
    drain n (i + 1) sock buf

/-- C `recv_socket_data`: the number of bytes, the buffer and the server afterwards. -/
def recvSocketData (srv : NetServer) (sockId : Int) (buffer : Mem) (maxLen : Int) :
    Int × Mem × NetServer :=
  match findSocket srv sockId with
  | none => (-1, buffer, srv)
  | some i =>
    let sock := srv.sockets i
    if sock.rxCount = 0 then (0, buffer, srv)
    else
      let bytesToCopy := if sock.rxCount < maxLen then sock.rxCount else maxLen
      let (sock, buffer) := drain bytesToCopy.toNat 0 sock buffer
      (bytesToCopy, buffer, srv.setSocket i sock)

/-- The loop of `socket_add_rx_data`: `n` more bytes of the data, from index `i` on. -/
def addRxData (src : Mem) : Nat → Nat → Socket → Socket
  | 0, _, sock => sock
  | n + 1, i, sock =>
    if toSize sock.rxCount < sizeofRxBuffer then
      addRxData src n (i + 1) { sock with
        rxBuffer := Function.update sock.rxBuffer sock.rxHead.toNat (src i)
        rxHead := (sock.rxHead + 1) % sizeofRxBuffer
        rxCount := sock.rxCount + 1 }
    else sock

/-- C `socket_add_rx_data`. -/
def socketAddRxData (sock : Socket) (data : Mem) (len : Int) : Socket :=
  addRxData data len.toNat 0 sock

/-- C `process_network_packets`; `packetBuffer` is what the memory of its local buffer holds
before. -/
def processNetworkPackets (srv : NetServer) (packetBuffer : Mem) (pkt : Option Packet) :
    NetServer :=
  let (packetLen, packetBuffer) := syscallNetRecv pkt packetBuffer 1500
  if 0 < packetLen then
    match (List.range maxSockets).find? fun i =>
      (srv.sockets i).inUse ∧ (srv.sockets i).state = .connected with
    | none => srv
    | some i => srv.setSocket i (socketAddRxData (srv.sockets i) packetBuffer packetLen)
  else srv

/-! ## Commands -/

/-- The command `recv`: the received bytes, if any, else the return value. -/
def netRecvCommand (w : NetWorld) (msgData : Mem) : Option Reply × NetWorld :=
  let maxLen := arg msgData 2
  -- the comparison with `sizeof` is unsigned
  let limit : Int := if toSize maxLen < sizeofRxBuffer then maxLen else sizeofRxBuffer
  let (received, buffer, srv) := recvSocketData w.netserv (arg msgData 1) (fun _ => 0) limit
  let w := { w with netserv := srv }
  if 0 < received then (some (buffer, received), w) else (some (intReply received), w)

/-- C `net_handle_client_message`: the reply to the client, if any, and the server afterwards. -/
def netHandleClientMessage (w : NetWorld) (senderPid : Int) (msgData : Mem) (msgSize : Int) :
    Option Reply × NetWorld :=
  if msgSize < 4 then (none, w)
  else
    match arg msgData 0 with
    | 1 =>
      if 8 ≤ msgSize then
        let (response, srv) := allocateSocket w.netserv senderPid (arg msgData 1)
        (some (intReply response), { w with netserv := srv })
      else (some (intReply (-1)), w)
    | 2 =>
      if 16 ≤ msgSize then
        let (response, srv) := bindSocket w.netserv (arg msgData 1)
          (UInt32.ofNat (word msgData 2)) (UInt16.ofNat (word msgData 3))
        (some (intReply response), { w with netserv := srv })
      else (some (intReply (-1)), w)
    | 3 =>
      if 12 ≤ msgSize then
        let (response, srv) := listenSocket w.netserv (arg msgData 1) (arg msgData 2)
        (some (intReply response), { w with netserv := srv })
      else (some (intReply (-1)), w)
    | 4 =>
      if 16 ≤ msgSize then
        let (response, srv) := connectSocket w.netserv (arg msgData 1)
          (UInt32.ofNat (word msgData 2)) (UInt16.ofNat (word msgData 3))
        (some (intReply response), { w with netserv := srv })
      else (some (intReply (-1)), w)
    | 5 =>
      if 16 ≤ msgSize then
        let (response, w) := sendSocketData w (arg msgData 1) (shift msgData 12) (arg msgData 2)
        (some (intReply response), w)
      else (some (intReply (-1)), w)
    | 6 =>
      if 12 ≤ msgSize then netRecvCommand w msgData
      else (some (intReply (-1)), w)
    | 7 =>
      if 8 ≤ msgSize then
        (some (intReply 0), { w with netserv := closeSocket w.netserv (arg msgData 1) })
      else (some (intReply (-1)), w)
    | _ => (some (intReply (-1)), w)

/-- The body of the loop of `net_server_main`, executed by the task `currentTask`. -/
def netServerBody (w : NetWorld) (ipc : IpcState) (currentTask : Int) (msgBuffer packetBuffer : Mem)
    (pkt : Option Packet) : Served NetWorld :=
  let r := serve netHandleClientMessage w ipc currentTask msgBuffer
  let srv := processNetworkPackets r.world.netserv packetBuffer pkt
  { r with world := { r.world with netserv := srv } }

end Hydra.Server
