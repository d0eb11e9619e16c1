import Hydra.Lib.ByteMem
import Hydra.Mm.Alloc

/-!
# Message passing

The messages of `kernal/ipc.c`: a pool of message slots obtained from the kernel heap, kept on a
free list, and one queue of slots for each task. The slots are C structs reached through pointers,
so the state has the contents of the slot at every pointer (`msgs`); pointers are addresses and the
null pointer is 0. The array `message_queues` is a function of the index.

A C buffer passed by pointer is its bytes, or `none` for the null pointer. The counts of free
messages are only printed and are left out, as is all other console output.
-/

namespace Hydra.Ipc
open ByteMem Hydra.Mm

/-- `MAX_MESSAGE_SIZE`. -/
def maxMessageSize : Int := 256

/-- `MAX_MESSAGES`. -/
def maxMessages : Nat := 64

/-- `MAX_TASKS` of `sched.h`. -/
def maxTasks : Int := 8

/-- `struct message`. -/
structure Message where
  senderPid : Int
  receiverPid : Int
  size : Int
  data : Mem
  next : Nat

/-- `struct msg_queue`. -/
structure MsgQueue where
  head : Nat
  tail : Nat
  count : Int

/-- The static variables of `ipc.c`, and the slots that pointers lead to. -/
structure IpcState where
  msgs : Nat → Message
  freeMessages : Nat
  messageQueues : Int → MsgQueue

namespace IpcState

/-- The link of the slot at a pointer. -/
def next (s : IpcState) (p : Nat) : Nat := (s.msgs p).next

def setMsg (s : IpcState) (p : Nat) (msg : Message) : IpcState :=
  { s with msgs := Function.update s.msgs p msg }

def setQueue (s : IpcState) (i : Int) (queue : MsgQueue) : IpcState :=
  { s with messageQueues := Function.update s.messageQueues i queue }

end IpcState

/-! ## The pool -/

/-- `sizeof(struct message)`: three 32-bit fields, 256 bytes of data and an aligned pointer. -/
def sizeofMessage : UInt32 := 280

/-- The struct that the bytes of the heap at `p` happen to spell. -/
def readMessage (m : Mem) (p : Nat) : Message where
  senderPid := toInt32 (load m p 4)
  receiverPid := toInt32 (load m (p + 4) 4)
  size := toInt32 (load m (p + 8) 4)
  data := shift m (p + 12)
  next := load m (p + 272) 8

/-- The static variables at boot (the `.bss` section is cleared). -/
def bootIpc (m : Mem) : IpcState := ⟨readMessage m, 0, fun _ => ⟨0, 0, 0⟩⟩

/-- The loop of `ipc_init`: `n` more attempts to get a slot; `allocated` counts the successes. -/
def preallocate : Nat → Nat → Heap → IpcState → Option (Nat × Heap × IpcState)
  | 0, allocated, h, s => some (allocated, h, s)
  | n + 1, allocated, h, s =>
    match kmalloc h sizeofMessage with
    | none => none
    | some (msg, h) =>
      if msg = 0 then preallocate n allocated h s
      else
        let s := s.setMsg msg { readMessage h.mem msg with next := s.freeMessages }
        preallocate n (allocated + 1) h { s with freeMessages := msg }

/-- C `ipc_init`: the number of slots that were obtained, the heap and the message system. -/
def ipcInit (h : Heap) (s : IpcState) : Option (Nat × Heap × IpcState) :=
  let s := { s with messageQueues := fun i =>
    if 0 ≤ i ∧ i < maxTasks then ⟨0, 0, 0⟩ else s.messageQueues i }
  preallocate maxMessages 0 h s

/-- C `alloc_message`: the slot, or null when the pool is exhausted. -/
def allocMessage (s : IpcState) : Nat × IpcState :=
  if s.freeMessages = 0 then (0, s)
  else
    let msg := s.freeMessages
    let s := { s with freeMessages := s.next msg }
    (msg, s.setMsg msg { s.msgs msg with next := 0 })

/-- C `free_message`. -/
def freeMessage (s : IpcState) (msg : Nat) : IpcState :=
  if msg = 0 then s
  else
    let cleared := { s.msgs msg with senderPid := -1, receiverPid := -1, size := 0 }
    { s.setMsg msg { cleared with next := s.freeMessages } with freeMessages := msg }

/-! ## Sending -/

/-- Fill in a message. -/
def fill (s : IpcState) (msg : Nat) (sender receiver : Int) (src : Mem) (size : Int) : IpcState :=
  s.setMsg msg { s.msgs msg with
    senderPid := sender
    receiverPid := receiver
    size := size
    data := copy src size.toNat (s.msgs msg).data }

/-- Add a message to the receiver's queue. -/
def enqueue (s : IpcState) (receiver : Int) (msg : Nat) : IpcState :=
  let queue := s.messageQueues receiver
  if queue.head = 0 then
    s.setQueue receiver { head := msg, tail := msg, count := queue.count + 1 }
  else
    let s := s.setMsg queue.tail { s.msgs queue.tail with next := msg }
    s.setQueue receiver { queue with tail := msg, count := queue.count + 1 }

/-- C `send_message`, executed by the task `currentTask`. -/
def sendMessage (s : IpcState) (currentTask receiverPid : Int) (data : Option Mem) (size : Int) :
    Int × IpcState :=
  if receiverPid < 0 ∨ maxTasks ≤ receiverPid then (-1, s)
  else if size ≤ 0 then (-1, s)
  else if maxMessageSize < size then (-1, s)
  else
    match data with
    | none => (-1, s)
    | some src =>
      let (msg, s) := allocMessage s
      if msg = 0 then (-1, s)
      else
        let s := fill s msg currentTask receiverPid src size
        (0, enqueue s receiverPid msg)

/-! ## Receiving -/

/-- Take the head off a queue. -/
def dequeue (s : IpcState) (pid : Int) : IpcState :=
  let queue := s.messageQueues pid
  let head := s.next queue.head
  s.setQueue pid { head := head, tail := if head = 0 then 0 else queue.tail, count := queue.count - 1 }

/-- What a receive gives: the return value, the buffer and the state afterwards. -/
structure Reception where
  ret : Int
  buffer : Option Mem
  state : IpcState

/-- C `recv_message`, executed by the task `currentTask`. The parameter `sender_pid` is only
printed. -/
def recvMessage (s : IpcState) (currentTask _senderPid : Int) (buffer : Option Mem) (maxSize : Int) :
    Reception :=
  match buffer with
  | none => ⟨-1, none, s⟩
  | some dst =>
    if maxSize ≤ 0 then ⟨-1, some dst, s⟩
    else if currentTask < 0 ∨ maxTasks ≤ currentTask then ⟨-1, some dst, s⟩
    else
      let msg := (s.messageQueues currentTask).head
      -- a real system would block here
      if msg = 0 then ⟨-1, some dst, s⟩
      else
        let s := dequeue s currentTask
        let size := (s.msgs msg).size
        if size ≤ 0 ∨ maxMessageSize < size then ⟨-1, some dst, freeMessage s msg⟩
        else
          let copySize := if size < maxSize then size else maxSize
          ⟨size, some (copy (s.msgs msg).data copySize.toNat dst), freeMessage s msg⟩

/-- C `try_recv_message`. -/
def tryRecvMessage (s : IpcState) (currentTask senderPid : Int) (buffer : Option Mem) (maxSize : Int) :
    Reception :=
  recvMessage s currentTask senderPid buffer maxSize

end Hydra.Ipc
