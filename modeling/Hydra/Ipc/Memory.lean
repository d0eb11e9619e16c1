import Hydra.Ipc.Delivery
import Hydra.Mm.Frame

/-!
# The messages in memory

The message slots are structs in blocks of the kernel heap. Here are the functions of `kernal/ipc.c`
once more, on the bytes: an assignment to a field is a store at the offset of the field, buffers are
addresses in the same memory, and so is the heap of `kmalloc` and `kfree`. The static variables of
the two files are in no memory that a caller can address.

Nothing of this shows as long as everybody keeps to what `kmalloc` has given him: the blocks, the
cells that the callers own and the messages of `Hydra.Ipc.Message` can be told apart, and every call
has the result that it has there (`Hydra.Ipc.memory_apart`).
-/

namespace Hydra.Ipc
open ByteMem Linked FirstFit Hydra.Mm

/-! ## The code -/

/-- The static variables of `mm.c` and `ipc.c`, and the memory. -/
structure Shared where
  heap : Heap
  freeMessages : Nat
  messageQueues : Int → MsgQueue

/-- `msg->sender_pid` -/
def setSenderPid (m : Mem) (msg : Nat) (v : Int) : Mem := store m msg 4 (ofInt32 v)

/-- `msg->receiver_pid` -/
def setReceiverPid (m : Mem) (msg : Nat) (v : Int) : Mem := store m (msg + 4) 4 (ofInt32 v)

/-- `msg->size` -/
def setMsgSize (m : Mem) (msg : Nat) (v : Int) : Mem := store m (msg + 8) 4 (ofInt32 v)

/-- `msg->next` -/
def setMsgNext (m : Mem) (msg v : Nat) : Mem := store m (msg + 272) 8 v

/-- `msg->data` -/
def msgData (msg : Nat) : Nat := msg + 12

def msgSize (m : Mem) (msg : Nat) : Int := toInt32 (load m (msg + 8) 4)

def msgNext (m : Mem) (msg : Nat) : Nat := load m (msg + 272) 8

namespace Shared

def setMem (k : Shared) (m : Mem) : Shared := { k with heap := { k.heap with mem := m } }

def setQueue (k : Shared) (i : Int) (queue : MsgQueue) : Shared :=
  { k with messageQueues := Function.update k.messageQueues i queue }

/-- The kernel before `ipc_init`. -/
def boot (h : Heap) : Shared := ⟨h, 0, fun _ => ⟨0, 0, 0⟩⟩

/-- The loop of `ipc_init`. -/
def preallocate : Nat → Nat → Shared → Option (Nat × Shared)
  | 0, allocated, k => some (allocated, k)
  | n + 1, allocated, k =>
    match kmalloc k.heap sizeofMessage with
    | none => none
    | some (msg, h) =>
      let k := { k with heap := h }
      if msg = 0 then preallocate n allocated k
      else
        let k := k.setMem (setMsgNext k.heap.mem msg k.freeMessages)
        preallocate n (allocated + 1) { k with freeMessages := msg }

/-- C `ipc_init`. -/
def ipcInit (k : Shared) : Option (Nat × Shared) :=
  preallocate maxMessages 0 { k with messageQueues := fun i =>
    if 0 ≤ i ∧ i < maxTasks then ⟨0, 0, 0⟩ else k.messageQueues i }

/-- C `alloc_message`. -/
def allocMessage (k : Shared) : Nat × Shared :=
  if k.freeMessages = 0 then (0, k)
  else
    let msg := k.freeMessages
    let k := { k with freeMessages := msgNext k.heap.mem msg }
    (msg, k.setMem (setMsgNext k.heap.mem msg 0))

/-- C `free_message`. -/
def freeMessage (k : Shared) (msg : Nat) : Shared :=
  if msg = 0 then k
  else
    let m := setSenderPid k.heap.mem msg (-1)
    let m := setReceiverPid m msg (-1)
    let m := setMsgSize m msg 0
    let m := setMsgNext m msg k.freeMessages
    { k.setMem m with freeMessages := msg }

/-- Fill in a message. -/
def fill (k : Shared) (msg : Nat) (sender receiver : Int) (data : Nat) (size : Int) : Shared :=
  let m := setSenderPid k.heap.mem msg sender
  let m := setReceiverPid m msg receiver
  let m := setMsgSize m msg size
  k.setMem (move data (msgData msg) size.toNat m)

/-- Add a message to the receiver's queue. -/
def enqueue (k : Shared) (receiver : Int) (msg : Nat) : Shared :=
  let queue := k.messageQueues receiver
  if queue.head = 0 then
    k.setQueue receiver { head := msg, tail := msg, count := queue.count + 1 }
  else
    let k := k.setMem (setMsgNext k.heap.mem queue.tail msg)
    k.setQueue receiver { queue with tail := msg, count := queue.count + 1 }

/-- C `send_message`, executed by the task `currentTask`. -/
def sendMessage (k : Shared) (currentTask receiverPid : Int) (data : Nat) (size : Int) :
    Int × Shared :=
  if receiverPid < 0 ∨ maxTasks ≤ receiverPid then (-1, k)
  else if size ≤ 0 then (-1, k)
  else if maxMessageSize < size then (-1, k)
  else if data = 0 then (-1, k)
  else
    let (msg, k) := allocMessage k
    if msg = 0 then (-1, k)
    else
      let k := fill k msg currentTask receiverPid data size
      (0, enqueue k receiverPid msg)

/-- Take the head off a queue. -/
def dequeue (k : Shared) (pid : Int) : Shared :=
  let queue := k.messageQueues pid
  let head := msgNext k.heap.mem queue.head
  let tail := if head = 0 then 0 else queue.tail
  k.setQueue pid { head := head, tail := tail, count := queue.count - 1 }

/-- C `recv_message`, executed by the task `currentTask`. -/
def recvMessage (k : Shared) (currentTask _senderPid : Int) (buffer : Nat) (maxSize : Int) :
    Int × Shared :=
  if buffer = 0 then (-1, k)
  else if maxSize ≤ 0 then (-1, k)
  else if currentTask < 0 ∨ maxTasks ≤ currentTask then (-1, k)
  else
    let msg := (k.messageQueues currentTask).head
    if msg = 0 then (-1, k)
    else
      let k := dequeue k currentTask
      let size := msgSize k.heap.mem msg
      if size ≤ 0 ∨ maxMessageSize < size then (-1, freeMessage k msg)
      else
        let copySize := if size < maxSize then size else maxSize
        let k := k.setMem (move (msgData msg) buffer copySize.toNat k.heap.mem)
        (size, freeMessage k msg)

end Shared

/-! ## A struct in memory -/

/-- The struct at `p` is `msg`. -/
structure MessageAt (m : Mem) (p : Nat) (msg : Message) : Prop where
  senderPid : toInt32 (load m p 4) = msg.senderPid
  receiverPid : toInt32 (load m (p + 4) 4) = msg.receiverPid
  size : msgSize m p = msg.size
  data : ∀ i < 256, m (msgData p + i) = msg.data i
  next : msgNext m p = msg.next

namespace MessageAt

variable {m m' : Mem} {p : Nat} {msg : Message}

lemma congr (h : MessageAt m p msg) (e : ∀ x, p ≤ x → x < p + 280 → m' x = m x) :
    MessageAt m' p msg := by
  have hload : ∀ a n, p ≤ a → a + n ≤ p + 280 → load m' a n = load m a n :=
    fun a n hlo hhi => load_congr fun x hx hx' => e x (by omega) (by omega)
  refine ⟨?_, ?_, ?_, fun i hi => ?_, ?_⟩
  · rw [hload p 4 le_rfl (by omega), h.senderPid]
  · rw [hload (p + 4) 4 (by omega) (by omega), h.receiverPid]
  · unfold msgSize
    rw [hload (p + 8) 4 (by omega) (by omega)]
    exact h.size
  · unfold msgData
    rw [e _ (by omega) (by omega)]
    exact h.data i hi
  · unfold msgNext
    rw [hload (p + 272) 8 (by omega) (by omega)]
    exact h.next

lemma setSenderPid (h : MessageAt m p msg) {v : Int} (hlo : -2 ^ 31 ≤ v) (hhi : v < 2 ^ 31) :
    MessageAt (setSenderPid m p v) p { msg with senderPid := v } := by
  have e := store_frame m p 4 (ofInt32 v)
  refine ⟨?_, ?_, ?_, fun i hi => ?_, ?_⟩
  · unfold Ipc.setSenderPid
    rw [load_store_same, Nat.mod_eq_of_lt (ofInt32_lt v), toInt32_ofInt32 hlo hhi]
  · exact (congrArg toInt32 (e.load (by omega))).trans h.receiverPid
  · exact (congrArg toInt32 (e.load (by omega))).trans h.size
  · exact (e _ (by unfold msgData; omega)).trans (h.data i hi)
  · exact (e.load (by omega)).trans h.next

lemma setReceiverPid (h : MessageAt m p msg) {v : Int} (hlo : -2 ^ 31 ≤ v) (hhi : v < 2 ^ 31) :
    MessageAt (setReceiverPid m p v) p { msg with receiverPid := v } := by
  have e := store_frame m (p + 4) 4 (ofInt32 v)
  refine ⟨?_, ?_, ?_, fun i hi => ?_, ?_⟩
  · exact (congrArg toInt32 (e.load (by omega))).trans h.senderPid
  · unfold Ipc.setReceiverPid
    rw [load_store_same, Nat.mod_eq_of_lt (ofInt32_lt v), toInt32_ofInt32 hlo hhi]
  · exact (congrArg toInt32 (e.load (by omega))).trans h.size
  · exact (e _ (by unfold msgData; omega)).trans (h.data i hi)
  · exact (e.load (by omega)).trans h.next

lemma setMsgSize (h : MessageAt m p msg) {v : Int} (hlo : -2 ^ 31 ≤ v) (hhi : v < 2 ^ 31) :
    MessageAt (setMsgSize m p v) p { msg with size := v } := by
  have e := store_frame m (p + 8) 4 (ofInt32 v)
  refine ⟨?_, ?_, ?_, fun i hi => ?_, ?_⟩
  · exact (congrArg toInt32 (e.load (by omega))).trans h.senderPid
  · exact (congrArg toInt32 (e.load (by omega))).trans h.receiverPid
  · unfold msgSize Ipc.setMsgSize
    rw [load_store_same, Nat.mod_eq_of_lt (ofInt32_lt v), toInt32_ofInt32 hlo hhi]
  · exact (e _ (by unfold msgData; omega)).trans (h.data i hi)
  · exact (e.load (by omega)).trans h.next

lemma setMsgNext (h : MessageAt m p msg) {v : Nat} (hv : v < 2 ^ 64) :
    MessageAt (setMsgNext m p v) p { msg with next := v } := by
  have e := store_frame m (p + 272) 8 v
  refine ⟨?_, ?_, ?_, fun i hi => ?_, ?_⟩
  · exact (congrArg toInt32 (e.load (by omega))).trans h.senderPid
  · exact (congrArg toInt32 (e.load (by omega))).trans h.receiverPid
  · exact (congrArg toInt32 (e.load (by omega))).trans h.size
  · exact (e _ (by unfold msgData; omega)).trans (h.data i hi)
  · unfold msgNext Ipc.setMsgNext
    rw [load_store_same]
    exact Nat.mod_eq_of_lt hv

/-- Bytes that come from elsewhere are copied into the data. -/
lemma fillData (h : MessageAt m p msg) {src : Mem} {data n : Nat} (hn : n ≤ 256)
    (hsrc : ∀ i < n, m (data + i) = src i) (hapart : data + n ≤ p ∨ p + 280 ≤ data) :
    MessageAt (move data (msgData p) n m) p { msg with data := copy src n msg.data } := by
  have e := move_frame data (msgData p) n m
  unfold msgData at *
  refine ⟨?_, ?_, ?_, fun i hi => ?_, ?_⟩
  · exact (congrArg toInt32 (e.load (by omega))).trans h.senderPid
  · exact (congrArg toInt32 (e.load (by omega))).trans h.receiverPid
  · exact (congrArg toInt32 (e.load (by omega))).trans h.size
  · unfold msgData
    rw [move_apply]
    simp only [copy_apply]
    by_cases hlt : i < n
    · rw [if_pos ⟨by omega, by omega⟩, if_pos hlt, Nat.add_sub_cancel_left,
        origin_of_apart (by omega), hsrc i hlt]
    · rw [if_neg (by omega), if_neg hlt]
      exact h.data i hi
  · exact (e.load (by omega)).trans h.next

end MessageAt

end Hydra.Ipc
