import Hydra.Ipc.Delivery

/-!
# The message functions of libhydra

`lib/libhydra/ipc.c` frames a payload of up to 256 bytes in a `struct ipc_message` and sends the
whole struct, and takes the frame apart on the other side. The system calls of
`lib/libhydra/syscall_user.c` call the kernel functions directly.

The framing is sound: a frame that arrives whole is taken apart into what was framed
(`unframe_frame`). But the struct has 16 bytes of header in front of its 256 bytes of data, and the
kernel takes no message longer than 256 bytes, so no frame is ever sent, and no payload of any size
makes the round trip (`ipc_round_trip`).
-/

namespace Hydra.LibHydra
open ByteMem Mailbox Hydra.Ipc

/-! ## System calls -/

/-- C `syscall_get_pid`. -/
def syscallGetPid (currentTask : Int) : Int := currentTask

/-- C `syscall_send_msg`. -/
def syscallSendMsg (s : IpcState) (currentTask receiverPid : Int) (data : Option Mem) (size : Int) :
    Int × IpcState :=
  sendMessage s currentTask receiverPid data size

/-- C `syscall_recv_msg`. -/
def syscallRecvMsg (s : IpcState) (currentTask senderPid : Int) (buffer : Option Mem)
    (maxSize : Int) : Reception :=
  recvMessage s currentTask senderPid buffer maxSize

/-! ## Frames -/

/-- `sizeof(struct ipc_message)`: four 32-bit fields and 256 bytes of data. -/
def sizeofIpcMessage : Int := 272

/-- Fill in a `struct ipc_message` on the stack. -/
def frame (msg : Mem) (senderPid receiver msgType : Int) (data : Mem) (size : Nat) : Mem :=
  let msg := store msg 0 4 (ofInt32 senderPid)
  let msg := store msg 4 4 (ofInt32 receiver)
  let msg := store msg 8 4 (ofInt32 msgType)
  let msg := store msg 12 4 (ofInt32 size)
  copyAt data 16 size msg

/-- C `ipc_send_message`; `stack` is what the memory of its local struct holds before. -/
def ipcSendMessage (s : IpcState) (currentTask : Int) (stack : Mem) (receiver msgType : Int)
    (data : Mem) (size : Nat) : Int × IpcState :=
  if 256 < size then (-1, s)
  else
    let msg := frame stack (syscallGetPid currentTask) receiver msgType data size
    syscallSendMsg s currentTask receiver (some msg) sizeofIpcMessage

/-- What `ipc_receive_message` gives: the return value, the type it stored if any, the buffer and
the state afterwards. -/
structure IpcReception where
  ret : Int
  msgType : Option Int
  buffer : Mem
  state : IpcState

/-- The conversion of an `int` to `size_t`. -/
def toSize (i : Int) : Nat := (i % 2 ^ 64).toNat

/-- Take apart a received `struct ipc_message`. -/
def unframe (msg : Mem) (buffer : Mem) (maxSize : Nat) (state : IpcState) : IpcReception :=
  let dataSize := toSize (toInt32 (load msg 12 4))
  let copySize := if dataSize < maxSize then dataSize else maxSize
  { ret := toInt32 (copySize % 2 ^ 32)
    msgType := some (toInt32 (load msg 8 4))
    buffer := copy (shift msg 16) copySize buffer
    state := state }

/-- C `ipc_receive_message`. -/
def ipcReceiveMessage (s : IpcState) (currentTask : Int) (stack : Mem) (sender : Int)
    (buffer : Mem) (maxSize : Nat) : IpcReception :=
  let result := syscallRecvMsg s currentTask sender (some stack) sizeofIpcMessage
  if 0 < result.ret then unframe (result.buffer.getD stack) buffer maxSize result.state
  else ⟨result.ret, none, buffer, result.state⟩

/-- The words of the header. -/
lemma load_frame (stack : Mem) (senderPid receiver msgType : Int) (data : Mem) (size : Nat) :
    load (frame stack senderPid receiver msgType data size) 0 4 = ofInt32 senderPid ∧
      load (frame stack senderPid receiver msgType data size) 4 4 = ofInt32 receiver ∧
      load (frame stack senderPid receiver msgType data size) 8 4 = ofInt32 msgType ∧
      load (frame stack senderPid receiver msgType data size) 12 4 = ofInt32 size := by
  unfold frame
  refine ⟨?_, ?_, ?_, ?_⟩
  · rw [load_copyAt_of_le _ _ _ (by omega), load_store_disjoint _ _ (by omega),
      load_store_disjoint _ _ (by omega), load_store_disjoint _ _ (by omega), load_store_same]
    exact Nat.mod_eq_of_lt (ofInt32_lt senderPid)
  · rw [load_copyAt_of_le _ _ _ (by omega), load_store_disjoint _ _ (by omega),
      load_store_disjoint _ _ (by omega), load_store_same]
    exact Nat.mod_eq_of_lt (ofInt32_lt receiver)
  · rw [load_copyAt_of_le _ _ _ (by omega), load_store_disjoint _ _ (by omega), load_store_same]
    exact Nat.mod_eq_of_lt (ofInt32_lt msgType)
  · rw [load_copyAt_of_le _ _ _ (by omega), load_store_same]
    exact Nat.mod_eq_of_lt (ofInt32_lt size)

/-- A frame that arrives whole is taken apart into the type, the size and the bytes it was made
of. -/
theorem unframe_frame (stack : Mem) (senderPid receiver : Int) {msgType : Int} (data : Mem)
    {size maxSize : Nat} (hlo : -2 ^ 31 ≤ msgType) (hhi : msgType < 2 ^ 31) (hsize : size ≤ 256)
    (hmax : size ≤ maxSize) (buffer : Mem) (state : IpcState) :
    unframe (frame stack senderPid receiver msgType data size) buffer maxSize state =
      ⟨size, some msgType, copy data size buffer, state⟩ := by
  obtain ⟨_, _, htype, hlen⟩ := load_frame stack senderPid receiver msgType data size
  have hdataSize : toSize (toInt32 (ofInt32 size)) = size := by
    rw [toInt32_ofInt32 (by omega) (by omega)]
    unfold toSize
    omega
  have hcopySize : (if size < maxSize then size else maxSize) = size := by
    split <;> omega
  have hret : toInt32 (size % 2 ^ 32) = size := by
    unfold toInt32
    split <;> omega
  have hcopy : copy (shift (frame stack senderPid receiver msgType data size) 16) size buffer =
      copy data size buffer := by
    funext i
    rw [copy_apply, copy_apply]
    split
    · unfold shift frame
      rw [copyAt_apply, if_pos (by omega), Nat.add_sub_cancel_left]
    · rfl
  unfold unframe
  simp only [htype, hlen, toInt32_ofInt32 hlo hhi, hdataSize, hcopySize, hret, hcopy]

/-- A message in the queue of the task is taken apart as if it were a whole frame: what it does not
reach to is what the stack held. -/
lemma ipcReceiveMessage_take {S : Set Nat} {s : IpcState} {free : List Nat} {box : Int → List Letter}
    (h : Rep S s free box) {t : Int} {a : Letter} {l : List Letter} (hb : box t = a :: l)
    (stack : Mem) (sender : Int) (buffer : Mem) (maxSize : Nat) :
    ∃ s', ipcReceiveMessage s t stack sender buffer maxSize =
      unframe (paste (a.body.take sizeofIpcMessage.toNat) stack) buffer maxSize s' := by
  have hpos := (h.holds t a (by simp [hb])).pos
  have hok : Receivable t (some stack) sizeofIpcMessage := ⟨rfl, by decide, h.valid t (by simp [hb])⟩
  obtain ⟨s', e, _⟩ := recvMessage_take h hok hb sender
  have hret : (0 : Int) < a.body.length := by exact_mod_cast hpos
  refine ⟨s', ?_⟩
  unfold ipcReceiveMessage syscallRecvMsg
  simp only [e, if_pos hret]
  rfl

/-! ## The round trip -/

/-- A payload makes the round trip: the send succeeds, and when the receiver has taken the messages
that were queued before, its next receive with room for the payload gives the type, the size and
the bytes. -/
def RoundTrip (s : IpcState) (currentTask receiver : Int) (stack : Mem) (msgType : Int)
    (data : Mem) (size : Nat) : Prop :=
  let sent := ipcSendMessage s currentTask stack receiver msgType data size
  0 ≤ sent.1 ∧
    ∀ ops s', History.run sent.2 ops = some s' →
      (takenBy receiver s'.log).length = (s.pending receiver).length →
      ∀ stack' sender buffer maxSize, size ≤ maxSize →
        let got := ipcReceiveMessage s'.ipc receiver stack' sender buffer maxSize
        got.ret = size ∧ got.msgType = some msgType ∧ ∀ i < size, got.buffer i = data i

/-- The whole frame is longer than the kernel's limit. -/
lemma ipcSendMessage_fails (s : IpcState) (currentTask : Int) (stack : Mem) (receiver msgType : Int)
    (data : Mem) (size : Nat) :
    ipcSendMessage s currentTask stack receiver msgType data size = (-1, s) := by
  unfold ipcSendMessage syscallSendMsg
  split
  · rfl
  · refine sendMessage_rejected s fun hok => ?_
    have hle : sizeofIpcMessage ≤ maxMessageSize := hok.2.1.2
    exact absurd hle (by decide)

lemma not_roundTrip (s : IpcState) (currentTask receiver : Int) (stack : Mem) (msgType : Int)
    (data : Mem) (size : Nat) :
    ¬RoundTrip s currentTask receiver stack msgType data size := by
  rintro ⟨hsent, _⟩
  rw [ipcSendMessage_fails] at hsent
  simp at hsent

/-- In every state and between any tasks the send fails without effect, so no payload makes the
round trip. -/
theorem ipc_round_trip (s : IpcState) (currentTask receiver : Int) (stack : Mem) (msgType : Int)
    (data : Mem) (size : Nat) :
    (ipcSendMessage s currentTask stack receiver msgType data size = (-1, s)) ∧
      ¬RoundTrip s currentTask receiver stack msgType data size :=
  ⟨ipcSendMessage_fails s currentTask stack receiver msgType data size,
    not_roundTrip s currentTask receiver stack msgType data size⟩

/-- The library's own test: with the pool untouched, task 0 sends the ten bytes of a string to
itself. -/
theorem ipc_round_trip_fails :
    Initial 2 poolState ∧ poolState.freeMessages ≠ 0 ∧
      ¬RoundTrip poolState 0 0 (fun _ => 0) 1 (fun i => "Hello IPC".toUTF8.data.getD i 0) 10 :=
  ⟨poolState_initial, by decide +kernel, not_roundTrip _ _ _ _ _ _ _⟩

end Hydra.LibHydra
