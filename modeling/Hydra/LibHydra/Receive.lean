import Hydra.LibHydra.Ipc

/-!
# Receiving what is no frame

Any task can send any bytes, and `ipc_receive_message` takes all of them for a `struct ipc_message`.
It does not compare the size of the message with the fields it reads: a message shorter than the
header leaves the type and the size as the stack had them, and the size says how many bytes are
copied, whether they were received or not. It is an `int`, compared with a `size_t`, so a negative
one stands for more than any buffer holds.
-/

namespace Hydra.LibHydra
open ByteMem Mailbox Hydra.Ipc

/-- Whatever the stack held, the type is in the bytes received, and so is every byte that is copied,
which moreover is one of the 256 bytes of `msg.data`. -/
def StaysWithin (s : IpcState) (t sender : Int) (maxSize : Nat) (body : List UInt8) : Prop :=
  ∀ stack : Mem, ∃ n,
    (∀ buffer, let got := ipcReceiveMessage s t stack sender buffer maxSize
      got.msgType = some (toInt32 (load (paste body stack) 8 4)) ∧
        got.buffer = copy (shift (paste body stack) 16) n buffer) ∧
    8 + 4 ≤ body.length ∧ ∀ i < n, 16 + i < body.length ∧ i < 256

/-- The field `data_size` of a message that has it. -/
def dataSize (body : List UInt8) : Int := toInt32 (load (paste body fun _ => 0) 12 4)

/-- The message has a type; and nothing is to be copied into the buffer, or the message also has a
size, and the bytes of this size, or as many as the buffer can take. -/
def Covers (body : List UInt8) (maxSize : Nat) : Prop :=
  12 ≤ body.length ∧
    (maxSize = 0 ∨ 16 ≤ body.length ∧
      (0 ≤ dataSize body ∧ 16 + dataSize body ≤ body.length ∨ 16 + maxSize ≤ body.length))

instance (body : List UInt8) (maxSize : Nat) : Decidable (Covers body maxSize) :=
  inferInstanceAs (Decidable (_ ∧ _))

/-- The number of bytes that `ipc_receive_message` copies. -/
def copySize (msg : Mem) (maxSize : Nat) : Nat := min (toSize (toInt32 (load msg 12 4))) maxSize

lemma unframe_buffer (msg buffer : Mem) (maxSize : Nat) (state : IpcState) :
    (unframe msg buffer maxSize state).buffer = copy (shift msg 16) (copySize msg maxSize) buffer := by
  have hmin : (if toSize (toInt32 (load msg 12 4)) < maxSize then toSize (toInt32 (load msg 12 4))
      else maxSize) = copySize msg maxSize := by
    unfold copySize
    split <;> omega
  unfold unframe
  simp only [hmin]

/-- The size field is read as the message has it, if it has it. -/
lemma load_dataSize {body : List UInt8} (h : 16 ≤ body.length) (stack : Mem) :
    toInt32 (load (paste body stack) 12 4) = dataSize body := by
  unfold dataSize
  congr 1
  refine load_congr fun x _ hx => ?_
  have hlt : x < body.length := by omega
  unfold paste
  rw [List.getD_eq_getElem _ _ hlt, List.getD_eq_getElem _ _ hlt]

/-- If the last byte of the size field does not arrive, the stack can make it one that is not 0. -/
lemma copySize_pos {body : List UInt8} (h : body.length < 16) {maxSize : Nat} (hmax : maxSize ≠ 0) :
    0 < copySize (paste body fun _ => 1) maxSize := by
  have hbyte := byte_eq (paste body fun _ => 1) (a := 12) (n := 4) (i := 3) (by decide)
  have hlast : paste body (fun _ => 1) (12 + 3) = 1 := List.getD_eq_default _ _ (by omega)
  have hlt := load_lt (paste body fun _ => 1) 12 4
  rw [hlast] at hbyte
  have hword : 0 < load (paste body fun _ => 1) 12 4 := by
    by_contra h0
    rw [Nat.eq_zero_of_not_pos h0] at hbyte
    exact absurd hbyte (by decide)
  unfold copySize toSize toInt32
  split <;> omega

/-- All bytes that are copied were received, whatever the stack held, exactly if none is copied or
the message has a size field and the bytes that it asks for. -/
lemma copySize_within_iff {body : List UInt8} (hmax : body.length ≤ 256) (maxSize : Nat) :
    (∀ stack, ∀ i < copySize (paste body stack) maxSize, 16 + i < body.length) ↔
      maxSize = 0 ∨ 16 ≤ body.length ∧
        (0 ≤ dataSize body ∧ 16 + dataSize body ≤ body.length ∨ 16 + maxSize ≤ body.length) := by
  constructor
  · intro hcopied
    by_cases h0 : maxSize = 0
    · exact .inl h0
    · right
      have hheader : 16 ≤ body.length := by
        by_contra hshort
        have := hcopied (fun _ => 1) 0 (copySize_pos (by omega) h0)
        omega
      refine ⟨hheader, ?_⟩
      have hsize := load_dataSize hheader fun _ => 0
      have hlast := hcopied (fun _ => 0) (copySize (paste body fun _ => 0) maxSize - 1)
      unfold copySize toSize at hlast
      rw [hsize] at hlast
      have hrange : -2 ^ 31 ≤ dataSize body ∧ dataSize body < 2 ^ 31 := by
        have hlt := load_lt (paste body fun _ => 0) 12 4
        unfold dataSize toInt32
        split <;> omega
      omega
  · rintro (rfl | ⟨hheader, hcase⟩) stack i hi
    · exact absurd (hi.trans_le (min_le_right _ _)) (Nat.not_lt_zero i)
    · unfold copySize toSize at hi
      rw [load_dataSize hheader stack] at hi
      omega

section Receive

variable {S : Set Nat} {s : IpcState} {free : List Nat} {box : Int → List Letter}
  (h : Rep S s free box) {t : Int} {a : Letter} {l : List Letter} (hb : box t = a :: l)
include h hb

/-- A message fits into `msg.data`. -/
lemma length_le_data : a.body.length ≤ 256 := by
  have hle := (h.holds t a (by simp [hb])).le
  unfold maxMessageSize at hle
  omega

/-- The type and the bytes that `ipc_receive_message` gives for the next message. -/
lemma ipcReceiveMessage_gives (sender : Int) (maxSize : Nat) (stack buffer : Mem) :
    (ipcReceiveMessage s t stack sender buffer maxSize).msgType =
        some (toInt32 (load (paste a.body stack) 8 4)) ∧
      (ipcReceiveMessage s t stack sender buffer maxSize).buffer =
        copy (shift (paste a.body stack) 16) (copySize (paste a.body stack) maxSize) buffer := by
  have hwhole : a.body.take sizeofIpcMessage.toNat = a.body :=
    List.take_of_length_le ((length_le_data h hb).trans (by decide))
  obtain ⟨s', e⟩ := ipcReceiveMessage_take h hb stack sender buffer maxSize
  rw [hwhole] at e
  rw [e]
  exact ⟨rfl, unframe_buffer _ _ _ _⟩

lemma staysWithin_iff (sender : Int) (maxSize : Nat) :
    StaysWithin s t sender maxSize a.body ↔ Covers a.body maxSize := by
  have hmax := length_le_data h hb
  have hgives := ipcReceiveMessage_gives h hb sender maxSize
  unfold Covers
  rw [← copySize_within_iff hmax]
  constructor
  · intro hstays
    obtain ⟨_, _, htype, _⟩ := hstays fun _ => 0
    refine ⟨htype, fun stack i hi => ?_⟩
    -- the bytes copied are those the property is about
    obtain ⟨n, hn, _, hin⟩ := hstays stack
    have heq : n = copySize (paste a.body stack) maxSize :=
      Writes.unique ⟨_, fun buffer => (hn buffer).2⟩ ⟨_, fun buffer => (hgives stack buffer).2⟩
    exact (hin i (heq ▸ hi)).1
  · rintro ⟨htype, hcopied⟩ stack
    refine ⟨copySize (paste a.body stack) maxSize, hgives stack, htype, fun i hi => ?_⟩
    have hin := hcopied stack i hi
    exact ⟨hin, by omega⟩

end Receive

/-- In every reachable state, and whatever message is the next for the task, `ipc_receive_message`
stays within what was received exactly if the message covers what it makes the function read. -/
theorem receive_within (n : Nat) (s₀ : IpcState) (h₀ : Initial n s₀) (ops : List IpcOp) (s : History)
    (hrun : History.run s₀ ops = some s) (t : Int) (a : Letter) (l : List Letter)
    (hnext : s.ipc.pending t = a :: l) (sender : Int) (maxSize : Nat) :
    StaysWithin s.ipc t sender maxSize a.body ↔ Covers a.body maxSize := by
  obtain ⟨slots, free, box, hrep, _⟩ := History.inv_of_run h₀ hrun
  rw [hrep.pending_eq] at hnext
  exact staysWithin_iff hrep hnext sender maxSize

/-- The first 20 bytes of a frame of type 1 that says how long its data is. -/
def shortFrame (size : Nat) : Mem := frame (fun _ => 0) 1 0 1 (fun _ => 7) size

lemma shortFrame_sent (size : Nat) : ∃ s slot,
    History.run poolState [.sendMessage 1 0 (some (shortFrame size)) 20] = some s ∧
      s.ipc.pending 0 = [⟨slot, 1, bytes (shortFrame size) 20⟩] :=
  History.send_one 1 ⟨by decide, by decide, rfl⟩

/-- Four bytes of data are all there. -/
theorem receive_within_four :
    ∃ s a, History.run poolState [.sendMessage 1 0 (some (shortFrame 4)) 20] = some s ∧
      s.ipc.pending 0 = [a] ∧ StaysWithin s.ipc 0 1 256 a.body := by
  obtain ⟨s, slot, hrun, hb⟩ := shortFrame_sent 4
  refine ⟨s, _, hrun, hb, ?_⟩
  have hcovers : Covers (bytes (shortFrame 4) 20) 256 := by decide +kernel
  exact (receive_within 2 poolState poolState_initial _ s hrun 0 _ [] hb 1 256).mpr hcovers

/-- The frame says that it has 300 bytes of data: the function copies them all, of which 4 were
received, and the last 44 are not even in its struct. -/
theorem receive_within_fails :
    ∃ s a, Initial 2 poolState ∧
      History.run poolState [.sendMessage 1 0 (some (shortFrame 300)) 20] = some s ∧
      s.ipc.pending 0 = [a] ∧ ¬StaysWithin s.ipc 0 1 512 a.body := by
  obtain ⟨s, slot, hrun, hb⟩ := shortFrame_sent 300
  obtain ⟨slots, free, box, hrep, _⟩ := History.inv_of_run poolState_initial hrun
  have hcovers : ¬Covers (bytes (shortFrame 300) 20) 512 := by decide +kernel
  refine ⟨s, _, poolState_initial, hrun, hb, fun hstays => hcovers ?_⟩
  exact (staysWithin_iff hrep (hrep.pending_eq ▸ hb) 1 512).mp hstays

end Hydra.LibHydra
