import Hydra.Lib.ByteMem
import Hydra.Lib.Ring

/-!
# Console input

The receive side of `kernal/uart.c`: a ring buffer that the interrupt handler fills and `uart_getc`
empties. The ring stands for the queue of the bytes that wait in it (`waiting`); a byte that comes
while the ring is full is dropped.
-/

namespace Hydra.Kernel
open ByteMem

/-- `UART_BUFFER_SIZE` -/
def uartBufferSize : Nat := 256

/-- The variables of the circular buffer. -/
structure Uart where
  inputBuffer : Mem
  bufferHead : Int
  bufferTail : Int
  bufferCount : Int

namespace Uart

/-- C `uart_init`. -/
def init (u : Uart) : Uart := { u with bufferHead := 0, bufferTail := 0, bufferCount := 0 }

/-- C `uart_getc`; 0 if no data is available. -/
def getc (u : Uart) : UInt8 × Uart :=
  if u.bufferCount = 0 then (0, u)
  else
    (u.inputBuffer u.bufferTail.toNat,
      { u with
        bufferTail := (u.bufferTail + 1) % uartBufferSize
        bufferCount := u.bufferCount - 1 })

/-- One round of `uart_interrupt_handler`: the byte is added if the buffer is not full. -/
def receive (u : Uart) (c : UInt8) : Uart :=
  if u.bufferCount < uartBufferSize then
    { u with
      inputBuffer := Function.update u.inputBuffer u.bufferHead.toNat c
      bufferHead := (u.bufferHead + 1) % uartBufferSize
      bufferCount := u.bufferCount + 1 }
  else u

/-- C `uart_interrupt_handler`, for the bytes that the receive register has for it. -/
def interruptHandler (u : Uart) (received : List UInt8) : Uart := received.foldl receive u

/-- The bytes that a run of the handler accepts: those that find room in the ring. -/
def accepted (u : Uart) : List UInt8 → List UInt8
  | [] => []
  | c :: received =>
    if u.bufferCount < uartBufferSize then c :: accepted (u.receive c) received
    else accepted (u.receive c) received

/-- The bytes that wait in the ring, oldest first. -/
def waiting (u : Uart) : List UInt8 :=
  Ring.contents u.inputBuffer uartBufferSize u.bufferTail.toNat u.bufferCount.toNat

/-- The indices and the count fit together. -/
def Ok (u : Uart) : Prop := Ring.Indices uartBufferSize u.bufferHead u.bufferTail u.bufferCount

lemma init_ok (u : Uart) : u.init.Ok := Ring.Indices.empty (by decide)

variable {u : Uart}

lemma length_waiting (u : Uart) : u.waiting.length = u.bufferCount.toNat :=
  Ring.length_contents _ _ _ _

lemma Ok.waiting_eq_nil (h : u.Ok) : u.waiting = [] ↔ u.bufferCount = 0 := by
  have hc := h.count_nonneg
  rw [← List.length_eq_zero_iff, length_waiting]
  omega

/-- Without data `uart_getc` returns 0 and does nothing. -/
lemma Ok.getc_nil (h : u.Ok) (hnil : u.waiting = []) : u.getc = (0, u) :=
  if_pos (h.waiting_eq_nil.mp hnil)

/-- `uart_getc` takes the oldest byte. -/
lemma Ok.getc_cons (h : u.Ok) {c : UInt8} {cs : List UInt8} (hcons : u.waiting = c :: cs) :
    ∃ u', u.getc = (c, u') ∧ u'.Ok ∧ u'.waiting = cs := by
  have hne : u.bufferCount ≠ 0 := by
    rw [Ne, ← h.waiting_eq_nil, hcons]
    exact List.cons_ne_nil c cs
  have hpos : 0 < u.bufferCount := h.count_nonneg.lt_of_ne' hne
  unfold waiting at hcons
  rw [Ring.Indices.contents_pop h hpos, List.cons.injEq] at hcons
  obtain ⟨rfl, rfl⟩ := hcons
  exact ⟨_, if_neg hne, Ring.Indices.pop h hpos, rfl⟩

/-- A byte goes behind the others, if the ring is not full. -/
lemma Ok.receive (h : u.Ok) (c : UInt8) : (u.receive c).Ok ∧
    (u.receive c).waiting = if u.bufferCount < uartBufferSize then u.waiting ++ [c] else u.waiting := by
  unfold Uart.receive
  split
  · next hroom => exact ⟨Ring.Indices.push h hroom, Ring.Indices.contents_push h hroom _ c⟩
  · exact ⟨h, rfl⟩

/-- The handler puts the bytes it accepts behind the others. -/
lemma Ok.interruptHandler (h : u.Ok) (received : List UInt8) : (u.interruptHandler received).Ok ∧
    (u.interruptHandler received).waiting = u.waiting ++ u.accepted received := by
  induction received generalizing u with
  | nil => exact ⟨h, (List.append_nil _).symm⟩
  | cons c received ih =>
    obtain ⟨hok, hwaiting⟩ := h.receive c
    obtain ⟨hok', hwaiting'⟩ := ih hok
    refine ⟨hok', hwaiting'.trans ?_⟩
    rw [hwaiting, accepted]
    split
    · rw [List.append_assoc, List.singleton_append]
    · rfl

end Uart

end Hydra.Kernel
