import Hydra.Kernel.Uart
import Hydra.Lib.Fifo

/-!
# The ring of the console as a queue

Any runs of `uart_interrupt_handler` and calls of `uart_getc`, one after the other. The ring refines
a bounded queue that drops what arrives while it is full (`step_refines`), so it is a queue itself
(`uart_ring_fifo`).
-/

namespace Hydra.Kernel
open Uart

/-- A run of the handler with the bytes that have been received, or a call of `uart_getc`. -/
inductive UartOp where
  | interrupt (received : List UInt8)
  | getc

/-- The ring with the bytes that it has accepted, the bytes that `uart_getc` has taken out, and for
each byte that was dropped the ring at its arrival. -/
structure UartLog where
  uart : Uart
  accepted : List UInt8
  dropped : List Uart
  taken : List UInt8

namespace UartLog

/-- The ring after `uart_init`. -/
def start (u : Uart) : UartLog := ⟨u.init, [], [], []⟩

/-- A byte arrives in a round of the handler. It is dropped if the count stays as it is. -/
def receive (h : UartLog) (c : UInt8) : UartLog :=
  let u := h.uart.receive c
  if u.bufferCount = h.uart.bufferCount then { h with uart := u, dropped := h.dropped ++ [h.uart] }
  else { h with uart := u, accepted := h.accepted ++ [c] }

/-- A call of `uart_getc` takes a byte out if there is one. -/
def getc (h : UartLog) : UartLog :=
  { h with
    uart := h.uart.getc.2
    taken := if h.uart.bufferCount = 0 then h.taken else h.taken ++ [h.uart.getc.1] }

/-- A run of the handler or a call. -/
def step (h : UartLog) : UartOp → UartLog
  | .interrupt received => received.foldl receive h
  | .getc => h.getc

/-- The run of a list of operations. -/
abbrev run (h : UartLog) (ops : List UartOp) : UartLog := ops.foldl step h

/-- The log records what the handler does. -/
lemma uart_interrupt (h : UartLog) (received : List UInt8) :
    (received.foldl receive h).uart = h.uart.interruptHandler received := by
  induction received generalizing h with
  | nil => rfl
  | cons c received ih =>
    have huart : (h.receive c).uart = h.uart.receive c := by
      unfold receive
      dsimp only
      split
      · rfl
      · rfl
    rw [List.foldl_cons, ih, huart]
    rfl

/-! ## The queue -/

/-- The history of the queue that the ring stands for. -/
def abstract (h : UartLog) : Fifo.History UInt8 :=
  ⟨h.uart.waiting, h.accepted, h.dropped.map waiting, h.taken⟩

/-- The events of an operation. -/
def events : UartOp → List (Fifo.Event UInt8)
  | .interrupt received => received.map .arrive
  | .getc => [.take]

/-- What arrives goes into the queue or is dropped. -/
lemma receive_refines {h : UartLog} (hok : h.uart.Ok) (c : UInt8) : (h.receive c).uart.Ok ∧
    (h.receive c).abstract = Fifo.step uartBufferSize h.abstract (.arrive c) := by
  have hlen : h.uart.waiting.length < uartBufferSize ↔ h.uart.bufferCount < uartBufferSize := by
    have hpos := hok.count_nonneg
    rw [length_waiting]
    omega
  obtain ⟨hok', hwaiting⟩ := hok.receive c
  unfold receive
  by_cases hroom : h.uart.bufferCount < uartBufferSize
  · have hcount : (h.uart.receive c).bufferCount ≠ h.uart.bufferCount := by
      unfold Uart.receive
      rw [if_pos hroom]
      dsimp only
      omega
    rw [Fifo.step_room (hlen.mpr hroom)]
    dsimp only
    rw [if_neg hcount]
    unfold abstract
    rw [hwaiting, if_pos hroom]
    exact ⟨hok', rfl⟩
  · have hsame : h.uart.receive c = h.uart := if_neg hroom
    rw [Fifo.step_full (hlen.not.mpr hroom), hsame]
    dsimp only
    rw [if_pos rfl]
    unfold abstract
    rw [List.map_append]
    exact ⟨hok, rfl⟩

lemma interrupt_refines {h : UartLog} (hok : h.uart.Ok) (received : List UInt8) :
    (received.foldl receive h).uart.Ok ∧ (received.foldl receive h).abstract =
      Fifo.run uartBufferSize h.abstract (received.map .arrive) := by
  induction received generalizing h with
  | nil => exact ⟨hok, rfl⟩
  | cons c received ih =>
    obtain ⟨hok', habs⟩ := receive_refines hok c
    obtain ⟨hok'', habs'⟩ := ih hok'
    refine ⟨hok'', habs'.trans ?_⟩
    rw [habs]
    rfl

/-- `uart_getc` takes the oldest byte, if there is one. -/
lemma getc_refines {h : UartLog} (hok : h.uart.Ok) : h.getc.uart.Ok ∧
    h.getc.abstract = Fifo.step uartBufferSize h.abstract .take := by
  unfold getc Fifo.step abstract
  cases hw : h.uart.waiting with
  | nil =>
    rw [hok.getc_nil hw, if_pos (hok.waiting_eq_nil.mp hw)]
    dsimp only
    rw [hw]
    exact ⟨hok, rfl⟩
  | cons c cs =>
    obtain ⟨u', hgetc, hok', hwaiting⟩ := hok.getc_cons hw
    have hne : h.uart.bufferCount ≠ 0 := by
      rw [Ne, ← hok.waiting_eq_nil, hw]
      exact List.cons_ne_nil c cs
    rw [hgetc, if_neg hne]
    dsimp only
    rw [hwaiting]
    exact ⟨hok', rfl⟩

/-- Every operation is its events at the queue. -/
lemma step_refines {h : UartLog} (hok : h.uart.Ok) (op : UartOp) : (step h op).uart.Ok ∧
    (step h op).abstract = Fifo.run uartBufferSize h.abstract (events op) := by
  cases op with
  | interrupt received => exact interrupt_refines hok received
  | getc => exact getc_refines hok

/-- The ring refines the queue. -/
theorem run_refines {h : UartLog} (hok : h.uart.Ok) (ops : List UartOp) : (run h ops).uart.Ok ∧
    (run h ops).abstract = Fifo.run uartBufferSize h.abstract (ops.flatMap events) := by
  induction ops generalizing h with
  | nil => exact ⟨hok, rfl⟩
  | cons op ops ih =>
    obtain ⟨hok', habs⟩ := step_refines hok op
    obtain ⟨hok'', habs'⟩ := ih hok'
    refine ⟨hok'', habs'.trans ?_⟩
    rw [habs, List.flatMap_cons, Fifo.run, Fifo.run, Fifo.run, List.foldl_append]

/-- From `uart_init` on, after any runs of the handler with any bytes and any calls of `uart_getc`,
the count and the indices fit together, a byte was dropped only when the ring was full at its
arrival, and the bytes taken out, followed by those that wait in the ring, are the accepted ones in
order. -/
theorem uart_ring_fifo (u : Uart) (ops : List UartOp) :
    let h := run (start u) ops
    0 ≤ h.uart.bufferCount ∧ h.uart.bufferCount ≤ uartBufferSize ∧
    h.uart.bufferHead = (h.uart.bufferTail + h.uart.bufferCount) % uartBufferSize ∧
    (∀ full ∈ h.dropped, full.bufferCount = uartBufferSize) ∧
    h.taken ++ h.uart.waiting = h.accepted := by
  intro h
  obtain ⟨hok, habs⟩ := run_refines (h := start u) u.init_ok ops
  have hinv : Fifo.Inv uartBufferSize h.abstract := by
    rw [habs]
    exact Fifo.run_inv Fifo.empty_inv _
  refine ⟨hok.count_nonneg, hok.count_le, hok.head, fun full hmem => ?_, hinv.order⟩
  have hlen := hinv.full _ (List.mem_map_of_mem hmem)
  rw [length_waiting] at hlen
  unfold uartBufferSize at *
  omega

end UartLog

end Hydra.Kernel
