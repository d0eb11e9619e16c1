import Hydra.Kernel.Uart
import Hydra.Lib.Run

/-!
# getchar

`getchar` of `lib/libc/stdio.c` on `syscall_read` of `lib/libhydra/syscall_user.c` and `uart_getc`.
Each of them has another sign for "no data": `uart_getc` returns the character 0, `syscall_read` a
count of 0, and `getchar` the value -1. But `syscall_read` has one character to return in any case,
so `getchar` never returns -1, and its values are the bytes of the console as long as it is called
while one waits (`getchar_faithful`).
-/

namespace Hydra.LibC
open ByteMem Hydra.Kernel

/-- C `syscall_read`: the number of characters, the buffer, and the console. -/
def syscallRead (u : Uart) (buffer : Mem) (maxLen : Nat) : Int × Mem × Uart :=
  if maxLen > 0 then
    let (c, u) := u.getc
    (1, Function.update buffer 0 c, u)
  else (0, buffer, u)

/-- C `getchar`. Its variable `c` has a value of its own only after `syscall_read` has written it; a
`char` is not signed. -/
def getchar (u : Uart) : Int × Uart :=
  let (n, c, u) := syscallRead u (fun _ => 0) 1
  if n = 1 then ((c 0).toNat, u) else (-1, u)

lemma getchar_eq (u : Uart) : getchar u = ((u.getc.1.toNat : Int), u.getc.2) := rfl

/-- An interrupt with the bytes that have been received, or a call of `getchar`. -/
inductive ConsoleOp where
  | interrupt (received : List UInt8)
  | getchar

/-- The console with the bytes that the handler has accepted, and for each call of `getchar` the
bytes that waited and the value. -/
structure Console where
  uart : Uart
  accepted : List UInt8
  calls : List (List UInt8 × Int)

namespace Console

/-- The console after `uart_init`. -/
def start (u : Uart) : Console := ⟨u.init, [], []⟩

/-- An interrupt or a call. -/
def step (h : Console) : ConsoleOp → Option Console
  | .interrupt received =>
    some { h with
      uart := h.uart.interruptHandler received
      accepted := h.accepted ++ h.uart.accepted received }
  | .getchar =>
    some { h with
      uart := (LibC.getchar h.uart).2
      calls := h.calls ++ [(h.uart.waiting, (LibC.getchar h.uart).1)] }

/-- The run of interrupts and calls. -/
abbrev run (h : Console) (ops : List ConsoleOp) : Option Console := Run.run step h ops

/-- `getchar` has returned -1 exactly when no byte waited, and its other values are the accepted
bytes but those that still wait, in order. -/
structure Faithful (h : Console) : Prop where
  eof : ∀ call ∈ h.calls, call.2 = -1 ↔ call.1 = []
  values : (h.calls.map Prod.snd).filter (· ≠ -1) ++ h.uart.waiting.map (fun c => (c.toNat : Int)) =
    h.accepted.map fun c => (c.toNat : Int)

/-- A byte waits when `getchar` is called. -/
def Ready (h : Console) : ConsoleOp → Prop
  | .interrupt _ => True
  | .getchar => h.uart.waiting ≠ []

/-- The calls that found a byte have returned it; the others returned 0. -/
structure Inv (h : Console) : Prop where
  ring : h.uart.Ok
  values : ((h.calls.filter (·.1 ≠ [])).map Prod.snd) ++
    h.uart.waiting.map (fun c => (c.toNat : Int)) = h.accepted.map fun c => (c.toNat : Int)
  nonneg : ∀ call ∈ h.calls, 0 ≤ call.2

lemma start_inv (u : Uart) : (start u).Inv where
  ring := u.init_ok
  values := rfl
  nonneg := List.forall_mem_nil _

lemma step_inv (h : Console) (op : ConsoleOp) (hi : h.Inv) : ∃ h', step h op = some h' ∧ h'.Inv := by
  obtain ⟨hring, hvalues, hnonneg⟩ := hi
  cases op with
  | interrupt received =>
    obtain ⟨hok, hwaiting⟩ := hring.interruptHandler received
    refine ⟨_, rfl, hok, ?_, hnonneg⟩
    simp only [hwaiting, List.map_append, ← List.append_assoc, hvalues]
  | getchar =>
    refine ⟨_, rfl, ?_⟩
    simp only [getchar_eq]
    cases hw : h.uart.waiting with
    | nil =>
      rw [hring.getc_nil hw]
      rw [hw] at hvalues
      refine ⟨hring, ?_, ?_⟩
      · simpa [hw] using hvalues
      · exact List.forall_mem_append.mpr
          ⟨hnonneg, List.forall_mem_singleton.mpr (Int.natCast_nonneg _)⟩
    | cons c cs =>
      obtain ⟨u', hgetc, hok, hwaiting⟩ := hring.getc_cons hw
      rw [hgetc]
      rw [hw] at hvalues
      refine ⟨hok, ?_, ?_⟩
      · simpa [hwaiting] using hvalues
      · exact List.forall_mem_append.mpr
          ⟨hnonneg, List.forall_mem_singleton.mpr (Int.natCast_nonneg _)⟩

/-- The run meets the condition exactly if the calls that it adds have found a byte. -/
lemma run_calls (h h' : Console) (ops : List ConsoleOp) (hrun : run h ops = some h') :
    ∃ calls, h'.calls = h.calls ++ calls ∧
      (Run.Admissible step Ready h ops ↔ ∀ call ∈ calls, call.1 ≠ []) := by
  induction ops generalizing h with
  | nil =>
    obtain rfl := Option.some.inj hrun
    exact ⟨[], (List.append_nil _).symm, iff_of_true trivial (List.forall_mem_nil _)⟩
  | cons op ops ih =>
    cases op with
    | interrupt received =>
      obtain ⟨calls, hcalls, hiff⟩ := ih _ hrun
      exact ⟨calls, hcalls, (and_iff_right trivial).trans hiff⟩
    | getchar =>
      obtain ⟨calls, hcalls, hiff⟩ := ih _ hrun
      refine ⟨(h.uart.waiting, (LibC.getchar h.uart).1) :: calls, ?_, ?_⟩
      · rw [hcalls, List.append_assoc, List.singleton_append]
      · rw [List.forall_mem_cons]
        exact and_congr_right' hiff

/-- In every run of interrupts and calls from `uart_init` on, `getchar` tells the bytes of the
console from their absence exactly if every call is made while a byte waits. -/
theorem getchar_faithful (u : Uart) (ops : List ConsoleOp) :
    ∃ h, run (start u) ops = some h ∧
      (h.Faithful ↔ Run.Admissible step Ready (start u) ops) := by
  obtain ⟨h, hrun, hinv⟩ := Run.inv step_inv ops (start_inv u)
  obtain ⟨calls, hcalls, hiff⟩ := run_calls _ _ ops hrun
  obtain rfl : h.calls = calls := hcalls
  refine ⟨h, hrun, ?_⟩
  have heof : ∀ call ∈ h.calls, call.2 ≠ -1 := fun call hcall hm1 => by
    have hpos := hinv.nonneg call hcall
    omega
  rw [hiff]
  constructor
  · intro hfaithful call hcall hnil
    exact heof call hcall ((hfaithful.eof call hcall).mpr hnil)
  · intro hready
    refine ⟨fun call hcall => iff_of_false (heof call hcall) (hready call hcall), ?_⟩
    have hall : h.calls.filter (·.1 ≠ []) = h.calls :=
      List.filter_eq_self.mpr fun call hcall => decide_eq_true (hready call hcall)
    have hsame : (h.calls.map Prod.snd).filter (· ≠ -1) = h.calls.map Prod.snd := by
      refine List.filter_eq_self.mpr fun value hvalue => ?_
      obtain ⟨call, hcall, rfl⟩ := List.mem_map.mp hvalue
      exact decide_eq_true (heof call hcall)
    rw [hsame, ← hinv.values, hall]

/-- Without any input `getchar` returns 0. -/
theorem getchar_faithful_fails :
    ∃ h, run (start ⟨fun _ => 0, 0, 0, 0⟩) [.getchar] = some h ∧ h.calls = [([], 0)] ∧
      ¬h.Faithful := by
  refine ⟨_, rfl, rfl, fun h => ?_⟩
  have heof := (h.eof ([], 0) List.mem_cons_self).mpr rfl
  cases heof

end Console

end Hydra.LibC
