import Hydra.Ipc.Delivery
import Hydra.Sched.Invariant
import Hydra.Net.Pool

/-!
# System calls

`handle_syscall` of `kernal/syscall.c` and the functions of `lib/libhydra/syscall_user.c` that call
it. The arguments are `long`s, which the dispatcher narrows to what the subsystems take; pointers
are addresses in the memory of the tasks, which lies apart from what the kernel keeps for itself.

A run is any sequence of system calls with any arguments, of interrupts, and of computations of the
running task. The dispatcher adds nothing to the subsystems: a run of the kernel is a run of the
scheduler, of the message system and of the packet pool at once (`syscalls_project`), so what holds
of the runs of one of them holds of the kernel. And it writes to the memory of the tasks only where
a receiving call tells it to (`kernel_writes`).

The one place where the width of an argument matters is SYS_NET_RECV: it compares the `long`, but
copies as many bytes as the `int` says (`net_recv_overrun`).
-/

namespace Hydra.Kernel
open ByteMem Linked Mailbox Hydra.Ipc Hydra.Net
open Hydra.Sched (Machine Image Regs SchedOp Inv createTask taskYield schedTick sysExit)

/-! ## The code -/

/-- What the system calls work on: the kernel, and the memory of the tasks. -/
structure Core where
  machine : Machine
  ipc : IpcState
  driver : Driver
  mem : Mem

/-- A pointer that is passed as a `long`. -/
def pointer (arg : Int64) : Nat := arg.toUInt64.toNat

/-- The memory a pointer leads to, if it is not null. -/
def deref (m : Mem) (arg : Int64) : Option Mem :=
  if arg = 0 then none else some (shift m (pointer arg))

/-- Replace the memory a pointer leads to. -/
def assign (m : Mem) (arg : Int64) (buffer : Mem) : Mem :=
  fun i => if pointer arg ≤ i then buffer (i - pointer arg) else m i

/-- The case `SYS_NET_RECV`. -/
def netRecvCase (k : Core) (arg1 arg2 : Int64) : Int × Core :=
  let (pkt, d) := netReceive k.driver
  if pkt = 0 then (0, { k with driver := d })
  else
    let packet := (d.packetPool pkt).packet
    let copyLen : Int :=
      if (packet.length.toNat : Int) < arg2.toInt then packet.length.toNat else arg2.toInt32.toInt
    let mem := assign k.mem arg1 (copy packet.data copyLen.toNat (shift k.mem (pointer arg1)))
    (packet.length.toNat, { k with driver := netFreePacket d pkt, mem := mem })

/-- System call numbers. -/
inductive SyscallNum where
  | sendMsg
  | recvMsg
  | netSend
  | netRecv
  | getPid
  | yield
  | createTask
  | exit
  deriving DecidableEq, Repr

/-- The system call that a number stands for. -/
def SyscallNum.ofLong (num : Int64) : Option SyscallNum :=
  match num.toInt with
  | 1 => some sendMsg
  | 2 => some recvMsg
  | 3 => some netSend
  | 4 => some netRecv
  | 5 => some getPid
  | 6 => some yield
  | 7 => some createTask
  | 8 => some exit
  | _ => none

/-- C `handle_syscall`: the return value and the state. -/
def handleSyscall (img : Image) (k : Core) (syscallNum arg1 arg2 arg3 _arg4 : Int64) :
    Option (Int × Core) :=
  match SyscallNum.ofLong syscallNum with
  | some .sendMsg =>
    let result := sendMessage k.ipc k.machine.currentTask arg1.toInt32.toInt (deref k.mem arg2)
      arg3.toInt32.toInt
    some (result.1, { k with ipc := result.2 })
  | some .recvMsg =>
    let result := recvMessage k.ipc k.machine.currentTask arg1.toInt32.toInt (deref k.mem arg2)
      arg3.toInt32.toInt
    let mem := match result.buffer with
      | none => k.mem
      | some buffer => assign k.mem arg2 buffer
    some (result.ret, { k with ipc := result.state, mem := mem })
  | some .netSend =>
    let result := netSend k.driver.stats (UInt16.ofNat (arg2.toInt % 2 ^ 16).toNat)
    some (result.1, { k with driver := { k.driver with stats := result.2 } })
  | some .netRecv => some (netRecvCase k arg1 arg2)
  | some .getPid => some (k.machine.currentTask, k)
  | some .yield => (taskYield k.machine).map fun s => (0, { k with machine := s })
  | some .createTask =>
    let result := createTask img k.machine arg1.toUInt64
    some (result.1, { k with machine := result.2 })
  | some .exit => (sysExit k.machine).map fun s => (0, { k with machine := s })
  | none => some (-1, k)

/-! The functions of `syscall_user.c`. -/

section User

variable (img : Image) (k : Core)

/-- C `syscall_send_msg`. -/
def syscallSendMsg (receiverPid : Int32) (data : Int64) (size : Int32) : Option (Int × Core) :=
  handleSyscall img k 1 receiverPid.toInt64 data size.toInt64 0

/-- C `syscall_recv_msg`. -/
def syscallRecvMsg (senderPid : Int32) (buffer : Int64) (maxSize : Int32) : Option (Int × Core) :=
  handleSyscall img k 2 senderPid.toInt64 buffer maxSize.toInt64 0

/-- C `syscall_net_send`. -/
def syscallNetSend (data : Int64) (size : Int32) : Option (Int × Core) :=
  handleSyscall img k 3 data size.toInt64 0 0

/-- C `syscall_net_recv`. -/
def syscallNetRecv (buffer : Int64) (maxSize : Int32) : Option (Int × Core) :=
  handleSyscall img k 4 buffer maxSize.toInt64 0 0

/-- C `syscall_get_pid`. -/
def syscallGetPid : Option (Int × Core) := handleSyscall img k 5 0 0 0 0

/-- C `syscall_yield`. -/
def syscallYield : Option (Int × Core) := handleSyscall img k 6 0 0 0 0

/-- C `syscall_create_task`. -/
def syscallCreateTask (entryPoint : Int64) : Option (Int × Core) :=
  handleSyscall img k 7 entryPoint 0 0 0

/-- C `syscall_exit`. -/
def syscallExit : Option (Int × Core) := handleSyscall img k 8 0 0 0 0

end User

/-- What happens to the kernel; `compute` is the running task working on its registers and its
memory. -/
inductive CoreOp where
  | syscall (syscallNum arg1 arg2 arg3 arg4 : Int64)
  | netInterrupt
  | timerTick
  | compute (regs : Regs) (writes : List (Nat × UInt8))

namespace Core

def step (img : Image) (k : Core) : CoreOp → Option Core
  | .syscall syscallNum arg1 arg2 arg3 arg4 =>
    (handleSyscall img k syscallNum arg1 arg2 arg3 arg4).map Prod.snd
  | .netInterrupt => some { k with driver := (netInterruptHandler k.driver).2 }
  | .timerTick => (schedTick k.machine).map fun s => { k with machine := s }
  | .compute regs writes =>
    some { k with
      machine := { k.machine with regs := regs }
      mem := writes.foldl (fun m w => Function.update m w.1 w.2) k.mem }

/-- The kernel when its subsystems have been set up. -/
def boot (img : Image) (regs : Regs) (ipc : IpcState) (driver : Driver) (mem : Mem) : Core where
  machine := Sched.initial img regs
  ipc := ipc
  driver := netInit driver
  mem := mem

abbrev run (img : Image) (k : Core) (ops : List CoreOp) : Option Core := Run.run (step img) k ops

end Core

/-! ## The subsystems -/

/-- What an operation is for the scheduler. -/
def schedOps (_ : Core) : CoreOp → List SchedOp
  | .syscall syscallNum arg1 _ _ _ =>
    match SyscallNum.ofLong syscallNum with
    | some .yield => [.taskYield]
    | some .createTask => [.createTask arg1.toUInt64]
    | some .exit => [.sysExit]
    | _ => []
  | .netInterrupt => []
  | .timerTick => [.schedTick]
  | .compute regs _ => [.compute regs]

/-- What an operation is for the message system. -/
def ipcOps (k : Core) : CoreOp → List IpcOp
  | .syscall syscallNum arg1 arg2 arg3 _ =>
    match SyscallNum.ofLong syscallNum with
    | some .sendMsg => [.sendMessage k.machine.currentTask arg1.toInt32.toInt (deref k.mem arg2)
        arg3.toInt32.toInt]
    | some .recvMsg => [.recvMessage k.machine.currentTask arg1.toInt32.toInt (deref k.mem arg2)
        arg3.toInt32.toInt]
    | _ => []
  | _ => []

/-- The scheduler is consistent, and no packet is held by anyone. -/
structure CoreInv (k : Core) : Prop where
  machine : Inv k.machine
  pool : ∃ free queue, PoolRep k.driver free queue []

section Subsystems

variable {img : Image} {k k' : Core}

lemma netRecvCase_driver (k : Core) (arg1 arg2 : Int64) :
    (netRecvCase k arg1 arg2).2.driver = Net.consume k.driver := by
  unfold netRecvCase Net.consume
  simp only
  split <;> rfl

lemma netRecvCase_machine (k : Core) (arg1 arg2 : Int64) :
    (netRecvCase k arg1 arg2).2.machine = k.machine ∧ (netRecvCase k arg1 arg2).2.ipc = k.ipc := by
  unfold netRecvCase
  simp only
  split <;> exact ⟨rfl, rfl⟩

lemma consume_pool {d : Driver} (h : ∃ free queue, PoolRep d free queue []) :
    ∃ free queue, PoolRep (Net.consume d) free queue [] := by
  obtain ⟨free, queue, hrep⟩ := h
  unfold Net.consume
  rcases hrep.consume with ⟨_, e⟩ | ⟨p, rest, d', _, hp0, e, h'⟩
  · simp only [e, if_true]
    exact ⟨free, queue, hrep⟩
  · simp only [e, if_neg hp0]
    exact ⟨_, _, h'⟩

/-- A system call is at most one operation of the scheduler, keeps the invariant and returns. -/
lemma handleSyscall_sched (img : Image) (h : CoreInv k) (syscallNum arg1 arg2 arg3 arg4 : Int64) :
    ∃ ret k', handleSyscall img k syscallNum arg1 arg2 arg3 arg4 = some (ret, k') ∧ CoreInv k' ∧
      Run.run (Sched.step img) k.machine
        (schedOps k (.syscall syscallNum arg1 arg2 arg3 arg4)) = some k'.machine := by
  obtain ⟨hinv, hpool⟩ := h
  have hsched : ∀ sop, ∃ s', Sched.step img k.machine sop = some s' ∧ Inv s' :=
    fun sop => Sched.step_inv img k.machine sop hinv
  simp only [handleSyscall, schedOps]
  cases SyscallNum.ofLong syscallNum with
  | none => exact ⟨_, _, rfl, ⟨hinv, hpool⟩, rfl⟩
  | some num =>
    cases num with
    | sendMsg | recvMsg | getPid => exact ⟨_, _, rfl, ⟨hinv, hpool⟩, rfl⟩
    | netSend =>
      obtain ⟨free, queue, hrep⟩ := hpool
      exact ⟨_, _, rfl, ⟨hinv, free, queue, hrep.withStats _⟩, rfl⟩
    | netRecv =>
      obtain ⟨e, _⟩ := netRecvCase_machine k arg1 arg2
      refine ⟨(netRecvCase k arg1 arg2).1, (netRecvCase k arg1 arg2).2, rfl, ⟨?_, ?_⟩, ?_⟩
      · rw [e]
        exact hinv
      · rw [netRecvCase_driver]
        exact consume_pool hpool
      · rw [e]
        rfl
    | yield =>
      obtain ⟨s', e, hinv'⟩ := hsched .taskYield
      have e' : taskYield k.machine = some s' := e
      rw [e']
      exact ⟨_, _, rfl, ⟨hinv', hpool⟩, Run.run_cons e⟩
    | createTask =>
      obtain ⟨s', e, hinv'⟩ := hsched (.createTask arg1.toUInt64)
      obtain rfl := Option.some.inj e
      exact ⟨_, _, rfl, ⟨hinv', hpool⟩, rfl⟩
    | exit =>
      obtain ⟨s', e, hinv'⟩ := hsched .sysExit
      have e' : sysExit k.machine = some s' := e
      rw [e']
      exact ⟨_, _, rfl, ⟨hinv', hpool⟩, Run.run_cons e⟩

/-- Every step is at most one operation of the scheduler, keeps the invariant and ends. -/
lemma step_sched (img : Image) (h : CoreInv k) (op : CoreOp) :
    ∃ k', Core.step img k op = some k' ∧ CoreInv k' ∧
      Run.run (Sched.step img) k.machine (schedOps k op) = some k'.machine := by
  cases op with
  | syscall syscallNum arg1 arg2 arg3 arg4 =>
    obtain ⟨ret, k', e, h', hrun⟩ := handleSyscall_sched img h syscallNum arg1 arg2 arg3 arg4
    exact ⟨k', Option.map_eq_some_iff.mpr ⟨_, e, rfl⟩, h', hrun⟩
  | netInterrupt =>
    obtain ⟨hinv, free, queue, hrep⟩ := h
    refine ⟨_, rfl, ⟨hinv, ?_⟩, rfl⟩
    rcases hrep.interrupt with ⟨d', e, h'⟩ | ⟨p, rest, d', _, _, e, h'⟩
    · rw [e]
      exact ⟨_, _, h'⟩
    · rw [e]
      exact ⟨_, _, h'⟩
  | timerTick =>
    obtain ⟨s', e, hinv'⟩ := Sched.step_inv img k.machine .schedTick h.machine
    have e' : schedTick k.machine = some s' := e
    exact ⟨_, Option.map_eq_some_iff.mpr ⟨s', e', rfl⟩, ⟨hinv', h.pool⟩, Run.run_cons e⟩
  | compute regs writes =>
    obtain ⟨s', e, hinv'⟩ := Sched.step_inv img k.machine (.compute regs) h.machine
    obtain rfl := Option.some.inj e
    exact ⟨_, rfl, ⟨hinv', h.pool⟩, rfl⟩

/-- Every step is at most one call of the message system. -/
lemma step_ipc {h : History} (hipc : h.ipc = k.ipc) {op : CoreOp}
    (e : Core.step img k op = some k') :
    ∃ h', Run.run History.step h (ipcOps k op) = some h' ∧ h'.ipc = k'.ipc := by
  have hstays : ipcOps k op = [] → k'.ipc = k.ipc →
      ∃ h', Run.run History.step h (ipcOps k op) = some h' ∧ h'.ipc = k'.ipc := by
    intro hnil hsame
    rw [hnil]
    exact ⟨h, rfl, hipc.trans hsame.symm⟩
  cases op with
  | netInterrupt =>
    obtain rfl := Option.some.inj e
    exact hstays rfl rfl
  | timerTick =>
    obtain ⟨s', _, rfl⟩ := Option.map_eq_some_iff.mp e
    exact hstays rfl rfl
  | compute regs writes =>
    obtain rfl := Option.some.inj e
    exact hstays rfl rfl
  | syscall syscallNum arg1 arg2 arg3 arg4 =>
    obtain ⟨⟨ret, k₁⟩, hcall, rfl⟩ := Option.map_eq_some_iff.mp e
    clear e
    simp only [handleSyscall] at hcall
    simp only [ipcOps] at hstays ⊢
    cases hnum : SyscallNum.ofLong syscallNum with
    | none =>
      rw [hnum] at hcall hstays
      cases hcall
      exact hstays rfl rfl
    | some num =>
      rw [hnum] at hcall hstays
      cases num with
      | sendMsg =>
        cases hcall
        refine ⟨_, rfl, ?_⟩
        rw [← hipc]
        rfl
      | recvMsg =>
        cases hcall
        refine ⟨_, rfl, ?_⟩
        rw [← hipc]
        rfl
      | netSend | getPid | createTask =>
        cases hcall
        exact hstays rfl rfl
      | netRecv =>
        obtain rfl : (netRecvCase k arg1 arg2).2 = k₁ := congrArg Prod.snd (Option.some.inj hcall)
        exact hstays rfl (netRecvCase_machine k arg1 arg2).2
      | yield | exit =>
        obtain ⟨s', _, e'⟩ := Option.map_eq_some_iff.mp hcall
        cases e'
        exact hstays rfl rfl

/-- A run of the kernel keeps the invariant, and is a run of the scheduler. -/
lemma run_sched (img : Image) (h : CoreInv k) (ops : List CoreOp) :
    ∃ k', Core.run img k ops = some k' ∧ CoreInv k' ∧
      Run.run (Sched.step img) k.machine (Run.trace (Core.step img) schedOps k ops) =
        some k'.machine := by
  obtain ⟨k', hrun, h'⟩ := Run.inv (fun k op h => by
    obtain ⟨k', e, h', _⟩ := step_sched img h op
    exact ⟨k', e, h'⟩) ops h
  refine ⟨k', hrun, h', ?_⟩
  have hfollow : ∀ (k : Core) (s : Machine) (op : CoreOp) (k' : Core),
      CoreInv k ∧ k.machine = s → Core.step img k op = some k' →
      ∃ s', Run.run (Sched.step img) s (schedOps k op) = some s' ∧ CoreInv k' ∧
        k'.machine = s' := by
    rintro k _ op k' ⟨hk, rfl⟩ e
    obtain ⟨k₁, e₁, h₁, hrun₁⟩ := step_sched img hk op
    obtain rfl := Option.some.inj (e₁.symm.trans e)
    exact ⟨_, hrun₁, h₁, rfl⟩
  obtain ⟨s, hsched, _, rfl⟩ := Run.follows hfollow ⟨h, rfl⟩ hrun
  exact hsched

/-- A run of the kernel is a run of the message system. -/
lemma run_ipc {ops : List CoreOp} (hrun : Core.run img k ops = some k') :
    ∃ h, History.run k.ipc (Run.trace (Core.step img) ipcOps k ops) = some h ∧ h.ipc = k'.ipc :=
  Run.follows (R := fun k (h : History) => h.ipc = k.ipc) (fun _ _ _ _ hipc e => step_ipc hipc e) rfl
    hrun

end Subsystems

/-- A run of the kernel is a run of the scheduler and a run of the message system. Whatever is asked
of it, the kernel returns; no message slot and no packet is lost. -/
theorem syscalls_project {n : Nat} {s₀ : IpcState} (h₀ : Initial n s₀) (img : Image) (regs : Regs)
    (driver : Driver) (hhead : driver.rxQueueHead = 0) (htail : driver.rxQueueTail = 0) (mem : Mem)
    (ops : List CoreOp) :
    ∃ k h, Core.run img (Core.boot img regs s₀ driver mem) ops = some k ∧
      Sched.run img regs (Run.trace (Core.step img) schedOps
        (Core.boot img regs s₀ driver mem) ops) = some k.machine ∧
      History.run s₀ (Run.trace (Core.step img) ipcOps
        (Core.boot img regs s₀ driver mem) ops) = some h ∧ h.ipc = k.ipc ∧
      Inv k.machine ∧
      (∃ slots free queues, slots.length = n ∧ slots.Nodup ∧ Conserved slots k.ipc free queues) ∧
      ∃ free queue, PoolRep k.driver free queue [] := by
  have hboot : CoreInv (Core.boot img regs s₀ driver mem) :=
    ⟨Sched.initial_inv img regs, _, _, initPacketPool_rep hhead htail⟩
  obtain ⟨k, hrun, hinv, hsched⟩ := run_sched img hboot ops
  obtain ⟨h, hhist, hipc⟩ := run_ipc hrun
  refine ⟨k, h, hrun, hsched, hhist, hipc, hinv.machine, ?_, hinv.pool⟩
  obtain ⟨slots, h', hlen, hpool, hrun', free, box, hrep, _⟩ := History.run_inv h₀
    (Run.trace (Core.step img) ipcOps (Core.boot img regs s₀ driver mem) ops)
  obtain rfl := Option.some.inj (hrun'.symm.trans hhist)
  exact ⟨slots, free, _, hlen, hpool.nodup, hipc ▸ hrep.conserved hpool.nodup⟩

/-- A small machine. -/
def smallImage : Image := ⟨0, 4096, 8192, 12288⟩

/-- A kernel whose device interrupts next for the hundredth time. -/
def bootCore : Core := .boot smallImage (fun _ => 0) poolState (bootDriver 99) fun _ => 0

/-- A message of eight bytes for task 1, which receives it. -/
def exchange : List CoreOp :=
  [.syscall 1 1 64 8 0, .netInterrupt, .syscall 6 0 0 0 0, .syscall 2 (-1) 128 256 0]

theorem syscalls_project_exchange :
    ∃ k, ∃ h : History, Core.run smallImage bootCore exchange = some k ∧ h.ipc = k.ipc ∧
      Inv k.machine := by
  obtain ⟨k, h, hrun, _, _, hipc, hinv, _⟩ := syscalls_project poolState_initial smallImage
    (fun _ => 0) (bootDriver 99) rfl rfl (fun _ => 0) exchange
  exact ⟨k, h, hrun, hipc, hinv⟩

/-! ## The memory of the tasks -/

/-- The size of the buffer that SYS_NET_RECV is given, as the copy takes it. -/
def netRecvSize (arg2 : Int64) : Nat :=
  if 0 ≤ arg2.toInt then arg2.toInt.toNat else arg2.toInt32.toInt.toNat

/-- An operation may write to the address: it is in the buffer of a receiving call, or the running
task writes to it. -/
def MayWrite (x : Nat) : CoreOp → Prop
  | .syscall syscallNum arg1 arg2 arg3 _ =>
    match SyscallNum.ofLong syscallNum with
    | some .recvMsg => pointer arg2 ≤ x ∧ x < pointer arg2 + arg3.toInt32.toInt.toNat
    | some .netRecv => pointer arg1 ≤ x ∧ x < pointer arg1 + netRecvSize arg2
    | _ => False
  | .compute _ writes => x ∈ writes.map Prod.fst
  | _ => False

section Memory

variable {img : Image} {k k' : Core} {x : Nat}

@[simp] lemma shift_assign (m : Mem) (arg : Int64) (buffer : Mem) :
    shift (assign m arg buffer) (pointer arg) = buffer := by
  funext i
  unfold shift assign
  rw [if_pos (Nat.le_add_right _ _), Nat.add_sub_cancel_left]

lemma assign_shift (m : Mem) (arg : Int64) : assign m arg (shift m (pointer arg)) = m := by
  funext i
  unfold assign shift
  split
  · next hle => rw [Nat.add_sub_cancel' hle]
  · rfl

lemma assign_apply (m : Mem) (arg : Int64) (buffer : Mem) {n : Nat}
    (h : ∀ i, n ≤ i → buffer i = shift m (pointer arg) i)
    (hx : ¬(pointer arg ≤ x ∧ x < pointer arg + n)) : assign m arg buffer x = m x := by
  unfold assign
  split
  · next hle =>
    rw [h _ (by omega), shift, Nat.add_sub_cancel' hle]
  · rfl

/-- A receive writes at most as many bytes as it is told. -/
lemma recvMessage_buffer (s : IpcState) (t sender maxSize : Int) (dst : Mem) :
    ∃ after, (recvMessage s t sender (some dst) maxSize).buffer = some after ∧
      ∀ i, maxSize.toNat ≤ i → after i = dst i := by
  unfold recvMessage
  simp only
  split_ifs with h₁ h₂ h₃ h₄ h₅
  · exact ⟨dst, rfl, fun _ _ => rfl⟩
  · exact ⟨dst, rfl, fun _ _ => rfl⟩
  · exact ⟨dst, rfl, fun _ _ => rfl⟩
  · exact ⟨dst, rfl, fun _ _ => rfl⟩
  · refine ⟨_, rfl, fun i hi => ?_⟩
    rw [copy_apply, if_neg (by omega)]
  · refine ⟨_, rfl, fun i hi => ?_⟩
    rw [copy_apply, if_neg (by omega)]

/-- The number of bytes that SYS_NET_RECV copies from a packet of this length. -/
def netRecvCopied (length : UInt16) (arg2 : Int64) : Nat :=
  (if (length.toNat : Int) < arg2.toInt then (length.toNat : Int) else arg2.toInt32.toInt).toNat

/-- A small `long` keeps its value as an `int`. -/
lemma toInt_toInt32_small {v : Int64} (h0 : 0 ≤ v.toInt) (hlt : v.toInt < 2 ^ 31) :
    v.toInt32.toInt = v.toInt := by
  rw [Int64.toInt_toInt32]
  exact Int.bmod_eq_of_le (by omega) (by omega)

lemma netRecvCopied_eq (length : UInt16) (arg2 : Int64) :
    netRecvCopied length arg2 =
      if 0 ≤ arg2.toInt then min length.toNat arg2.toInt.toNat else arg2.toInt32.toInt.toNat := by
  have hlen : length.toNat < 2 ^ 16 := length.toNat_lt
  unfold netRecvCopied
  by_cases h0 : 0 ≤ arg2.toInt
  · rw [if_pos h0]
    split
    · omega
    · rw [toInt_toInt32_small h0 (by omega)]
      omega
  · rw [if_neg h0, if_neg (by omega)]

lemma netRecvCopied_le (length : UInt16) (arg2 : Int64) :
    netRecvCopied length arg2 ≤ netRecvSize arg2 := by
  rw [netRecvCopied_eq]
  unfold netRecvSize
  split
  · exact Nat.min_le_right _ _
  · exact le_rfl

lemma netRecvCase_mem (k : Core) (arg1 arg2 : Int64)
    (hx : ¬(pointer arg1 ≤ x ∧ x < pointer arg1 + netRecvSize arg2)) :
    (netRecvCase k arg1 arg2).2.mem x = k.mem x := by
  unfold netRecvCase
  simp only
  split
  · rfl
  · refine assign_apply k.mem arg1 _ (fun i hi => ?_) hx
    rw [copy_apply, if_neg]
    have hle := netRecvCopied_le ((netReceive k.driver).2.packetPool
      (netReceive k.driver).1).packet.length arg2
    exact not_lt.mpr (hle.trans hi)

lemma foldl_update_of_notMem (writes : List (Nat × UInt8)) (m : Mem) (h : x ∉ writes.map Prod.fst) :
    writes.foldl (fun m w => Function.update m w.1 w.2) m x = m x := by
  induction writes generalizing m with
  | nil => rfl
  | cons w writes ih =>
    rw [List.map_cons, List.mem_cons, not_or] at h
    rw [List.foldl_cons, ih _ h.2, Function.update_of_ne h.1]

/-- An address that an operation may not write to keeps its byte. -/
lemma step_mem {op : CoreOp} (e : Core.step img k op = some k') (hx : ¬MayWrite x op) :
    k'.mem x = k.mem x := by
  cases op with
  | netInterrupt =>
    obtain rfl := Option.some.inj e
    rfl
  | timerTick =>
    obtain ⟨s', _, rfl⟩ := Option.map_eq_some_iff.mp e
    rfl
  | compute regs writes =>
    obtain rfl := Option.some.inj e
    exact foldl_update_of_notMem writes k.mem hx
  | syscall syscallNum arg1 arg2 arg3 arg4 =>
    obtain ⟨⟨ret, k₁⟩, hcall, rfl⟩ := Option.map_eq_some_iff.mp e
    clear e
    simp only [handleSyscall] at hcall
    simp only [MayWrite] at hx
    cases hnum : SyscallNum.ofLong syscallNum with
    | none =>
      rw [hnum] at hcall
      cases hcall
      rfl
    | some num =>
      rw [hnum] at hcall hx
      cases num with
      | sendMsg | netSend | getPid | createTask =>
        cases hcall
        rfl
      | recvMsg =>
        cases hcall
        show (match (recvMessage k.ipc k.machine.currentTask arg1.toInt32.toInt (deref k.mem arg2)
          arg3.toInt32.toInt).buffer with
          | none => k.mem
          | some buffer => assign k.mem arg2 buffer) x = k.mem x
        unfold deref
        by_cases hnull : arg2 = 0
        · rw [if_pos hnull]
          rfl
        · rw [if_neg hnull]
          obtain ⟨after, hafter, hsame⟩ := recvMessage_buffer k.ipc k.machine.currentTask
            arg1.toInt32.toInt arg3.toInt32.toInt (shift k.mem (pointer arg2))
          rw [hafter]
          exact assign_apply k.mem arg2 after hsame hx
      | netRecv =>
        obtain rfl : (netRecvCase k arg1 arg2).2 = k₁ := congrArg Prod.snd (Option.some.inj hcall)
        exact netRecvCase_mem k arg1 arg2 hx
      | yield | exit =>
        obtain ⟨s', _, e'⟩ := Option.map_eq_some_iff.mp hcall
        cases e'
        rfl

end Memory

/-- In every run the kernel writes to the memory of the tasks only inside the buffers that receiving
calls pass to it: what is in none of them, and is not written by the tasks, is never changed. -/
theorem kernel_writes (img : Image) (k k' : Core) (ops : List CoreOp)
    (hrun : Core.run img k ops = some k') (x : Nat) (hx : ∀ op ∈ ops, ¬MayWrite x op) :
    k'.mem x = k.mem x := by
  induction ops generalizing k with
  | nil =>
    obtain rfl := Option.some.inj hrun
    rfl
  | cons op ops ih =>
    obtain ⟨k₁, e, hrest⟩ := Option.bind_eq_some_iff.mp hrun
    obtain ⟨hop, hops⟩ := List.forall_mem_cons.mp hx
    rw [ih k₁ hrest hops, step_mem e hop]

/-- The receiver's call leaves the sender's buffer alone. -/
theorem kernel_writes_exchange :
    ∃ k, Core.run smallImage bootCore exchange = some k ∧ k.mem 64 = bootCore.mem 64 := by
  obtain ⟨k, _, hrun, _⟩ := syscalls_project poolState_initial smallImage
    (fun _ => 0) (bootDriver 99) rfl rfl (fun _ => 0) exchange
  refine ⟨k, hrun, kernel_writes smallImage bootCore k exchange hrun 64 ?_⟩
  simp only [exchange, List.forall_mem_cons]
  exact ⟨id, id, id, fun h => absurd h.1 (by decide), nofun⟩

/-! ## The length of a packet -/

/-- The first packet of the receive queue. -/
def firstPacket (d : Driver) : Packet := ((netReceive d).2.packetPool (netReceive d).1).packet

/-- SYS_NET_RECV copies no more than the packet has exactly if its size is not negative or small as
an `int`. The size that `syscall_net_recv` passes is an `int`, and then the copy is bounded by both
the packet and the buffer. -/
theorem net_recv_overrun (k : Core) (arg1 arg2 : Int64) (h : (netReceive k.driver).1 ≠ 0) :
    Writes (fun buffer => shift
        (netRecvCase { k with mem := assign k.mem arg1 buffer } arg1 arg2).2.mem (pointer arg1))
      (netRecvCopied (firstPacket k.driver).length arg2) ∧
    (netRecvCopied (firstPacket k.driver).length arg2 ≤ (firstPacket k.driver).length.toNat ↔
      0 ≤ arg2.toInt ∨ arg2.toInt32.toInt ≤ (firstPacket k.driver).length.toNat) ∧
    ∀ maxSize : Int32, netRecvCopied (firstPacket k.driver).length maxSize.toInt64 =
      min (firstPacket k.driver).length.toNat maxSize.toInt.toNat := by
  refine ⟨⟨(firstPacket k.driver).data, fun buffer => ?_⟩, ?_, fun maxSize => ?_⟩
  · unfold netRecvCase
    simp only [if_neg h]
    rw [shift_assign, shift_assign]
    rfl
  · rw [netRecvCopied_eq]
    split
    · exact iff_of_true (Nat.min_le_left _ _) (.inl ‹_›)
    · omega
  · rw [netRecvCopied_eq, Int32.toInt_toInt64, Int32.toInt32_toInt64]
    split
    · rfl
    · omega

/-- A negative size that is not negative as an `int`. -/
example : netRecvCopied 64 (-4294966296) = 1000 := by decide

/-- A packet of 64 bytes is received into a buffer of ten. -/
theorem net_recv_overrun_ten :
    netRecvCopied (firstPacket (netInterruptHandler (netInit (bootDriver 99))).2).length 10 =
      10 := by
  have hlen := (net_recv_overrun { bootCore with
    driver := (netInterruptHandler (netInit (bootDriver 99))).2 } 0 10 (by decide +kernel)).2.2 10
  exact hlen.trans (by decide +kernel)

/-! ## The functions of the library -/

section Direct

variable (img : Image) (k : Core)

/-- The functions that tasks call are the functions of the kernel. -/
lemma syscallSendMsg_eq (receiverPid : Int32) (data : Int64) (size : Int32) :
    syscallSendMsg img k receiverPid data size =
      some ((sendMessage k.ipc k.machine.currentTask receiverPid.toInt (deref k.mem data)
        size.toInt).1, { k with ipc := (sendMessage k.ipc k.machine.currentTask receiverPid.toInt
          (deref k.mem data) size.toInt).2 }) := by
  unfold syscallSendMsg handleSyscall
  simp only [show SyscallNum.ofLong 1 = some .sendMsg from rfl, Int32.toInt32_toInt64]

lemma syscallRecvMsg_eq (senderPid : Int32) (buffer : Int64) (maxSize : Int32) :
    ∃ mem, syscallRecvMsg img k senderPid buffer maxSize =
      some ((recvMessage k.ipc k.machine.currentTask senderPid.toInt (deref k.mem buffer)
        maxSize.toInt).ret, { k with
          ipc := (recvMessage k.ipc k.machine.currentTask senderPid.toInt (deref k.mem buffer)
            maxSize.toInt).state
          mem := mem }) ∧
      (buffer ≠ 0 → (recvMessage k.ipc k.machine.currentTask senderPid.toInt (deref k.mem buffer)
        maxSize.toInt).buffer = some (shift mem (pointer buffer))) := by
  unfold syscallRecvMsg handleSyscall
  simp only [show SyscallNum.ofLong 2 = some .recvMsg from rfl, Int32.toInt32_toInt64]
  refine ⟨_, rfl, fun hne => ?_⟩
  unfold deref
  rw [if_neg hne]
  obtain ⟨after, hafter, _⟩ := recvMessage_buffer k.ipc k.machine.currentTask senderPid.toInt
    maxSize.toInt (shift k.mem (pointer buffer))
  rw [hafter]
  simp

lemma syscallNetSend_eq (data : Int64) (size : Int32) :
    syscallNetSend img k data size =
      some ((Net.syscallNetSend k.driver.stats size.toInt).1,
        { k with driver := { k.driver with
          stats := (Net.syscallNetSend k.driver.stats size.toInt).2 } }) := by
  unfold syscallNetSend handleSyscall
  simp only [show SyscallNum.ofLong 3 = some .netSend from rfl, Int32.toInt_toInt64]
  rfl

lemma syscallNetRecv_eq (buffer : Int64) (maxSize : Int32) :
    syscallNetRecv img k buffer maxSize =
      some ((sysNetRecv k.driver (shift k.mem (pointer buffer)) maxSize.toInt).1, { k with
        driver := (sysNetRecv k.driver (shift k.mem (pointer buffer)) maxSize.toInt).2.2
        mem := assign k.mem buffer
          (sysNetRecv k.driver (shift k.mem (pointer buffer)) maxSize.toInt).2.1 }) := by
  unfold syscallNetRecv handleSyscall
  simp only [show SyscallNum.ofLong 4 = some .netRecv from rfl]
  unfold netRecvCase sysNetRecv
  simp only [Int32.toInt_toInt64, Int32.toInt32_toInt64]
  split
  · rw [assign_shift]
  · rfl

end Direct

end Hydra.Kernel
