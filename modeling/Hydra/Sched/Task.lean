import Hydra.Ipc.Message

/-!
# The scheduler

The task table of `kernal/sched.c`, its operations, the context switch of `kernal/switch_riscv.s`
and the exit call of `kernal/syscall.c`. The machine has the table, the two static counters and the
callee-saved registers. The table is a function of the index, of which the C code uses 0 to
`MAX_TASKS - 1`.

The assembly routine is the list of its instructions. Its memory operands are byte offsets from the
two argument registers, which point to contexts, and a context is the C struct with the layout that
its declaration in `kernal/sched.h` gives it. Addresses that the linker chooses are parameters.
-/

namespace Hydra.Sched
open Hydra.Ipc (maxTasks)

/-- `TASK_STACK_SIZE`. -/
def taskStackSize : Nat := 4096

/-- `task_state_t`. -/
inductive TaskState where
  | unused
  | running
  | ready
  | blocked
  deriving DecidableEq, Repr

/-- The registers that a function call preserves. -/
inductive Reg where
  | ra | sp | s0 | s1 | s2 | s3 | s4 | s5 | s6 | s7 | s8 | s9 | s10 | s11
  deriving DecidableEq, Repr

abbrev Regs := Reg → UInt64

/-- `struct task_context`. -/
structure TaskContext where
  ra : UInt64
  sp : UInt64
  s0 : UInt64
  s1 : UInt64
  s2 : UInt64
  s3 : UInt64
  s4 : UInt64
  s5 : UInt64
  s6 : UInt64
  s7 : UInt64
  s8 : UInt64
  s9 : UInt64
  s10 : UInt64
  s11 : UInt64
  deriving DecidableEq

/-- `struct task`, without the bytes of its stack. -/
structure Task where
  pid : Int
  state : TaskState
  context : TaskContext

/-- The static variables of `sched.c` and the registers of the processor. -/
structure Machine where
  tasks : Int → Task
  currentTask : Int
  numTasks : Int
  regs : Regs

/-- The addresses the linker gives to the task table and the first three entry functions. -/
structure Image where
  tasks : UInt64
  idleTask1 : UInt64
  idleTask2 : UInt64
  idleTask3 : UInt64

namespace Machine

def setTask (s : Machine) (i : Int) (task : Task) : Machine :=
  { s with tasks := Function.update s.tasks i task }

def setState (s : Machine) (i : Int) (state : TaskState) : Machine :=
  s.setTask i { s.tasks i with state := state }

end Machine

/-! ## The context switch -/

/-- The 64-bit word at a byte offset of the struct: the fields lie in the order of their
declaration, 8 bytes each. -/
def TaskContext.word (c : TaskContext) : Nat → UInt64
  | 0 => c.ra
  | 8 => c.sp
  | 16 => c.s0
  | 24 => c.s1
  | 32 => c.s2
  | 40 => c.s3
  | 48 => c.s4
  | 56 => c.s5
  | 64 => c.s6
  | 72 => c.s7
  | 80 => c.s8
  | 88 => c.s9
  | 96 => c.s10
  | 104 => c.s11
  | _ => 0

/-- Write the 64-bit word at a byte offset of the struct. -/
def TaskContext.setWord (c : TaskContext) (offset : Nat) (v : UInt64) : TaskContext :=
  match offset with
  | 0 => { c with ra := v }
  | 8 => { c with sp := v }
  | 16 => { c with s0 := v }
  | 24 => { c with s1 := v }
  | 32 => { c with s2 := v }
  | 40 => { c with s3 := v }
  | 48 => { c with s4 := v }
  | 56 => { c with s5 := v }
  | 64 => { c with s6 := v }
  | 72 => { c with s7 := v }
  | 80 => { c with s8 := v }
  | 88 => { c with s9 := v }
  | 96 => { c with s10 := v }
  | 104 => { c with s11 := v }
  | _ => c

/-- The argument registers of the routine. -/
inductive Arg where
  | a0
  | a1

/-- The instructions the routine uses. -/
inductive Instr where
  | sd (src : Reg) (offset : Nat) (base : Arg)
  | ld (dst : Reg) (offset : Nat) (base : Arg)
  | ret

/-- The task whose context an argument register points to. -/
def Arg.task (old new : Int) : Arg → Int
  | .a0 => old
  | .a1 => new

/-- Execute one instruction, with `a0` pointing to the context of task `old` and `a1` to that of
task `new`. -/
def exec (old new : Int) (s : Machine) : Instr → Machine
  | .sd src offset base =>
    let task := s.tasks (base.task old new)
    s.setTask (base.task old new) { task with context := task.context.setWord offset (s.regs src) }
  | .ld dst offset base =>
    let context := (s.tasks (base.task old new)).context
    { s with regs := Function.update s.regs dst (context.word offset) }
  | .ret => s

/-- Save callee-saved registers to old context. -/
def saveCode : List Instr :=
  [.sd .ra 0 .a0, .sd .sp 8 .a0, .sd .s0 16 .a0, .sd .s1 24 .a0, .sd .s2 32 .a0, .sd .s3 40 .a0,
    .sd .s4 48 .a0, .sd .s5 56 .a0, .sd .s6 64 .a0, .sd .s7 72 .a0, .sd .s8 80 .a0, .sd .s9 88 .a0,
    .sd .s10 96 .a0, .sd .s11 104 .a0]

/-- Load callee-saved registers from new context. -/
def loadCode : List Instr :=
  [.ld .ra 0 .a1, .ld .sp 8 .a1, .ld .s0 16 .a1, .ld .s1 24 .a1, .ld .s2 32 .a1, .ld .s3 40 .a1,
    .ld .s4 48 .a1, .ld .s5 56 .a1, .ld .s6 64 .a1, .ld .s7 72 .a1, .ld .s8 80 .a1, .ld .s9 88 .a1,
    .ld .s10 96 .a1, .ld .s11 104 .a1]

/-- The routine `context_switch`. -/
def contextSwitch (old new : Int) (s : Machine) : Machine :=
  (saveCode ++ loadCode ++ [Instr.ret]).foldl (exec old new) s

/-! ## Scheduling -/

/-- `while (next_task != current_task && tasks[next_task].state != TASK_READY)`, with at most `fuel`
tests of the condition. -/
def search (s : Machine) : Nat → Int → Option Int
  | 0, _ => none
  | fuel + 1, nextTask =>
    if nextTask ≠ s.currentTask ∧ (s.tasks nextTask).state ≠ .ready then
      search s fuel ((nextTask + 1).tmod s.numTasks)
    else some nextTask

/-- Update task states, then perform the context switch. -/
def switchTo (s : Machine) (nextTask : Int) : Machine :=
  let oldTask := s.currentTask
  let s := if (s.tasks oldTask).state = .running then s.setState oldTask .ready else s
  let s := s.setState nextTask .running
  contextSwitch oldTask nextTask { s with currentTask := nextTask }

/-- C `schedule`; `none` when the search for the next task does not end within `num_tasks` tests of
its condition. -/
def schedule (s : Machine) : Option Machine :=
  if s.numTasks ≤ 1 then some s
  else
    match search s s.numTasks.toNat ((s.currentTask + 1).tmod s.numTasks) with
    | none => none
    | some nextTask => if nextTask = s.currentTask then some s else some (switchTo s nextTask)

/-- C `task_yield`. -/
def taskYield (s : Machine) : Option Machine := if 1 < s.numTasks then schedule s else some s

/-- C `sched_tick`. -/
def schedTick (s : Machine) : Option Machine := if 1 < s.numTasks then schedule s else some s

/-- The case `SYS_EXIT` of `handle_syscall`. -/
def sysExit (s : Machine) : Option Machine :=
  if 0 ≤ s.currentTask ∧ s.currentTask < maxTasks then
    taskYield (s.setState s.currentTask .unused)
  else some s

/-! ## Creating tasks -/

/-- `&tasks[i].stack[TASK_STACK_SIZE - 1]`: a task is 8 bytes, the context of 112 bytes and the
stack. -/
def stackTop (img : Image) (i : Int) : UInt64 :=
  img.tasks + UInt64.ofNat (i.toNat * (120 + taskStackSize) + 120 + (taskStackSize - 1))

/-- C `create_task`: the returned pid and the new state. -/
def createTask (img : Image) (s : Machine) (entry : UInt64) : Int × Machine :=
  if maxTasks ≤ s.numTasks then (-1, s)
  else
    let context := ⟨entry, stackTop img s.numTasks, 0, 0, 0, 0, 0, 0, 0, 0, 0, 0, 0, 0⟩
    let task := { pid := s.numTasks, state := .ready, context := context }
    (s.numTasks, { s.setTask s.numTasks task with numTasks := s.numTasks + 1 })

/-- The static variables at boot (the `.bss` section is cleared), with any registers. -/
def bootSched (regs : Regs) : Machine where
  tasks := fun _ => ⟨0, .unused, ⟨0, 0, 0, 0, 0, 0, 0, 0, 0, 0, 0, 0, 0, 0⟩⟩
  currentTask := 0
  numTasks := 0
  regs := regs

/-- C `sched_init`. -/
def schedInit (img : Image) (s : Machine) : Machine :=
  let s := { s with tasks := fun i =>
    if 0 ≤ i ∧ i < maxTasks then { s.tasks i with state := .unused, pid := i } else s.tasks i }
  let s := (createTask img s img.idleTask1).2
  let s := (createTask img s img.idleTask2).2
  (createTask img s img.idleTask3).2

end Hydra.Sched
