import Hydra.Kernel.Exit

/-!
# Traps

The trap entry of `kernal/trap_riscv.s` and the trap handler of `kernal/timer.c`, on top of the
scheduler. A trap opens a frame on the stack it finds, and the frame stays open while the handler's
`sched_tick` has switched to another task. So the processor works on one of several flows of
control (`Flow`); each of the others is kept with the context that it was saved to, and goes on from
there when that context is loaded.

The hardware stores the interrupted pc in `mepc` and disables interrupts, keeping the old setting in
`MPIE`; `mret` jumps to `mepc` and restores the setting. Exceptions and system calls are taken in
any case.

The handler can be left in the middle, by the switch, so a trap takes three steps: the handler up to
the end of the branch for its cause (`trapHandler`), the end of the handler, and `mret`. Its own
call of `schedule` is one step, since interrupts are disabled. A task yields with interrupts
enabled, so there `schedule` is executed statement by statement, with traps in between (`advance`);
without them it does what `Sched.schedule` does (`schedule_steps`). The creation of a task, and
whatever else a task does, is one step.

Between `current_task = next_task` and the end of `context_switch` the task that yields is still
running, but no longer the current one. The handler of a trap that comes there saves its flow to the
context of another task, and the context of its own leads back to what was done before. Without such
traps there is never more than one open frame, because interrupts stay disabled until the task that
was interrupted comes back to its `mret`; so `mepc` still holds its pc there (`preempted_resume`).
-/

namespace Hydra.Kernel
open Hydra.Ipc (maxTasks)
open Hydra.Sched (Machine Image Regs SchedOp Inv)

/-! ## The code -/

/-- `CAUSE_TIMER_INTERRUPT`. -/
def causeTimerInterrupt : UInt64 := 0x8000000000000007

/-- `CAUSE_ECALL_FROM_M`. -/
def causeEcallFromM : UInt64 := 0x000000000000000B

/-- The cause is an interrupt, not an exception. -/
def isInterrupt (cause : UInt64) : Bool := cause &&& 0x8000000000000000 ≠ 0

/-- Where the task is that has opened a frame: before the call of the handler, in the handler, or
behind the call. -/
inductive Phase where
  | entered
  | handling
  | leaving
  deriving DecidableEq, Repr

/-- An open frame of `trap_entry`, with the pc that was interrupted. -/
structure TrapFrame where
  cause : UInt64
  pc : UInt64
  phase : Phase
  deriving DecidableEq

/-- Where a call of `schedule` is: at its beginning, at the condition of the search loop, behind the
loop, at the two writes of task states, at the write of `current_task`, or in `context_switch`,
where it saves the old context and loads the new one. -/
inductive Stage where
  | start
  | search
  | found
  | release
  | acquire
  | assign
  | save
  | load
  deriving DecidableEq, Repr

/-- A call of `schedule` with its local variables. -/
structure ScheduleCall where
  oldTask : Int
  nextTask : Int
  stage : Stage
  deriving DecidableEq

/-- What a flow of control has left to do: a call of `schedule` that a task has made, and above it
the open frames, innermost first. -/
structure Flow where
  call : Option ScheduleCall
  frames : List TrapFrame
  deriving DecidableEq

/-- The scheduler, the registers of the trap hardware, the static variables of `trap_handler`,
whether it has halted, the flow that the processor works on, and the flow that each context leads
back to: at first the beginning of the task. -/
structure TrapState where
  machine : Machine
  mepc : UInt64
  mie : Bool
  mpie : Bool
  inTrap : Bool
  trapCount : Int32
  halted : Bool
  flow : Flow
  saved : Int → Flow

namespace TrapState

def setFrames (s : TrapState) (frames : List TrapFrame) : TrapState :=
  { s with flow := { s.flow with frames := frames } }

def setCall (s : TrapState) (call : Option ScheduleCall) : TrapState :=
  { s with flow := { s.flow with call := call } }

/-- The scheduler has come back with this machine. If it has switched, the flow is kept with the
context of the task that was the current one, and that of the new one goes on. -/
def follow (s : TrapState) (machine : Machine) : TrapState :=
  if machine.currentTask = s.machine.currentTask then { s with machine := machine }
  else
    { s with
      machine := machine
      flow := s.saved machine.currentTask
      saved := Function.update s.saved s.machine.currentTask s.flow }

end TrapState

/-- C `trap_handler` before `in_trap` is cleared. The input of the UART is not modelled. -/
def trapHandler (s : TrapState) (cause epc : UInt64) : Option TrapState :=
  if s.inTrap then some { s with mie := false, halted := true }
  else
    let s := { s with inTrap := true, trapCount := s.trapCount + 1 }
    if cause = causeTimerInterrupt then (Sched.schedTick s.machine).map s.follow
    else if cause = causeEcallFromM then
      -- skip the ecall instruction
      some { s with mepc := epc + 4 }
    else if isInterrupt cause ∧ cause &&& 0xFF = 9 then some s
    else if 10 < s.trapCount then some { s with mie := false }
    else some s

namespace TrapState

/-- C `schedule`, one statement. -/
def advance (s : TrapState) (c : ScheduleCall) : TrapState :=
  let m := s.machine
  match c.stage with
  | .start =>
    if m.numTasks ≤ 1 then s.setCall none
    else s.setCall (some ⟨m.currentTask, (m.currentTask + 1).tmod m.numTasks, .search⟩)
  | .search =>
    if c.nextTask ≠ m.currentTask ∧ (m.tasks c.nextTask).state ≠ .ready then
      s.setCall (some { c with nextTask := (c.nextTask + 1).tmod m.numTasks })
    else s.setCall (some { c with stage := .found })
  | .found =>
    if c.nextTask = m.currentTask then s.setCall none
    else s.setCall (some { c with stage := .release })
  | .release =>
    let m := if (m.tasks c.oldTask).state = .running then m.setState c.oldTask .ready else m
    { s with machine := m }.setCall (some { c with stage := .acquire })
  | .acquire =>
    { s with machine := m.setState c.nextTask .running }.setCall (some { c with stage := .assign })
  | .assign =>
    { s with machine := { m with currentTask := c.nextTask } }.setCall
      (some { c with stage := .save })
  | .save =>
    -- when the context is loaded again, the call is over
    { s with
      machine := Sched.saveCode.foldl (Sched.exec c.oldTask c.nextTask) m
      saved := Function.update s.saved c.oldTask { s.flow with call := none } }.setCall
        (some { c with stage := .load })
  | .load =>
    { s with
      machine := (Sched.loadCode ++ [Sched.Instr.ret]).foldl (Sched.exec c.oldTask c.nextTask) m
      flow := s.saved c.nextTask }

/-- What a task does outside of the handler, up to the call of `schedule` if it makes one. -/
def begin (img : Image) (s : TrapState) : SchedOp → TrapState
  | .createTask entry => { s with machine := (Sched.createTask img s.machine entry).2 }
  | .schedule => s.setCall (some ⟨0, 0, .start⟩)
  | .taskYield | .schedTick =>
    if 1 < s.machine.numTasks then s.setCall (some ⟨0, 0, .start⟩) else s
  | .sysExit =>
    let m := s.machine
    if 0 ≤ m.currentTask ∧ m.currentTask < maxTasks then
      { s with machine := m.setState m.currentTask .unused }.setCall (some ⟨0, 0, .start⟩)
    else s
  | .compute regs => { s with machine := { s.machine with regs := regs } }

end TrapState

/-! ## Steps -/

/-- A trap of the hardware, the steps of `trap_entry` and `trap_handler`, what a task does outside
of them, and the next statement of the `schedule` it has called. -/
inductive TrapOp where
  | trap (cause pc : UInt64)
  | handle
  | finish
  | mret
  | sched (op : SchedOp)
  | advance

namespace TrapState

/-- One step; what the machine cannot do in the state is skipped. -/
def step (img : Image) (s : TrapState) (op : TrapOp) : Option TrapState :=
  if s.halted then some s
  else
    match op, s.flow with
    | .trap cause pc, ⟨_, frames⟩ =>
      if isInterrupt cause ∧ s.mie = false then some s
      else
        some { s.setFrames (⟨cause, pc, .entered⟩ :: frames) with
          mepc := pc, mpie := s.mie, mie := false }
    | .handle, ⟨_, ⟨cause, pc, .entered⟩ :: frames⟩ =>
      trapHandler (s.setFrames (⟨cause, pc, .handling⟩ :: frames)) cause s.mepc
    | .finish, ⟨_, ⟨cause, pc, .handling⟩ :: frames⟩ =>
      some { s.setFrames (⟨cause, pc, .leaving⟩ :: frames) with inTrap := false }
    | .mret, ⟨_, ⟨_, _, .leaving⟩ :: frames⟩ =>
      some { s.setFrames frames with mie := s.mpie, mpie := true }
    | .sched op, ⟨none, []⟩ => some (s.begin img op)
    | .advance, ⟨some c, []⟩ => some (s.advance c)
    | _, _ => some s

/-- The boot flow after `sched_init`, `set_trap_vector`, `timer_init` and `enable_interrupts`. -/
def start (img : Image) (regs : Regs) (mepc : UInt64) (mpie : Bool) : TrapState where
  machine := Sched.initial img regs
  mepc := mepc
  mie := true
  mpie := mpie
  inTrap := false
  trapCount := 0
  halted := false
  flow := ⟨none, []⟩
  saved := fun _ => ⟨none, []⟩

/-- The flow that the processor works on is at its `mret`, with this pc interrupted. -/
def AtMret (s : TrapState) (pc : UInt64) : Prop :=
  ∃ cause frames, s.flow.frames = ⟨cause, pc, .leaving⟩ :: frames

/-- What a step can do. -/
inductive Steps (img : Image) (s : TrapState) : TrapOp → Option TrapState → Prop
  | skipped (op) : Steps img s op (some s)
  | trap (cause pc) (hrun : s.halted = false) (h : isInterrupt cause = true → s.mie = true) :
    Steps img s (.trap cause pc)
      (some { s.setFrames (⟨cause, pc, .entered⟩ :: s.flow.frames) with
        mepc := pc, mpie := s.mie, mie := false })
  | handle (cause pc frames) (hrun : s.halted = false)
      (htop : s.flow.frames = ⟨cause, pc, .entered⟩ :: frames) :
    Steps img s .handle (trapHandler (s.setFrames (⟨cause, pc, .handling⟩ :: frames)) cause s.mepc)
  | finish (cause pc frames) (hrun : s.halted = false)
      (htop : s.flow.frames = ⟨cause, pc, .handling⟩ :: frames) :
    Steps img s .finish
      (some { s.setFrames (⟨cause, pc, .leaving⟩ :: frames) with inTrap := false })
  | mret (cause pc frames) (hrun : s.halted = false)
      (htop : s.flow.frames = ⟨cause, pc, .leaving⟩ :: frames) :
    Steps img s .mret (some { s.setFrames frames with mie := s.mpie, mpie := true })
  | sched (op) (hrun : s.halted = false) (hflow : s.flow = ⟨none, []⟩) :
    Steps img s (.sched op) (some (s.begin img op))
  | advance (c) (hrun : s.halted = false) (hflow : s.flow = ⟨some c, []⟩) :
    Steps img s .advance (some (s.advance c))

lemma step_cases (img : Image) (s : TrapState) (op : TrapOp) : Steps img s op (step img s op) := by
  unfold step
  split
  · exact .skipped op
  · next hhalted =>
    have hrun : s.halted = false := by simpa using hhalted
    split
    · next cause pc call frames hflow =>
      split
      · exact .skipped _
      · next hmask =>
        obtain rfl : s.flow.frames = frames := congrArg Flow.frames hflow
        refine .trap _ _ hrun fun hint => ?_
        by_contra hmie
        exact hmask ⟨hint, by simpa using hmie⟩
    · next hflow => exact .handle _ _ _ hrun (congrArg Flow.frames hflow)
    · next hflow => exact .finish _ _ _ hrun (congrArg Flow.frames hflow)
    · next hflow => exact .mret _ _ _ hrun (congrArg Flow.frames hflow)
    · next hflow => exact .sched _ hrun hflow
    · next hflow => exact .advance _ hrun hflow
    · exact .skipped _

end TrapState

/-! ## One statement -/

/-- The instructions of `context_switch` change neither the current task nor the number of tasks. -/
lemma foldl_exec_counters (old new : Int) (code : List Sched.Instr) (m : Machine) :
    (code.foldl (Sched.exec old new) m).currentTask = m.currentTask ∧
      (code.foldl (Sched.exec old new) m).numTasks = m.numTasks := by
  induction code generalizing m with
  | nil => exact ⟨rfl, rfl⟩
  | cons instr code ih =>
    have hexec : (Sched.exec old new m instr).currentTask = m.currentTask ∧
        (Sched.exec old new m instr).numTasks = m.numTasks := by
      cases instr with
      | sd src offset base => exact ⟨rfl, rfl⟩
      | ld dst offset base => exact ⟨rfl, rfl⟩
      | ret => exact ⟨rfl, rfl⟩
    obtain ⟨hcur, hnum⟩ := ih (Sched.exec old new m instr)
    exact ⟨hcur.trans hexec.1, hnum.trans hexec.2⟩

/-- The current task is not the one that is running: the call is between the write of `current_task`
and the end of `context_switch`. -/
def Stage.isSwitching : Stage → Bool
  | .save | .load => true
  | .start | .search | .found | .release | .acquire | .assign => false

/-- The task that a call of `schedule` has found is in the table. -/
def ScheduleCall.InTable (c : ScheduleCall) (numTasks : Int) : Prop :=
  c.stage ≠ .start → 0 ≤ c.nextTask ∧ c.nextTask < numTasks

namespace TrapState

/-- What a statement of `schedule` can do: end the call, go on in front of the write of
`current_task`, make this write, save the old context, or load the new one. -/
inductive Advances (s : TrapState) (c : ScheduleCall) : TrapState → Prop
  | returns (hfrom : c.stage.isSwitching = false) : Advances s c (s.setCall none)
  | goes (machine c') (hcur : machine.currentTask = s.machine.currentTask)
      (hnum : machine.numTasks = s.machine.numTasks) (hfrom : c.stage.isSwitching = false)
      (hto : c'.stage.isSwitching = false)
      (hold : c'.oldTask = if c.stage = .start then s.machine.currentTask else c.oldTask)
      (hnext : 0 ≤ s.machine.currentTask → 0 < s.machine.numTasks →
        c.InTable s.machine.numTasks → c'.InTable s.machine.numTasks) :
    Advances s c ({ s with machine := machine }.setCall (some c'))
  | assign (hstage : c.stage = .assign) :
    Advances s c ({ s with machine := { s.machine with currentTask := c.nextTask } }.setCall
      (some { c with stage := .save }))
  | save (machine) (hcur : machine.currentTask = s.machine.currentTask)
      (hnum : machine.numTasks = s.machine.numTasks) (hstage : c.stage = .save) :
    Advances s c ({ s with
      machine := machine
      saved := Function.update s.saved c.oldTask { s.flow with call := none } }.setCall
        (some { c with stage := .load }))
  | load (machine) (hcur : machine.currentTask = s.machine.currentTask)
      (hnum : machine.numTasks = s.machine.numTasks) (hstage : c.stage = .load) :
    Advances s c { s with machine := machine, flow := s.saved c.nextTask }

lemma advance_cases (s : TrapState) (c : ScheduleCall) : Advances s c (s.advance c) := by
  have hwrap : ∀ i : Int, 0 ≤ i → 0 < s.machine.numTasks →
      0 ≤ (i + 1).tmod s.machine.numTasks ∧
        (i + 1).tmod s.machine.numTasks < s.machine.numTasks := fun i hi hpos =>
    ⟨Int.tmod_nonneg _ (by omega), Int.tmod_lt_of_pos _ hpos⟩
  obtain ⟨old, next, stage⟩ := c
  unfold advance
  cases stage with
  | start =>
    dsimp only
    split
    · exact .returns rfl
    · exact .goes s.machine _ rfl rfl rfl rfl rfl fun h0 hpos _ _ => hwrap _ h0 hpos
  | search =>
    dsimp only
    split
    · exact .goes s.machine _ rfl rfl rfl rfl rfl fun _ hpos h _ => hwrap _ (h nofun).1 hpos
    · exact .goes s.machine _ rfl rfl rfl rfl rfl fun _ _ h _ => h nofun
  | found =>
    dsimp only
    split
    · exact .returns rfl
    · exact .goes s.machine _ rfl rfl rfl rfl rfl fun _ _ h _ => h nofun
  | release =>
    dsimp only
    split
    · exact .goes (s.machine.setState old .ready) _ rfl rfl rfl rfl rfl fun _ _ h _ => h nofun
    · exact .goes s.machine _ rfl rfl rfl rfl rfl fun _ _ h _ => h nofun
  | acquire =>
    exact .goes (s.machine.setState next .running) _ rfl rfl rfl rfl rfl fun _ _ h _ => h nofun
  | assign => exact .assign rfl
  | save =>
    obtain ⟨hcur, hnum⟩ := foldl_exec_counters old next Sched.saveCode s.machine
    exact .save _ hcur hnum rfl
  | load =>
    obtain ⟨hcur, hnum⟩ :=
      foldl_exec_counters old next (Sched.loadCode ++ [Sched.Instr.ret]) s.machine
    exact .load _ hcur hnum rfl

/-- What a task does outside of the handler may create a task and may begin a call of `schedule`. -/
lemma begin_cases (img : Image) (s : TrapState) (op : SchedOp) : ∃ machine call,
    s.begin img op = { s with machine := machine }.setCall call ∧
      machine.currentTask = s.machine.currentTask ∧ s.machine.numTasks ≤ machine.numTasks ∧
      (call = s.flow.call ∨ call = some ⟨0, 0, .start⟩) := by
  have hyield : ∃ call, (if 1 < s.machine.numTasks then s.setCall (some ⟨0, 0, .start⟩) else s) =
      s.setCall call ∧ (call = s.flow.call ∨ call = some ⟨0, 0, .start⟩) := by
    split
    · exact ⟨_, rfl, .inr rfl⟩
    · exact ⟨s.flow.call, rfl, .inl rfl⟩
  cases op with
  | createTask entry =>
    have hstays := Sched.createTask_stays img s.machine entry
    exact ⟨_, s.flow.call, rfl, hstays.current, hstays.grows, .inl rfl⟩
  | schedule => exact ⟨s.machine, _, rfl, rfl, le_rfl, .inr rfl⟩
  | taskYield =>
    obtain ⟨call, e, hcall⟩ := hyield
    exact ⟨s.machine, call, e, rfl, le_rfl, hcall⟩
  | schedTick =>
    obtain ⟨call, e, hcall⟩ := hyield
    exact ⟨s.machine, call, e, rfl, le_rfl, hcall⟩
  | sysExit =>
    unfold TrapState.begin
    dsimp only
    split
    · exact ⟨_, _, rfl, rfl, le_rfl, .inr rfl⟩
    · exact ⟨s.machine, s.flow.call, rfl, rfl, le_rfl, .inl rfl⟩
  | compute regs => exact ⟨_, s.flow.call, rfl, rfl, le_rfl, .inl rfl⟩

end TrapState

/-- What the handler can do: halt if it is already active, and otherwise become active; the branch
for the timer schedules, the others leave the scheduler alone. -/
inductive Handles (s : TrapState) (cause : UInt64) : Option TrapState → Prop
  | halts (hin : s.inTrap = true) : Handles s cause (some { s with mie := false, halted := true })
  | timer (hin : s.inTrap = false) (hcause : cause = causeTimerInterrupt) :
    Handles s cause ((Sched.schedule s.machine).map
      { s with inTrap := true, trapCount := s.trapCount + 1 }.follow)
  | other (mepc mie) (hin : s.inTrap = false) (hcause : cause ≠ causeTimerInterrupt) :
    Handles s cause (some { s with
      mepc := mepc, mie := mie, inTrap := true, trapCount := s.trapCount + 1 })

lemma trapHandler_cases (s : TrapState) (cause epc : UInt64) :
    Handles s cause (trapHandler s cause epc) := by
  unfold trapHandler
  split
  · next hin => exact .halts hin
  · next hin =>
    have hfree : s.inTrap = false := by simpa using hin
    dsimp only
    split
    · next htimer =>
      rw [Sched.schedTick_eq]
      exact .timer hfree htimer
    · next hother =>
      split
      · exact .other _ s.mie hfree hother
      · split
        · exact .other s.mepc s.mie hfree hother
        · split
          · exact .other s.mepc false hfree hother
          · exact .other s.mepc s.mie hfree hother

/-! ## The task table -/

def Flow.InTable (f : Flow) (numTasks : Int) : Prop :=
  ∀ c, f.call = some c → c.InTable numTasks

lemma Flow.InTable.mono {f : Flow} {n n' : Int} (h : f.InTable n) (hle : n ≤ n') : f.InTable n' :=
  fun c hc hs => ⟨(h c hc hs).1, (h c hc hs).2.trans_le hle⟩

lemma Flow.inTable_none (frames : List TrapFrame) (n : Int) : Flow.InTable ⟨none, frames⟩ n := nofun

lemma Flow.inTable_some {c : ScheduleCall} {n : Int} (h : c.InTable n) (frames : List TrapFrame) :
    Flow.InTable ⟨some c, frames⟩ n := by
  intro d hd
  obtain rfl := Option.some.inj hd
  exact h

namespace TrapState

/-- The current task and those that calls of `schedule` have found are in the table. -/
structure InTable (s : TrapState) : Prop where
  nonneg : 0 ≤ s.machine.currentTask
  lt : s.machine.currentTask < s.machine.numTasks
  flow : s.flow.InTable s.machine.numTasks
  saved : ∀ t, (s.saved t).InTable s.machine.numTasks

section InTable

variable {s s' : TrapState}

/-- The frames, the registers and the variables of the handler have no part in it. -/
lemma InTable.congr (h : InTable s) (hmachine : s'.machine = s.machine)
    (hcall : s'.flow.call = s.flow.call) (hsaved : s'.saved = s.saved) : InTable s' := by
  refine ⟨hmachine ▸ h.nonneg, hmachine ▸ h.lt, fun c hc => ?_, fun t => ?_⟩
  · rw [hmachine]
    exact h.flow c (hcall ▸ hc)
  · rw [hmachine, hsaved]
    exact h.saved t

/-- The flow goes on elsewhere, and there may be more tasks. -/
lemma InTable.setFlow (h : InTable s) {machine : Machine}
    (hcur : machine.currentTask = s.machine.currentTask)
    (hnum : s.machine.numTasks ≤ machine.numTasks) {flow : Flow}
    (hflow : flow.InTable machine.numTasks) :
    InTable { s with machine := machine, flow := flow } where
  nonneg := by
    show 0 ≤ machine.currentTask
    exact hcur ▸ h.nonneg
  lt := by
    have hlt := h.lt
    show machine.currentTask < machine.numTasks
    omega
  flow := hflow
  saved := fun t => (h.saved t).mono hnum

/-- A task is left, and its flow is kept. -/
lemma InTable.setSaved (h : InTable s) (t : Int) {flow : Flow}
    (hflow : flow.InTable s.machine.numTasks) :
    InTable { s with saved := Function.update s.saved t flow } := by
  refine ⟨h.nonneg, h.lt, h.flow, fun u => ?_⟩
  show (Function.update s.saved t flow u).InTable _
  rw [Function.update_apply]
  split
  · exact hflow
  · exact h.saved u

lemma InTable.schedules (h : InTable s) : ∃ machine, Sched.schedule s.machine = some machine := by
  rcases schedule_ready h.nonneg h.lt with ⟨_, t, _, _, _, _, e⟩ | ⟨_, e⟩
  · exact ⟨_, e⟩
  · exact ⟨_, e⟩

/-- A switch enters a task of the table. -/
lemma InTable.follow (h : InTable s) {machine : Machine}
    (e : Sched.schedule s.machine = some machine) : InTable (s.follow machine) := by
  rcases schedule_ready h.nonneg h.lt with ⟨_, t, hne, _, hlt, h0, e'⟩ | ⟨_, e'⟩
  · obtain rfl := Option.some.inj (e'.symm.trans e)
    have hcur := Sched.switchTo_currentTask s.machine hne
    have hnum := Sched.switchTo_numTasks s.machine hne
    have hleft := h.setSaved s.machine.currentTask h.flow
    unfold TrapState.follow
    rw [if_neg (by rw [hcur]; exact hne)]
    refine ⟨hcur ▸ h0, ?_, ?_, fun u => (hleft.saved u).mono hnum.ge⟩
    · show (Sched.switchTo s.machine t).currentTask < (Sched.switchTo s.machine t).numTasks
      rw [hcur, hnum]
      exact hlt
    · exact (h.saved _).mono hnum.ge
  · obtain rfl := Option.some.inj (e'.symm.trans e)
    unfold TrapState.follow
    rw [if_pos rfl]
    exact h

/-- A statement of `schedule` keeps to the table. -/
lemma InTable.advance (h : InTable s) {c : ScheduleCall} (hflow : s.flow = ⟨some c, []⟩) :
    InTable (s.advance c) := by
  have hcall : c.InTable s.machine.numTasks := h.flow c (by rw [hflow])
  have hadvance := advance_cases s c
  generalize s.advance c = s' at hadvance ⊢
  cases hadvance with
  | returns hfrom => exact h.setFlow rfl le_rfl (Flow.inTable_none _ _)
  | goes machine c' hcur hnum _ _ _ hnext =>
    have hpos : 0 < s.machine.numTasks := h.nonneg.trans_lt h.lt
    refine h.setFlow hcur hnum.ge (Flow.inTable_some ?_ _)
    rw [hnum]
    exact hnext h.nonneg hpos hcall
  | assign hstage =>
    have hin := hcall (by rw [hstage]; nofun)
    refine ⟨hin.1, hin.2, ?_, h.saved⟩
    exact Flow.inTable_some (c := { c with stage := .save }) (fun _ => hin) s.flow.frames
  | save machine hcur hnum hstage =>
    have hin := hcall (by rw [hstage]; nofun)
    refine (h.setSaved c.oldTask (Flow.inTable_none s.flow.frames _)).setFlow hcur hnum.ge
      (Flow.inTable_some (fun _ => ?_) _)
    rw [hnum]
    exact hin
  | load machine hcur hnum hstage => exact h.setFlow hcur hnum.ge ((h.saved _).mono hnum.ge)

/-- What a task does outside of the handler keeps to the table. -/
lemma InTable.begin (h : InTable s) (img : Image) (op : SchedOp) : InTable (s.begin img op) := by
  obtain ⟨machine, call, e, hcur, hnum, hcall⟩ := begin_cases img s op
  rw [e]
  refine h.setFlow hcur hnum ?_
  rcases hcall with rfl | rfl
  · exact h.flow.mono hnum
  · exact Flow.inTable_some (fun hno => absurd rfl hno) s.flow.frames

/-- The handler ends, and keeps to the table. -/
lemma InTable.handle (h : InTable s) (cause epc : UInt64) :
    ∃ s', trapHandler s cause epc = some s' ∧ InTable s' := by
  have hhandler := trapHandler_cases s cause epc
  generalize trapHandler s cause epc = r at hhandler ⊢
  cases hhandler with
  | halts hin => exact ⟨_, rfl, h.congr rfl rfl rfl⟩
  | timer hin hcause =>
    have hentered : InTable { s with inTrap := true, trapCount := s.trapCount + 1 } :=
      h.congr rfl rfl rfl
    obtain ⟨machine, e⟩ := h.schedules
    exact ⟨_, by rw [e, Option.map_some], hentered.follow e⟩
  | other mepc mie hin hcause => exact ⟨_, rfl, h.congr rfl rfl rfl⟩

/-- Every step ends, and keeps to the table. -/
lemma inTable_step (img : Image) (h : InTable s) (op : TrapOp) :
    ∃ s', step img s op = some s' ∧ InTable s' := by
  have hstep := step_cases img s op
  generalize step img s op = r at hstep ⊢
  cases hstep with
  | skipped op => exact ⟨s, rfl, h⟩
  | trap cause pc hrun hmie => exact ⟨_, rfl, h.congr rfl rfl rfl⟩
  | handle cause pc frames hrun htop =>
    have hframes : InTable (s.setFrames (⟨cause, pc, .handling⟩ :: frames)) := h.congr rfl rfl rfl
    exact hframes.handle cause s.mepc
  | finish cause pc frames hrun htop => exact ⟨_, rfl, h.congr rfl rfl rfl⟩
  | mret cause pc frames hrun htop => exact ⟨_, rfl, h.congr rfl rfl rfl⟩
  | sched op hrun hflow => exact ⟨_, rfl, h.begin img op⟩
  | advance c hrun hflow => exact ⟨_, rfl, h.advance hflow⟩

end InTable

lemma start_inTable (img : Image) (regs : Regs) (mepc : UInt64) (mpie : Bool) :
    InTable (start img regs mepc mpie) :=
  have hinv := Sched.initial_inv img regs
  ⟨hinv.current_nonneg, hinv.current_lt, Flow.inTable_none _ _, fun _ => Flow.inTable_none _ _⟩

end TrapState

/-! ## Without traps -/

namespace TrapState

/-- The task is at this statement of `schedule`. -/
def inCall (s : TrapState) (machine : Machine) (c : ScheduleCall) : TrapState :=
  { s with machine := machine, flow := ⟨some c, []⟩ }

variable {s : TrapState}

lemma run_inCall (img : Image) (hrun : s.halted = false) (machine : Machine) (c : ScheduleCall)
    (n : Nat) :
    Run.run (step img) (s.inCall machine c) (List.replicate (n + 1) .advance) =
      Run.run (step img) ((s.inCall machine c).advance c) (List.replicate n .advance) := by
  have hstep : step img (s.inCall machine c) .advance = some ((s.inCall machine c).advance c) := by
    unfold step inCall
    rw [hrun]
    rfl
  exact Run.run_cons hstep

lemma setCall_eq (hframes : s.flow.frames = []) (call : Option ScheduleCall) :
    s.setCall call = { s with flow := ⟨call, []⟩ } := by
  rw [← hframes]
  rfl

/-- The search loop, one test of its condition after the other. -/
lemma search_steps (img : Image) (hrun : s.halted = false) {machine : Machine} {i nextTask : Int}
    {fuel : Nat} (hsearch : Sched.search machine fuel i = some nextTask) (old : Int) :
    ∃ n, ∀ k, Run.run (step img) (s.inCall machine ⟨old, i, .search⟩)
        (List.replicate (n + k) .advance) =
      Run.run (step img) (s.inCall machine ⟨old, nextTask, .found⟩)
        (List.replicate k .advance) := by
  induction fuel generalizing i with
  | zero => cases hsearch
  | succ fuel ih =>
    unfold Sched.search at hsearch
    split at hsearch
    · next htest =>
      have hgoes : (s.inCall machine ⟨old, i, .search⟩).advance ⟨old, i, .search⟩ =
          s.inCall machine ⟨old, (i + 1).tmod machine.numTasks, .search⟩ := if_pos htest
      obtain ⟨n, hn⟩ := ih hsearch
      refine ⟨n + 1, fun k => ?_⟩
      rw [Nat.add_right_comm, run_inCall img hrun, hgoes, hn]
    · next htest =>
      obtain rfl := Option.some.inj hsearch
      have hgoes : (s.inCall machine ⟨old, i, .search⟩).advance ⟨old, i, .search⟩ =
          s.inCall machine ⟨old, i, .found⟩ := if_neg htest
      refine ⟨1, fun k => ?_⟩
      rw [Nat.add_comm, run_inCall img hrun, hgoes]

/-- Behind the loop six statements do the switch. -/
lemma switch_steps (img : Image) (hrun : s.halted = false) (hframes : s.flow.frames = [])
    {nextTask : Int} (hne : nextTask ≠ s.machine.currentTask) :
    Run.run (step img) (s.inCall s.machine ⟨s.machine.currentTask, nextTask, .found⟩)
        (List.replicate 6 .advance) =
      some ((s.setCall none).follow (Sched.switchTo s.machine nextTask)) := by
  have hcur := Sched.switchTo_currentTask s.machine hne
  let old := s.machine.currentTask
  let m₁ := if (s.machine.tasks old).state = .running then s.machine.setState old .ready
    else s.machine
  let m₂ := m₁.setState nextTask .running
  let m₃ := { m₂ with currentTask := nextTask }
  let m₄ := Sched.saveCode.foldl (Sched.exec old nextTask) m₃
  let s₄ := { s with saved := Function.update s.saved old ⟨none, []⟩ }
  have hfound : (s.inCall s.machine ⟨old, nextTask, .found⟩).advance ⟨old, nextTask, .found⟩ =
      s.inCall s.machine ⟨old, nextTask, .release⟩ := if_neg hne
  have hrelease : (s.inCall s.machine ⟨old, nextTask, .release⟩).advance ⟨old, nextTask, .release⟩ =
      s.inCall m₁ ⟨old, nextTask, .acquire⟩ := rfl
  have hacquire : (s.inCall m₁ ⟨old, nextTask, .acquire⟩).advance ⟨old, nextTask, .acquire⟩ =
      s.inCall m₂ ⟨old, nextTask, .assign⟩ := rfl
  have hassign : (s.inCall m₂ ⟨old, nextTask, .assign⟩).advance ⟨old, nextTask, .assign⟩ =
      s.inCall m₃ ⟨old, nextTask, .save⟩ := rfl
  have hsave : (s.inCall m₃ ⟨old, nextTask, .save⟩).advance ⟨old, nextTask, .save⟩ =
      s₄.inCall m₄ ⟨old, nextTask, .load⟩ := rfl
  have hload : (s₄.inCall m₄ ⟨old, nextTask, .load⟩).advance ⟨old, nextTask, .load⟩ =
      { s₄ with machine := Sched.switchTo s.machine nextTask, flow := s.saved nextTask } := by
    have hcode : Sched.switchTo s.machine nextTask =
        (Sched.loadCode ++ [Sched.Instr.ret]).foldl (Sched.exec old nextTask) m₄ := by
      rw [Sched.switchTo, Sched.contextSwitch, List.append_assoc, List.foldl_append]
    have hsaved : s₄.saved nextTask = s.saved nextTask := Function.update_of_ne hne _ _
    rw [hcode, ← hsaved]
    rfl
  have hrun₄ : s₄.halted = false := hrun
  rw [run_inCall img hrun, hfound, run_inCall img hrun, hrelease, run_inCall img hrun, hacquire,
    run_inCall img hrun, hassign, run_inCall img hrun, hsave, run_inCall img hrun₄, hload,
    setCall_eq hframes, follow, if_neg (by rw [hcur]; exact hne), hcur]
  rfl

/-- The statements of a call of `schedule` that is not interrupted come to `Sched.schedule`. -/
theorem schedule_steps (img : Image) (h : InTable s) (hrun : s.halted = false) {old nextTask : Int}
    (hflow : s.flow = ⟨some ⟨old, nextTask, .start⟩, []⟩) :
    ∃ n machine, Sched.schedule s.machine = some machine ∧
      Run.run (step img) s (List.replicate n .advance) =
        some ((s.setCall none).follow machine) := by
  have hframes : s.flow.frames = [] := by rw [hflow]
  have hs : s = s.inCall s.machine ⟨old, nextTask, .start⟩ := by rw [inCall, ← hflow]
  have hstays : (s.setCall none).follow s.machine = s.setCall none := if_pos rfl
  obtain ⟨machine, e⟩ := h.schedules
  have hschedule := e
  unfold Sched.schedule at hschedule
  split at hschedule
  · next hone =>
    obtain rfl := Option.some.inj hschedule
    have hreturns : (s.inCall s.machine ⟨old, nextTask, .start⟩).advance ⟨old, nextTask, .start⟩ =
        s.setCall none := by
      rw [setCall_eq hframes]
      exact if_pos hone
    refine ⟨1, s.machine, e, ?_⟩
    rw [hs, run_inCall img hrun, hreturns, ← hs, hstays]
    rfl
  · next hone =>
    have hfirst : (s.inCall s.machine ⟨old, nextTask, .start⟩).advance ⟨old, nextTask, .start⟩ =
        s.inCall s.machine ⟨s.machine.currentTask,
          (s.machine.currentTask + 1).tmod s.machine.numTasks, .search⟩ := if_neg hone
    split at hschedule
    · cases hschedule
    · next found hsearch =>
      obtain ⟨n, hn⟩ := search_steps (s := s) img hrun hsearch s.machine.currentTask
      split at hschedule
      · next hcur =>
        obtain rfl := Option.some.inj hschedule
        have hreturns : (s.inCall s.machine ⟨s.machine.currentTask, found, .found⟩).advance
            ⟨s.machine.currentTask, found, .found⟩ = s.setCall none := by
          rw [setCall_eq hframes]
          exact if_pos hcur
        refine ⟨n + 1 + 1, s.machine, e, ?_⟩
        rw [hs, run_inCall img hrun, hfirst, hn, run_inCall img hrun, hreturns, ← hs, hstays]
        rfl
      · next hne =>
        obtain rfl := Option.some.inj hschedule
        refine ⟨n + 6 + 1, _, e, ?_⟩
        rw [hs, run_inCall img hrun, hfirst, hn, switch_steps img hrun hframes hne, ← hs]

end TrapState

/-! ## Preemption -/

/-- A timer trap, a step of its handling, or what a task does outside of it. -/
def TrapOp.Preemptive : TrapOp → Prop
  | .trap cause _ => cause = causeTimerInterrupt
  | .handle | .finish | .mret | .sched _ | .advance => True

instance : DecidablePred TrapOp.Preemptive
  | .trap cause _ => inferInstanceAs (Decidable (cause = causeTimerInterrupt))
  | .handle | .finish | .mret | .sched _ | .advance => isTrue trivial

/-- The call of `schedule` is between the write of `current_task` and the end of
`context_switch`. -/
def Flow.isSwitching (f : Flow) : Bool := f.call.any (·.stage.isSwitching)

/-- The step does not interrupt a task that is switching. -/
def TrapState.SwitchAlone (s : TrapState) : TrapOp → Prop
  | .trap _ _ => s.mie = true → s.flow.isSwitching = false
  | .handle | .finish | .mret | .sched _ | .advance => True

instance (s : TrapState) : DecidablePred s.SwitchAlone
  | .trap _ _ => inferInstanceAs (Decidable (s.mie = true → s.flow.isSwitching = false))
  | .handle | .finish | .mret | .sched _ | .advance => isTrue trivial

/-- A flow of the task `t`: what it has left, it saves to the context of `t`. -/
def Flow.Of (f : Flow) (t : Int) : Prop :=
  ∀ c, f.call = some c → c.stage ≠ .start → c.oldTask = t

lemma Flow.of_none (frames : List TrapFrame) (t : Int) : Flow.Of ⟨none, frames⟩ t := nofun

lemma Flow.of_some {c : ScheduleCall} {t : Int} (h : c.stage ≠ .start → c.oldTask = t)
    (frames : List TrapFrame) : Flow.Of ⟨some c, frames⟩ t := by
  intro d hd
  obtain rfl := Option.some.inj hd
  exact h

lemma Flow.isSwitching_eq {f : Flow} {c : ScheduleCall} (h : f.call = some c) :
    f.isSwitching = c.stage.isSwitching := by
  rw [Flow.isSwitching, h]
  rfl

namespace TrapState

/-- The processor works on the flow of the task `t`, which is the current one unless it is switching
to another, and every other context leads back to the flow of its own task. -/
structure Runs (s : TrapState) (t : Int) : Prop where
  flow : s.flow.Of t
  saved : ∀ u, u ≠ t → (s.saved u).Of u ∧ (s.saved u).isSwitching = false
  current : s.flow.isSwitching = false → s.machine.currentTask = t
  next : ∀ c, s.flow.call = some c → c.stage.isSwitching = true →
    s.flow.frames = [] ∧ s.machine.currentTask = c.nextTask
  left : ∀ c, s.flow.call = some c → c.stage = .load → s.saved t = ⟨none, []⟩

/-- The registers of the trap hardware and the variables of the handler stay as they are. -/
structure SameTraps (s s' : TrapState) : Prop where
  mepc : s'.mepc = s.mepc
  mie : s'.mie = s.mie
  mpie : s'.mpie = s.mpie
  inTrap : s'.inTrap = s.inTrap
  halted : s'.halted = s.halted

lemma follow_same (s : TrapState) (machine : Machine) : SameTraps s (s.follow machine) := by
  unfold follow
  split
  · exact ⟨rfl, rfl, rfl, rfl, rfl⟩
  · exact ⟨rfl, rfl, rfl, rfl, rfl⟩

lemma begin_same (img : Image) (s : TrapState) (op : SchedOp) : SameTraps s (s.begin img op) := by
  obtain ⟨machine, call, e, _⟩ := begin_cases img s op
  rw [e]
  exact ⟨rfl, rfl, rfl, rfl, rfl⟩

lemma advance_same (s : TrapState) (c : ScheduleCall) : SameTraps s (s.advance c) := by
  have hadvance := advance_cases s c
  generalize s.advance c = s' at hadvance ⊢
  cases hadvance with
  | returns => exact ⟨rfl, rfl, rfl, rfl, rfl⟩
  | goes => exact ⟨rfl, rfl, rfl, rfl, rfl⟩
  | assign => exact ⟨rfl, rfl, rfl, rfl, rfl⟩
  | save => exact ⟨rfl, rfl, rfl, rfl, rfl⟩
  | load => exact ⟨rfl, rfl, rfl, rfl, rfl⟩

lemma follow_stays (s : TrapState) {machine : Machine}
    (h : machine.currentTask = s.machine.currentTask) :
    (s.follow machine).flow = s.flow ∧ (s.follow machine).saved = s.saved := by
  unfold follow
  rw [if_pos h]
  exact ⟨rfl, rfl⟩

lemma follow_switches (s : TrapState) {machine : Machine}
    (h : machine.currentTask ≠ s.machine.currentTask) :
    (s.follow machine).flow = s.saved machine.currentTask := by
  unfold follow
  rw [if_neg h]

/-- The open frames of a task, while the flow of the task `t` is going on. -/
def framesOf (s : TrapState) (t u : Int) : List TrapFrame :=
  if u = t then s.flow.frames else (s.saved u).frames

section Runs

variable {s : TrapState} {t : Int}

/-- A task that is not switching runs if it is the current one. -/
lemma Runs.of_current (hof : s.flow.Of t)
    (hsaved : ∀ u, u ≠ t → (s.saved u).Of u ∧ (s.saved u).isSwitching = false)
    (hno : s.flow.isSwitching = false) (hcur : s.machine.currentTask = t) : Runs s t := by
  refine ⟨hof, hsaved, fun _ => hcur, fun c hc hs => ?_, fun c hc hs => ?_⟩
  · rw [Flow.isSwitching_eq hc, hs] at hno
    cases hno
  · rw [Flow.isSwitching_eq hc, hs] at hno
    cases hno

/-- A task with an open frame was not interrupted while it was switching. -/
lemma Runs.not_switching (h : Runs s t) {f : TrapFrame} {frames : List TrapFrame}
    (htop : s.flow.frames = f :: frames) : s.flow.isSwitching = false := by
  cases hcall : s.flow.call with
  | none =>
    rw [Flow.isSwitching, hcall]
    rfl
  | some c =>
    by_contra hno
    have hswitching : c.stage.isSwitching = true := by
      rw [← Flow.isSwitching_eq hcall]
      simpa using hno
    rw [(h.next c hcall hswitching).1] at htop
    cases htop

/-- Behind a switch of the handler the flow of the task that was entered goes on. -/
lemma Runs.follow (h : Runs s t) (hno : s.flow.isSwitching = false) (machine : Machine) :
    Runs (s.follow machine) machine.currentTask := by
  obtain rfl := h.current hno
  unfold TrapState.follow
  split
  · next hsame => exact .of_current (hsame ▸ h.flow) (hsame ▸ h.saved) hno rfl
  · next hne =>
    obtain ⟨hof, hno'⟩ := h.saved machine.currentTask hne
    refine .of_current hof (fun u hu => ?_) hno' rfl
    dsimp only
    rw [Function.update_apply]
    split
    · next heq => exact ⟨heq ▸ h.flow, hno⟩
    · next hother => exact h.saved u hother

/-- The switch of the handler keeps all frames. -/
lemma framesOf_follow (s : TrapState) (machine : Machine) :
    (s.follow machine).framesOf machine.currentTask = s.framesOf s.machine.currentTask := by
  unfold TrapState.follow
  split
  · next hsame => rw [hsame]; rfl
  · next hne =>
    funext u
    unfold framesOf
    dsimp only
    rw [Function.update_apply]
    by_cases hnew : u = machine.currentTask
    · subst hnew
      rw [if_pos rfl, if_neg hne]
    · rw [if_neg hnew]
      split
      · rfl
      · rfl

/-- A statement of `schedule` is one of a task that runs, or the last one of it, and lets another
task run. It keeps all frames. -/
lemma Runs.advance (h : Runs s t) {c : ScheduleCall} (hflow : s.flow = ⟨some c, []⟩) :
    ∃ u, Runs (s.advance c) u ∧ (s.advance c).framesOf u = s.framesOf t := by
  have hcall : s.flow.call = some c := by rw [hflow]
  have hadvance := advance_cases s c
  generalize s.advance c = s' at hadvance ⊢
  cases hadvance with
  | returns hfrom =>
    have hno : s.flow.isSwitching = false := (Flow.isSwitching_eq hcall).trans hfrom
    exact ⟨t, .of_current (Flow.of_none s.flow.frames t) h.saved rfl (h.current hno), rfl⟩
  | goes machine c' hcur hnum hfrom hto hold hnext =>
    have hno : s.flow.isSwitching = false := (Flow.isSwitching_eq hcall).trans hfrom
    have hof : c'.stage ≠ .start → c'.oldTask = t := fun _ => by
      rw [hold]
      split
      · exact h.current hno
      · next hstage => exact h.flow c hcall hstage
    exact ⟨t, .of_current (Flow.of_some hof s.flow.frames) h.saved hto (hcur.trans (h.current hno)),
      rfl⟩
  | assign hstage =>
    have hold : c.oldTask = t := h.flow c hcall (by rw [hstage]; nofun)
    refine ⟨t, ⟨Flow.of_some (c := { c with stage := .save }) (fun _ => hold) s.flow.frames,
      h.saved, nofun, fun d hd _ => ?_, fun d hd hs => ?_⟩, rfl⟩
    · obtain rfl := Option.some.inj hd
      exact ⟨congrArg Flow.frames hflow, rfl⟩
    · obtain rfl := Option.some.inj hd
      cases hs
  | save machine hcur hnum hstage =>
    obtain rfl : c.oldTask = t := h.flow c hcall (by rw [hstage]; nofun)
    obtain ⟨hframes, hnext⟩ := h.next c hcall (by rw [hstage]; rfl)
    refine ⟨c.oldTask, ⟨Flow.of_some (c := { c with stage := .load }) (fun _ => rfl) s.flow.frames,
      fun u hu => ?_, nofun, fun d hd _ => ?_, fun d hd hs => ?_⟩, ?_⟩
    · show (Function.update s.saved _ _ u).Of u ∧
        (Function.update s.saved _ _ u).isSwitching = false
      rw [Function.update_of_ne hu]
      exact h.saved u hu
    · obtain rfl := Option.some.inj hd
      exact ⟨hframes, hcur.trans hnext⟩
    · show Function.update s.saved _ _ c.oldTask = _
      rw [Function.update_self, hframes]
    · funext u
      show (if u = c.oldTask then s.flow.frames else (Function.update s.saved _ _ u).frames) =
        if u = c.oldTask then s.flow.frames else (s.saved u).frames
      split
      · rfl
      · next hu => rw [Function.update_of_ne hu]
  | load machine hcur hnum hstage =>
    obtain ⟨hframes, hnext⟩ := h.next c hcall (by rw [hstage]; rfl)
    have hleft := h.left c hcall hstage
    have hsaved : ∀ u, (s.saved u).Of u ∧ (s.saved u).isSwitching = false := fun u => by
      by_cases hu : u = t
      · rw [hu, hleft]
        exact ⟨Flow.of_none [] t, rfl⟩
      · exact h.saved u hu
    obtain ⟨hof, hno⟩ := hsaved c.nextTask
    refine ⟨c.nextTask, .of_current hof (fun u _ => hsaved u) hno (hcur.trans hnext), ?_⟩
    funext u
    show (if u = c.nextTask then (s.saved c.nextTask).frames else (s.saved u).frames) =
      if u = t then s.flow.frames else (s.saved u).frames
    -- the task that was left has no frame
    have hsame : (s.saved t).frames = s.flow.frames := by rw [hleft, hframes]
    split
    · next hu =>
      subst hu
      split
      · next hu => rw [hu, hsame]
      · rfl
    · split
      · next hu => rw [hu, hsame]
      · rfl

/-- What a task does outside of the handler is no matter to its frames. -/
lemma Runs.begin (h : Runs s t) (hflow : s.flow = ⟨none, []⟩) (img : Image) (op : SchedOp) :
    Runs (s.begin img op) t ∧ (s.begin img op).framesOf t = s.framesOf t := by
  have hno : s.flow.isSwitching = false := by rw [hflow]; rfl
  obtain ⟨machine, call, e, hcur, _, hcall⟩ := begin_cases img s op
  rw [e]
  refine ⟨?_, rfl⟩
  rcases hcall with rfl | rfl
  · exact .of_current h.flow h.saved hno (hcur.trans (h.current hno))
  · exact .of_current (Flow.of_some (fun hne => absurd rfl hne) s.flow.frames) h.saved rfl
      (hcur.trans (h.current hno))

end Runs

/-- No frame is open. -/
structure Quiet (s : TrapState) (t : Int) : Prop where
  frames : ∀ u, s.framesOf t u = []
  mie : s.mie = true
  inTrap : s.inTrap = false

/-- The task `u` was interrupted, and no frame but its one is open: interrupts are disabled until it
is at its `mret`. It may have been left in the handler only. -/
structure Open (s : TrapState) (t u : Int) (f : TrapFrame) : Prop where
  frame : s.framesOf t u = [f]
  others : ∀ v, v ≠ u → s.framesOf t v = []
  cause : f.cause = causeTimerInterrupt
  mepc : s.mepc = f.pc
  mie : s.mie = false
  mpie : s.mpie = true
  here : f.phase ≠ .handling → t = u
  inTrap : s.inTrap = true ↔ f.phase = .handling

/-- At most one frame is open. -/
structure PreemptInv (s : TrapState) : Prop where
  table : InTable s
  running : s.halted = false
  frames : ∃ t, Runs s t ∧ (Quiet s t ∨ ∃ u f, Open s t u f)

section Open

variable {s s' : TrapState} {t t' u : Int} {f : TrapFrame}

lemma framesOf_self (s : TrapState) (t : Int) : s.framesOf t t = s.flow.frames := if_pos rfl

/-- The running task gets other frames, all other tasks keep theirs. -/
lemma framesOf_other {frames : List TrapFrame} (h : s.framesOf t u = frames)
    (hsaved : s'.saved = s.saved) (hu : u ≠ t) : s'.framesOf t u = frames := by
  unfold framesOf at h ⊢
  rw [if_neg hu] at h ⊢
  rw [hsaved, h]

/-- The frame that the running task has open is the one that is open. -/
lemma Open.eq_of_top (h : Open s t u f) {g : TrapFrame} {frames : List TrapFrame}
    (htop : s.flow.frames = g :: frames) : t = u ∧ f = g ∧ frames = [] := by
  rw [← framesOf_self s t] at htop
  by_cases hcur : t = u
  · subst hcur
    rw [h.frame] at htop
    obtain ⟨hf, hrest⟩ := List.cons.inj htop
    exact ⟨rfl, hf, hrest.symm⟩
  · rw [h.others _ hcur] at htop
    cases htop

/-- Outside of the handler steps keep the frames. -/
lemma Quiet.moves (h : Quiet s t) (hframes : s'.framesOf t' = s.framesOf t)
    (hsame : SameTraps s s') : Quiet s' t' :=
  ⟨fun u => by rw [hframes, h.frames], hsame.mie.trans h.mie, hsame.inTrap.trans h.inTrap⟩

/-- What a task does outside of the handler is no matter to the task that was left in it. -/
lemma Open.moves (h : Open s t u f) (htop : s.flow.frames = [])
    (hframes : s'.framesOf t' = s.framesOf t) (hsame : SameTraps s s') : Open s' t' u f where
  frame := by rw [hframes, h.frame]
  others := fun v hv => by rw [hframes, h.others v hv]
  cause := h.cause
  mepc := hsame.mepc.trans h.mepc
  mie := hsame.mie.trans h.mie
  mpie := hsame.mpie.trans h.mpie
  here := fun hne => by
    obtain rfl := h.here hne
    have hframe := h.frame
    rw [framesOf_self, htop] at hframe
    cases hframe
  inTrap := by rw [hsame.inTrap, h.inTrap]

lemma Quiet.trap (h : Quiet s t) (pc : UInt64) :
    Open { s.setFrames (⟨causeTimerInterrupt, pc, .entered⟩ :: s.flow.frames) with
      mepc := pc, mpie := s.mie, mie := false }
      t t ⟨causeTimerInterrupt, pc, .entered⟩ where
  frame := by
    have htop : s.flow.frames = [] := framesOf_self s t ▸ h.frames t
    rw [htop]
    exact framesOf_self _ t
  others := fun v hv => framesOf_other (h.frames v) rfl hv
  cause := rfl
  mepc := rfl
  mie := rfl
  mpie := h.mie
  here := fun _ => rfl
  inTrap := iff_of_false (by
    have hin : s.inTrap = false := h.inTrap
    show ¬s.inTrap = true
    rw [hin]
    nofun) nofun

variable {pc : UInt64}

/-- The handler runs, and may let another task run. -/
lemma Open.handle (h : Open s t t ⟨causeTimerInterrupt, pc, .entered⟩) {s₁ : TrapState}
    (hs₁ : s₁ = { s.setFrames [⟨causeTimerInterrupt, pc, .handling⟩] with
      inTrap := true, trapCount := s.trapCount + 1 })
    (hframes : s'.framesOf t' = s₁.framesOf t) (hsame : SameTraps s₁ s') :
    Open s' t' t ⟨causeTimerInterrupt, pc, .handling⟩ where
  frame := by
    rw [hframes, hs₁]
    exact framesOf_self _ t
  others := fun v hv => by
    rw [hframes, hs₁]
    exact framesOf_other (h.others v hv) rfl hv
  cause := rfl
  mepc := by
    rw [hsame.mepc, hs₁]
    exact h.mepc
  mie := by
    rw [hsame.mie, hs₁]
    exact h.mie
  mpie := by
    rw [hsame.mpie, hs₁]
    exact h.mpie
  here := fun hne => absurd rfl hne
  inTrap := iff_of_true (by rw [hsame.inTrap, hs₁]) rfl

lemma Open.finish (h : Open s t t ⟨causeTimerInterrupt, pc, .handling⟩) :
    Open { s.setFrames [⟨causeTimerInterrupt, pc, .leaving⟩] with inTrap := false }
      t t ⟨causeTimerInterrupt, pc, .leaving⟩ where
  frame := framesOf_self _ t
  others := fun v hv => framesOf_other (h.others v hv) rfl hv
  cause := rfl
  mepc := h.mepc
  mie := h.mie
  mpie := h.mpie
  here := fun _ => rfl
  inTrap := iff_of_false nofun nofun

lemma Open.mret (h : Open s t t ⟨causeTimerInterrupt, pc, .leaving⟩) :
    Quiet { s.setFrames [] with mie := s.mpie, mpie := true } t where
  frames := fun v => by
    by_cases hv : v = t
    · subst hv
      exact framesOf_self _ v
    · exact framesOf_other (h.others v hv) rfl hv
  mie := h.mpie
  inTrap := by
    have hin : ¬s.inTrap = true := fun hr => absurd (h.inTrap.mp hr) nofun
    simpa [setFrames] using hin

end Open

/-- A frame that the running task has open is the only one, and one of the timer. -/
lemma PreemptInv.open_of_top {s : TrapState} (h : PreemptInv s) {cause pc : UInt64} {phase : Phase}
    {frames : List TrapFrame} (htop : s.flow.frames = ⟨cause, pc, phase⟩ :: frames) :
    frames = [] ∧ cause = causeTimerInterrupt ∧
      ∃ t, Runs s t ∧ s.flow.isSwitching = false ∧ Open s t t ⟨cause, pc, phase⟩ := by
  obtain ⟨t, hruns, hquiet | ⟨u, f, hopen⟩⟩ := h.frames
  · rw [← framesOf_self s t, hquiet.frames] at htop
    cases htop
  · obtain ⟨rfl, rfl, hnil⟩ := hopen.eq_of_top htop
    exact ⟨hnil, hopen.cause, t, hruns, hruns.not_switching htop, hopen⟩

/-- Outside of the handler steps keep the invariant if they keep the frames. -/
lemma PreemptInv.moves {s s' : TrapState} (h : PreemptInv s) (htable : InTable s')
    (htop : s.flow.frames = []) {t t' : Int} (hframes : Quiet s t ∨ ∃ u f, Open s t u f)
    (hruns : Runs s' t') (hkept : s'.framesOf t' = s.framesOf t) (hsame : SameTraps s s') :
    PreemptInv s' := by
  refine ⟨htable, hsame.halted.trans h.running, t', hruns, ?_⟩
  rcases hframes with hquiet | ⟨u, f, hopen⟩
  · exact .inl (hquiet.moves hkept hsame)
  · exact .inr ⟨u, f, hopen.moves htop hkept hsame⟩

/-- Every step of a run with timer traps only keeps the invariant, if no trap interrupts a task that
is switching. -/
lemma preempt_step (img : Image) (s : TrapState) (op : TrapOp) (h : PreemptInv s)
    (hop : op.Preemptive ∧ s.SwitchAlone op) : ∃ s', step img s op = some s' ∧ PreemptInv s' := by
  obtain ⟨hpreemptive, halone⟩ := hop
  obtain ⟨s', e, htable⟩ := inTable_step img h.table op
  refine ⟨s', e, ?_⟩
  have hstep := step_cases img s op
  rw [e] at hstep
  generalize hr : some s' = r at hstep
  cases hstep with
  | skipped op =>
    obtain rfl := Option.some.inj hr
    exact h
  | trap cause pc hrun hmie =>
    obtain rfl := Option.some.inj hr
    obtain rfl : cause = causeTimerInterrupt := hpreemptive
    have henabled := hmie (by decide)
    obtain ⟨t, hruns, hquiet | ⟨u, f, hopen⟩⟩ := h.frames
    · have hno := halone henabled
      exact ⟨htable, hrun, t, .of_current hruns.flow hruns.saved hno (hruns.current hno),
        .inr ⟨t, _, hquiet.trap pc⟩⟩
    · rw [hopen.mie] at henabled
      cases henabled
  | handle cause pc frames hrun htop =>
    obtain ⟨rfl, rfl, t, hruns, hno, hopen⟩ := h.open_of_top htop
    have hhandler := trapHandler_cases (s.setFrames [⟨causeTimerInterrupt, pc, .handling⟩])
      causeTimerInterrupt s.mepc
    rw [← hr] at hhandler
    generalize hr' : some s' = r at hhandler
    cases hhandler with
    | halts hin =>
      -- the handler is not active
      cases hopen.inTrap.mp hin
    | timer hin _ =>
      obtain ⟨machine, _, rfl⟩ := Option.map_eq_some_iff.mp hr'.symm
      have hentered : Runs { s.setFrames [⟨causeTimerInterrupt, pc, .handling⟩] with
          inTrap := true, trapCount := s.trapCount + 1 } t :=
        .of_current hruns.flow hruns.saved hno (hruns.current hno)
      obtain rfl := hruns.current hno
      have hsame := follow_same { s.setFrames [⟨causeTimerInterrupt, pc, .handling⟩] with
        inTrap := true, trapCount := s.trapCount + 1 } machine
      exact ⟨htable, hsame.halted.trans hrun, _, hentered.follow hno machine,
        .inr ⟨_, _, hopen.handle rfl (framesOf_follow _ machine) hsame⟩⟩
    | other mepc mie _ hne => exact absurd rfl hne
  | finish cause pc frames hrun htop =>
    obtain rfl := Option.some.inj hr
    obtain ⟨rfl, rfl, t, hruns, hno, hopen⟩ := h.open_of_top htop
    exact ⟨htable, hrun, t, .of_current hruns.flow hruns.saved hno (hruns.current hno),
      .inr ⟨t, _, hopen.finish⟩⟩
  | mret cause pc frames hrun htop =>
    obtain rfl := Option.some.inj hr
    obtain ⟨rfl, rfl, t, hruns, hno, hopen⟩ := h.open_of_top htop
    exact ⟨htable, hrun, t, .of_current hruns.flow hruns.saved hno (hruns.current hno),
      .inl hopen.mret⟩
  | sched op hrun hflow =>
    obtain rfl := Option.some.inj hr
    obtain ⟨t, hruns, hframes⟩ := h.frames
    obtain ⟨hruns', hkept⟩ := hruns.begin hflow img op
    exact h.moves htable (congrArg Flow.frames hflow) hframes hruns' hkept (begin_same img s op)
  | advance c hrun hflow =>
    obtain rfl := Option.some.inj hr
    obtain ⟨t, hruns, hframes⟩ := h.frames
    obtain ⟨t', hruns', hkept⟩ := hruns.advance hflow
    exact h.moves htable (congrArg Flow.frames hflow) hframes hruns' hkept (advance_same s c)

lemma start_preempt (img : Image) (regs : Regs) (mepc : UInt64) (mpie : Bool) :
    PreemptInv (start img regs mepc mpie) := by
  refine ⟨start_inTable img regs mepc mpie, rfl, 0, ?_, .inl ⟨fun u => ite_self _, rfl, rfl⟩⟩
  exact .of_current (Flow.of_none _ _) (fun u _ => ⟨Flow.of_none _ _, rfl⟩) rfl rfl

end TrapState

/-- In every run with timer traps and whatever the tasks do outside of the handler, if no trap
interrupts a task that is switching: a task that is at its `mret` finds the pc in `mepc` at which it
was interrupted, and the handler never halts. -/
theorem preempted_resume (img : Image) (regs : Regs) (mepc : UInt64) (mpie : Bool)
    (ops : List TrapOp) (hops : ∀ op ∈ ops, op.Preemptive)
    (halone : Run.Admissible (TrapState.step img) TrapState.SwitchAlone
      (.start img regs mepc mpie) ops) :
    ∃ s, Run.run (TrapState.step img) (.start img regs mepc mpie) ops = some s ∧
      s.halted = false ∧ ∀ pc, s.AtMret pc → s.mepc = pc := by
  obtain ⟨s, hrun, h⟩ := ((Run.Admissible.of_forall hops).and halone).inv
    (TrapState.start_preempt img regs mepc mpie) (TrapState.preempt_step img)
  refine ⟨s, hrun, h.running, ?_⟩
  rintro pc ⟨cause, frames, htop⟩
  obtain ⟨_, _, t, _, _, hopen⟩ := h.open_of_top htop
  exact hopen.mepc

/-- A yield that finds the next task ready. -/
def yieldOps : List TrapOp := .sched .taskYield :: List.replicate 8 .advance

/-- A timer trap, and its handler up to the switch. -/
def timerTrap (pc : UInt64) : List TrapOp := [.trap causeTimerInterrupt pc, .handle]

/-- The boot flow is interrupted in the search loop of its yield and leaves the processor to task 1,
which yields; so does task 2, and the boot flow gets to its `mret`. -/
theorem preempted_resume_yields :
    ∃ s, Run.run (TrapState.step ⟨0, 0, 0, 0⟩) (.start ⟨0, 0, 0, 0⟩ (fun _ => 0) 0 false)
        (List.flatten [[.sched .taskYield, .advance], timerTrap 0x80000400, yieldOps, yieldOps,
          [.finish]]) = some s ∧
      s.AtMret 0x80000400 ∧ s.mepc = 0x80000400 := by
  have hops : ∀ op ∈ List.flatten [[TrapOp.sched .taskYield, .advance], timerTrap 0x80000400,
      yieldOps, yieldOps, [.finish]], op.Preemptive := by decide
  have halone : Run.Admissible (TrapState.step ⟨0, 0, 0, 0⟩) TrapState.SwitchAlone
      (.start ⟨0, 0, 0, 0⟩ (fun _ => 0) 0 false) (List.flatten [[.sched .taskYield, .advance],
        timerTrap 0x80000400, yieldOps, yieldOps, [.finish]]) := by
    decide +kernel
  obtain ⟨s, hrun, _, hmepc⟩ := preempted_resume ⟨0, 0, 0, 0⟩ (fun _ => 0) 0 false _ hops halone
  have hframes : (Run.run (TrapState.step ⟨0, 0, 0, 0⟩) (.start ⟨0, 0, 0, 0⟩ (fun _ => 0) 0 false)
      (List.flatten [[.sched .taskYield, .advance], timerTrap 0x80000400, yieldOps, yieldOps,
        [.finish]])).map (·.flow.frames) = some [⟨causeTimerInterrupt, 0x80000400, .leaving⟩] := by
    decide +kernel
  rw [hrun, Option.map_some, Option.some.injEq] at hframes
  exact ⟨s, hrun, ⟨_, _, hframes⟩, hmepc _ ⟨_, _, hframes⟩⟩

/-- The boot flow yields to task 1, and a timer trap comes between the write of `current_task` and
`context_switch`: its handler saves the boot flow to the context of task 1 and enters task 2. Task 2
yields to task 0, which has only its initial context yet, and that one to task 1, which is the boot
flow in its handler. Behind its `mret` it saves itself to the context of task 0, and loads that of
task 1 once more: it is back in the handler, with interrupts enabled, and there a second trap
comes. -/
def interruptedYield : List TrapOp :=
  List.flatten [.sched .taskYield :: List.replicate 6 .advance, timerTrap 0x80000400, yieldOps,
    yieldOps, [.finish, .mret, .advance, .advance], timerTrap 0x80000500, yieldOps, yieldOps,
    [.finish, .mret, .finish]]

/-- When the second trap has been handled, the pc of the first one is lost. -/
theorem preempted_resume_fails :
    (∀ op ∈ interruptedYield, op.Preemptive) ∧
    ∃ s, Run.run (TrapState.step ⟨0, 0, 0, 0⟩) (.start ⟨0, 0, 0, 0⟩ (fun _ => 0) 0 false)
        interruptedYield = some s ∧
      s.AtMret 0x80000400 ∧ s.mepc = 0x80000500 := by
  have hfacts : (Run.run (TrapState.step ⟨0, 0, 0, 0⟩) (.start ⟨0, 0, 0, 0⟩ (fun _ => 0) 0 false)
      interruptedYield).map (fun s => (s.flow.frames, s.mepc)) =
      some ([⟨causeTimerInterrupt, 0x80000400, .leaving⟩], 0x80000500) := by
    decide +kernel
  obtain ⟨s, hrun, hs⟩ := Option.map_eq_some_iff.mp hfacts
  obtain ⟨hframes, hmepc⟩ := Prod.mk.inj hs
  exact ⟨by decide, s, hrun, ⟨_, _, hframes⟩, hmepc⟩

end Hydra.Kernel
