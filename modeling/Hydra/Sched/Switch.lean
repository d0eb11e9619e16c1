import Hydra.Sched.Task

/-!
# What a switch does

The assembly routine stores every callee-saved register to the field of the outgoing context that
it later loads it from, and loads every register from the incoming context (`contextSwitch_eq`). A
switch of the scheduler thus touches two tasks, the one it leaves and the one it enters
(`switchTo_eq`).
-/

namespace Hydra.Sched
open Hydra.Ipc (maxTasks)

/-- The context that holds the registers. -/
def TaskContext.ofRegs (r : Regs) : TaskContext :=
  ⟨r .ra, r .sp, r .s0, r .s1, r .s2, r .s3, r .s4, r .s5, r .s6, r .s7, r .s8, r .s9, r .s10, r .s11⟩

/-- The registers that a context holds. -/
def TaskContext.toRegs (c : TaskContext) : Regs
  | .ra => c.ra
  | .sp => c.sp
  | .s0 => c.s0
  | .s1 => c.s1
  | .s2 => c.s2
  | .s3 => c.s3
  | .s4 => c.s4
  | .s5 => c.s5
  | .s6 => c.s6
  | .s7 => c.s7
  | .s8 => c.s8
  | .s9 => c.s9
  | .s10 => c.s10
  | .s11 => c.s11

@[simp] lemma TaskContext.toRegs_ofRegs (r : Regs) : (TaskContext.ofRegs r).toRegs = r := by
  funext x
  cases x <;> rfl

lemma TaskContext.toRegs_inj {c c' : TaskContext} : c.toRegs = c'.toRegs ↔ c = c' := by
  refine ⟨fun h => ?_, congrArg _⟩
  have hround : ∀ c : TaskContext, TaskContext.ofRegs c.toRegs = c := fun c => rfl
  rw [← hround c, h, hround]

/-- The stores of a list of registers to given offsets of the outgoing context. -/
lemma exec_sd (old new : Int) (l : List (Reg × Nat)) (s : Machine) :
    (l.map fun x => Instr.sd x.1 x.2 .a0).foldl (exec old new) s =
      s.setTask old { s.tasks old with
        context := l.foldl (fun c x => c.setWord x.2 (s.regs x.1)) (s.tasks old).context } := by
  induction l generalizing s with
  | nil => simp [Machine.setTask]
  | cons x l ih =>
    rw [List.map_cons, List.foldl_cons, ih, List.foldl_cons]
    simp [exec, Arg.task, Machine.setTask]

lemma exec_ld (old new : Int) (l : List (Reg × Nat)) (s : Machine) :
    (l.map fun x => Instr.ld x.1 x.2 .a1).foldl (exec old new) s =
      { s with regs := l.foldl (fun r x =>
          Function.update r x.1 ((s.tasks new).context.word x.2)) s.regs } := by
  induction l generalizing s with
  | nil => rfl
  | cons x l ih =>
    rw [List.map_cons, List.foldl_cons, ih, List.foldl_cons]
    rfl

/-- Where the routine keeps each register. -/
def frame : List (Reg × Nat) :=
  [(.ra, 0), (.sp, 8), (.s0, 16), (.s1, 24), (.s2, 32), (.s3, 40), (.s4, 48), (.s5, 56), (.s6, 64),
    (.s7, 72), (.s8, 80), (.s9, 88), (.s10, 96), (.s11, 104)]

lemma frame_saves (r : Regs) (c : TaskContext) :
    frame.foldl (fun c x => c.setWord x.2 (r x.1)) c = .ofRegs r := rfl

lemma frame_loads (r : Regs) (c : TaskContext) :
    frame.foldl (fun r x => Function.update r x.1 (c.word x.2)) r = c.toRegs := by
  funext x
  cases x <;> rfl

/-- The routine saves all registers to the outgoing context and loads all from the incoming one. -/
theorem contextSwitch_eq {old new : Int} (h : new ≠ old) (s : Machine) :
    contextSwitch old new s =
      { s.setTask old { s.tasks old with context := .ofRegs s.regs } with
        regs := (s.tasks new).context.toRegs } := by
  have hsave : saveCode = frame.map fun x => Instr.sd x.1 x.2 .a0 := rfl
  have hload : loadCode = frame.map fun x => Instr.ld x.1 x.2 .a1 := rfl
  unfold contextSwitch
  rw [List.foldl_append, List.foldl_append, hsave, hload, exec_sd, exec_ld, frame_saves, frame_loads]
  have hnew : ((s.setTask old { s.tasks old with context := .ofRegs s.regs }).tasks new) =
      s.tasks new := Function.update_of_ne h _ _
  rw [hnew]
  rfl

section Switch

variable (s : Machine) {t : Int} (h : t ≠ s.currentTask)
include h

lemma switchTo_eq : switchTo s t =
    { tasks := fun i =>
        if i = t then { s.tasks t with state := .running }
        else if i = s.currentTask then
          { s.tasks i with
            state := if (s.tasks i).state = .running then .ready else (s.tasks i).state
            context := .ofRegs s.regs }
        else s.tasks i
      currentTask := t
      numTasks := s.numTasks
      regs := (s.tasks t).context.toRegs } := by
  unfold switchTo
  rw [contextSwitch_eq h]
  have hne : s.currentTask ≠ t := Ne.symm h
  by_cases hr : (s.tasks s.currentTask).state = .running
  · simp only [if_pos hr, Machine.setState, Machine.setTask, Machine.mk.injEq, true_and]
    refine ⟨?_, by simp [h]⟩
    funext i
    rcases eq_or_ne i t with rfl | hi
    · simp [h]
    · rcases eq_or_ne i s.currentTask with rfl | hc
      · simp [hne, hr]
      · simp [hi, hc]
  · simp only [if_neg hr, Machine.setState, Machine.setTask, Machine.mk.injEq, true_and]
    refine ⟨?_, by simp⟩
    funext i
    rcases eq_or_ne i t with rfl | hi
    · simp [h]
    · rcases eq_or_ne i s.currentTask with rfl | hc
      · simp [hne, hr]
      · simp [hi, hc]

lemma switchTo_currentTask : (switchTo s t).currentTask = t := by rw [switchTo_eq s h]

lemma switchTo_numTasks : (switchTo s t).numTasks = s.numTasks := by rw [switchTo_eq s h]

lemma switchTo_regs : (switchTo s t).regs = (s.tasks t).context.toRegs := by rw [switchTo_eq s h]

lemma switchTo_entered : (switchTo s t).tasks t = { s.tasks t with state := .running } := by
  rw [switchTo_eq s h]
  exact if_pos rfl

/-- The switch saves the registers to the task it leaves, and makes it ready if it was running. -/
lemma switchTo_left : (switchTo s t).tasks s.currentTask =
    { s.tasks s.currentTask with
      state := if (s.tasks s.currentTask).state = .running then .ready
        else (s.tasks s.currentTask).state
      context := .ofRegs s.regs } := by
  rw [switchTo_eq s h]
  simp only [if_neg (Ne.symm h), if_true]

lemma switchTo_other {i : Int} (hi : i ≠ t) (hc : i ≠ s.currentTask) :
    (switchTo s t).tasks i = s.tasks i := by
  rw [switchTo_eq s h]
  simp only [if_neg hi, if_neg hc]

lemma switchTo_pid (i : Int) : ((switchTo s t).tasks i).pid = (s.tasks i).pid := by
  rcases eq_or_ne i t with rfl | hi
  · rw [switchTo_entered s h]
  · rcases eq_or_ne i s.currentTask with rfl | hc
    · rw [switchTo_left s h]
    · rw [switchTo_other s h hi hc]

lemma switchTo_state (i : Int) : ((switchTo s t).tasks i).state =
    if i = t then .running
    else if i = s.currentTask ∧ (s.tasks i).state = .running then .ready
    else (s.tasks i).state := by
  rcases eq_or_ne i t with rfl | hi
  · rw [switchTo_entered s h, if_pos rfl]
  · rw [if_neg hi]
    rcases eq_or_ne i s.currentTask with rfl | hc
    · rw [switchTo_left s h]
      simp
    · rw [switchTo_other s h hi hc, if_neg (fun e => hc e.1)]

end Switch

end Hydra.Sched
