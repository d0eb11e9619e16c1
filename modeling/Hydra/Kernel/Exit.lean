import Hydra.Kernel.Queues

/-!
# Tasks that exit

SYS_EXIT marks the current task unused and schedules. No operation puts a created task that is
unused back to use: `schedule` enters ready tasks only, and `create_task` fills the slot behind the
last one. So a task that was left by its exit is gone for good (`Gone`). But `schedule` leaves the
task only if it finds another one that is ready, and returns to it otherwise (`exit_final`).

Since `create_task` goes by the number of tasks that were ever created, a slot that an exit gave up
is not used again (`slots_reused`).
-/

namespace Hydra.Kernel
open Hydra.Ipc (maxTasks)
open Hydra.Sched (Machine Image Regs SchedOp Inv cyc)

/-- The task was created, and is neither in use nor the current one. -/
structure Gone (s : Machine) (t : Int) : Prop where
  lt : t < s.numTasks
  unused : (s.tasks t).state = .unused
  current : s.currentTask ≠ t

/-- Another task is ready. -/
def OtherReady (s : Machine) : Prop :=
  ∃ j, 0 ≤ j ∧ j < s.numTasks ∧ j ≠ s.currentTask ∧ (s.tasks j).state = .ready

section Gone

variable {img : Image} {s s' : Machine} {t : Int}

lemma Gone.switchTo (h : Gone s t) {u : Int} (hu : u ≠ s.currentTask)
    (hready : (s.tasks u).state = .ready) : Gone (Sched.switchTo s u) t := by
  obtain ⟨hlt, hunused, hcur⟩ := h
  have hut : u ≠ t := by
    rintro rfl
    rw [hready] at hunused
    cases hunused
  constructor
  · rw [Sched.switchTo_numTasks s hu]
    exact hlt
  · rw [Sched.switchTo_other s hu hut.symm hcur.symm]
    exact hunused
  · rw [Sched.switchTo_currentTask s hu]
    exact hut

/-- A task that is marked unused is gone when it is left. -/
lemma Gone.of_left {u : Int} (hu : u ≠ s.currentTask) (hlt : s.currentTask < s.numTasks)
    (hunused : (s.tasks s.currentTask).state = .unused) :
    Gone (Sched.switchTo s u) s.currentTask := by
  constructor
  · rw [Sched.switchTo_numTasks s hu]
    exact hlt
  · rw [Sched.switchTo_left s hu, hunused]
    rfl
  · rw [Sched.switchTo_currentTask s hu]
    exact hu

lemma Gone.schedule (hi : Inv s) (h : Gone s t) (e : Sched.schedule s = some s') : Gone s' t := by
  rcases Sched.schedule_cases hi with ⟨e', _⟩ | ⟨j, _, _, _, sw, e'⟩
  · obtain rfl := Option.some.inj (e'.symm.trans e)
    exact h
  · obtain rfl := Option.some.inj (e'.symm.trans e)
    exact h.switchTo sw.ne sw.ready

/-- No operation brings a task back. -/
lemma Gone.step (hi : Inv s) (h : Gone s t) {op : SchedOp} (e : Sched.step img s op = some s') :
    Gone s' t := by
  cases op with
  | createTask entry =>
    obtain rfl := Option.some.inj e
    obtain ⟨hlt, hunused, hcur⟩ := h
    unfold Sched.createTask
    split
    · exact ⟨hlt, hunused, hcur⟩
    · refine ⟨hlt.trans (Int.lt_succ _), ?_, hcur⟩
      simpa [Machine.setTask, hlt.ne] using hunused
  | schedule => exact h.schedule hi e
  | taskYield => exact h.schedule hi ((Sched.taskYield_eq s).symm.trans e)
  | schedTick => exact h.schedule hi ((Sched.schedTick_eq s).symm.trans e)
  | sysExit =>
    have hother : Gone (s.setState s.currentTask .unused) t := by
      obtain ⟨hlt, hunused, hcur⟩ := h
      refine ⟨hlt, ?_, hcur⟩
      simpa [Machine.setState, Machine.setTask, hcur.symm] using hunused
    exact hother.schedule (Sched.setState_unused_inv hi) ((Sched.sysExit_eq hi).symm.trans e)
  | compute regs =>
    obtain rfl := Option.some.inj e
    exact ⟨h.lt, h.unused, h.current⟩

/-- A task that is gone stays gone in every run. -/
lemma run_gone (img : Image) (hi : Inv s) (h : Gone s t) {ops : List SchedOp}
    (hrun : Run.run (Sched.step img) s ops = some s') : Gone s' t := by
  have hstep : ∀ s op, Inv s ∧ Gone s t → ∃ s', Sched.step img s op = some s' ∧ Inv s' ∧ Gone s' t := by
    rintro s op ⟨hi, h⟩
    obtain ⟨s', e, hi'⟩ := Sched.step_inv img s op hi
    exact ⟨s', e, hi', h.step hi e⟩
  exact (Run.inv_of_run hstep hrun ⟨hi, h⟩).2

end Gone

/-- The search passes every other task. -/
lemma exists_cyc {n c j : Int} (h0 : 0 ≤ j) (hn : j < n) (hc0 : 0 ≤ c) (hc : c < n) (hne : j ≠ c) :
    ∃ i, 1 ≤ i ∧ i < n ∧ cyc n c i = j := by
  unfold cyc
  rcases lt_or_gt_of_ne hne with hlt | hgt
  · exact ⟨j - c + n, by omega, by omega, by rw [if_neg (by omega)]; omega⟩
  · exact ⟨j - c, by omega, by omega, by rw [if_pos (by omega)]; omega⟩

/-- `schedule` leaves the current task exactly if another one is ready. -/
lemma schedule_ready {s : Machine} (hc : 0 ≤ s.currentTask) (hn : s.currentTask < s.numTasks) :
    (OtherReady s ∧ ∃ t, t ≠ s.currentTask ∧ (s.tasks t).state = .ready ∧
      t < s.numTasks ∧ 0 ≤ t ∧ Sched.schedule s = some (Sched.switchTo s t)) ∨
    ¬OtherReady s ∧ Sched.schedule s = some s := by
  rcases Sched.schedule_search hc hn with ⟨e, hnone⟩ | ⟨j, _, _, _, sw, e⟩
  · right
    refine ⟨?_, e⟩
    rintro ⟨j, h0, hlt, hne, hready⟩
    obtain ⟨i, hi1, hin, rfl⟩ := exists_cyc h0 hlt hc hn hne
    exact hnone i hi1 hin hready
  · left
    exact ⟨⟨_, sw.nonneg, sw.lt, sw.ne, sw.ready⟩, _, sw.ne, sw.ready, sw.lt, sw.nonneg, e⟩

/-- A task that exits is gone if another one is ready, else the call returns to it. -/
lemma sysExit_cases {s : Machine} (h : Inv s) :
    ∃ s', Sched.sysExit s = some s' ∧
      (OtherReady s ∧ Gone s' s.currentTask ∨ ¬OtherReady s ∧ s'.currentTask = s.currentTask) := by
  have hi := Sched.setState_unused_inv h
  have hother : OtherReady (s.setState s.currentTask .unused) ↔ OtherReady s := by
    refine exists_congr fun j => and_congr_right fun _ => and_congr_right fun _ =>
      and_congr_right fun hj => ?_
    have hne : j ≠ s.currentTask := hj
    simp [Machine.setState, Machine.setTask, hne]
  rw [Sched.sysExit_eq h, ← hother]
  rcases schedule_ready hi.current_nonneg hi.current_lt with
    ⟨hready, t, hne, _, _, _, e⟩ | ⟨hno, e⟩
  · refine ⟨_, e, .inl ⟨hready, Gone.of_left hne h.current_lt ?_⟩⟩
    simp [Machine.setState, Machine.setTask]
  · exact ⟨_, e, .inr ⟨hno, rfl⟩⟩

/-- In every reachable state: a task that exits is never the current one again, whatever happens
afterwards, exactly if another task is ready. If none is, the exit returns to the task. -/
theorem exit_final (img : Image) (regs : Regs) (ops : List SchedOp) :
    ∃ s s', Sched.run img regs ops = some s ∧ Sched.step img s .sysExit = some s' ∧
      (¬OtherReady s → s'.currentTask = s.currentTask) ∧
      ((∀ ops' s'', Run.run (Sched.step img) s' ops' = some s'' → s''.currentTask ≠ s.currentTask) ↔
        OtherReady s) := by
  obtain ⟨s, hrun, hi⟩ := Sched.run_inv img regs ops
  obtain ⟨s', e, hcases⟩ := sysExit_cases hi
  obtain ⟨s₁, e', hi'⟩ := Sched.step_inv img s .sysExit hi
  obtain rfl : s₁ = s' := Option.some.inj (e'.symm.trans e)
  refine ⟨s, s₁, hrun, e, fun hno => ?_, fun hnever => ?_, fun hother => ?_⟩
  · exact (hcases.resolve_left fun h => hno h.1).2
  · by_contra hno
    have hback := (hcases.resolve_left fun h => hno h.1).2
    exact hnever [] s₁ rfl hback
  · have hgone := (hcases.resolve_right fun h => h.1 hother).2
    intro ops' s'' hrun'
    exact (run_gone img hi' hgone hrun').current

/-- The boot flow and the two tasks it finds exit, one after the other. -/
theorem exit_final_fails :
    ∃ s s', Sched.run ⟨0, 0, 0, 0⟩ (fun _ => 0) [.sysExit, .sysExit] = some s ∧
      s.currentTask = 2 ∧ Sched.step ⟨0, 0, 0, 0⟩ s .sysExit = some s' ∧ s'.currentTask = 2 := by
  have hfacts : ((Sched.run ⟨0, 0, 0, 0⟩ (fun _ => 0) [.sysExit, .sysExit]).bind fun s =>
      (Sched.step ⟨0, 0, 0, 0⟩ s .sysExit).map fun s' => (s.currentTask, s'.currentTask)) =
      some (2, 2) := by decide +kernel
  obtain ⟨s, hrun, hs⟩ := Option.bind_eq_some_iff.mp hfacts
  obtain ⟨s', hstep, hcur⟩ := Option.map_eq_some_iff.mp hs
  rw [Prod.mk.injEq] at hcur
  exact ⟨s, s', hrun, hcur.1, hstep, hcur.2⟩

/-! ## Slots -/

/-- The number of tasks that were created and have not exited. -/
def liveCount (s : Machine) : Nat :=
  ((List.range s.numTasks.toNat).filter fun i => (s.tasks i).state ≠ .unused).length

/-- A task is created: its pid is not the one of a live task, it is live afterwards, and the live
tasks keep their states and contexts. -/
structure Creates (img : Image) (s : Machine) (entry : UInt64) : Prop where
  succeeds : (Sched.createTask img s entry).1 ≠ -1
  fresh : ¬Live s (Sched.createTask img s entry).1
  live : Live (Sched.createTask img s entry).2 (Sched.createTask img s entry).1
  kept : ∀ t, Live s t →
    ((Sched.createTask img s entry).2.tasks t).state = (s.tasks t).state ∧
    ((Sched.createTask img s entry).2.tasks t).context = (s.tasks t).context

lemma createTask_full (img : Image) {s : Machine} (h : maxTasks ≤ s.numTasks) (entry : UInt64) :
    Sched.createTask img s entry = (-1, s) := by
  unfold Sched.createTask
  rw [if_pos h]

/-- A task is created exactly if a slot was never used. -/
lemma creates_iff (img : Image) {s : Machine} (h : Inv s) (entry : UInt64) :
    Creates img s entry ↔ s.numTasks < maxTasks := by
  constructor
  · intro hcreates
    by_contra hfull
    apply hcreates.succeeds
    rw [createTask_full img (not_lt.mp hfull)]
  · intro hroom
    have hc := h.current_nonneg
    have hlt := h.current_lt
    have hother : ∀ t, Live s t → t ≠ s.numTasks := fun t ht => ht.2.1.ne
    constructor <;> unfold Sched.createTask <;> rw [if_neg (not_le.mpr hroom)]
    · show s.numTasks ≠ -1
      omega
    · exact fun hlive => hother _ hlive rfl
    · refine ⟨by show 0 ≤ s.numTasks; omega, Int.lt_succ s.numTasks, ?_⟩
      simp [Machine.setTask]
    · intro t ht
      simp [Machine.setTask, hother t ht]

/-- In every reachable state `create_task` makes a new task next to the live ones exactly if fewer
than `MAX_TASKS` tasks were created so far, those that have exited included. -/
theorem slots_reused (img : Image) (regs : Regs) (ops : List SchedOp) :
    ∃ s, Sched.run img regs ops = some s ∧
      ∀ entry, Creates img s entry ↔ s.numTasks < maxTasks := by
  obtain ⟨s, hrun, hi⟩ := Sched.run_inv img regs ops
  exact ⟨s, hrun, creates_iff img hi⟩

/-- Five more tasks are created and the boot flow exits. -/
theorem slots_reused_fails :
    ∃ s, Sched.run ⟨0, 0, 0, 0⟩ (fun _ => 0) (List.replicate 5 (.createTask 0) ++ [.sysExit]) = some s ∧
      liveCount s = 7 ∧ ¬Creates ⟨0, 0, 0, 0⟩ s 0 := by
  have hfacts : (Sched.run ⟨0, 0, 0, 0⟩ (fun _ => 0)
      (List.replicate 5 (.createTask 0) ++ [.sysExit])).map (fun s => (liveCount s, s.numTasks)) =
      some (7, 8) := by decide +kernel
  obtain ⟨s, hrun, hs⟩ := Option.map_eq_some_iff.mp hfacts
  rw [Prod.mk.injEq] at hs
  refine ⟨s, hrun, hs.1, fun hcreates => hcreates.succeeds ?_⟩
  rw [createTask_full _ (by rw [hs.2]; decide)]

end Hydra.Kernel
