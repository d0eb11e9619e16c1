import Hydra.Sched.Switch
import Hydra.Lib.Run

/-!
# The scheduler invariant

`schedule` searches the table in cyclic order from the task behind the current one. Because the
current task lies below the number of tasks, the search comes back to it after at most
`num_tasks - 1` steps (`search_spec`), so `schedule` always ends, and either finds no other ready
task or switches to the first one (`schedule_cases`).

`Inv` is what every operation keeps: the current task exists, the table is filled from the front,
and only the current task can be running. It holds at boot, where the current task is not running,
and when the current task has exited and is no longer in use.
-/

namespace Hydra.Sched
open Hydra.Ipc (maxTasks)

/-! ## The search -/

/-- The task `k` places behind `c`, in a table of `n` tasks. -/
def cyc (n c k : Int) : Int := if c + k < n then c + k else c + k - n

section Cyclic

variable {n c k : Int}

lemma cyc_nonneg (hc : 0 ≤ c) (hk : 0 ≤ k) : 0 ≤ cyc n c k := by
  unfold cyc
  split <;> omega

lemma cyc_lt (hc : c < n) (hk : k ≤ n) : cyc n c k < n := by
  unfold cyc
  split <;> omega

lemma cyc_eq_self (hc : 0 ≤ c) (hk : 1 ≤ k) : cyc n c k = c ↔ k = n := by
  unfold cyc
  split <;> omega

/-- The C expression for the next place. -/
lemma cyc_succ (hc : 0 ≤ c) (hn : c < n) (hk : 0 ≤ k) (hkn : k < n) :
    (cyc n c k + 1).tmod n = cyc n c (k + 1) := by
  have h0 : 0 ≤ cyc n c k + 1 := by
    have := cyc_nonneg (n := n) hc hk
    omega
  rw [Int.tmod_eq_emod_of_nonneg h0]
  have hlt := cyc_lt hn hkn.le
  by_cases hlast : cyc n c k + 1 < n
  · rw [Int.emod_eq_of_lt h0 hlast]
    unfold cyc at *
    split_ifs at * <;> omega
  · have e : cyc n c k + 1 = n := by omega
    rw [e, Int.emod_self]
    unfold cyc at *
    split_ifs at * <;> omega

end Cyclic

/-- Within `n` tests the search finds the first ready task behind the current one, or arrives at
the current one. -/
lemma search_spec (s : Machine) (hc : 0 ≤ s.currentTask) (hn : s.currentTask < s.numTasks)
    (fuel : Nat) {k : Int} (hk : 1 ≤ k) (hkn : k ≤ s.numTasks) (hf : s.numTasks - k < fuel) :
    ∃ j, k ≤ j ∧ j ≤ s.numTasks ∧
      search s fuel (cyc s.numTasks s.currentTask k) = some (cyc s.numTasks s.currentTask j) ∧
      (∀ i, k ≤ i → i < j → (s.tasks (cyc s.numTasks s.currentTask i)).state ≠ .ready) ∧
      (j = s.numTasks ∨ (s.tasks (cyc s.numTasks s.currentTask j)).state = .ready) := by
  induction fuel generalizing k with
  | zero => omega
  | succ fuel ih =>
    unfold search
    by_cases hstop : cyc s.numTasks s.currentTask k ≠ s.currentTask ∧
        (s.tasks (cyc s.numTasks s.currentTask k)).state ≠ .ready
    · rw [if_pos hstop]
      obtain ⟨hself, hnot⟩ := hstop
      have hlt : k < s.numTasks := by
        rcases lt_or_eq_of_le hkn with hlt | heq
        · exact hlt
        · exact absurd ((cyc_eq_self hc hk).mpr heq) hself
      rw [cyc_succ hc hn (by omega) hlt]
      obtain ⟨j, hkj, hjn, hfound, hskip, hend⟩ := ih (k := k + 1) (by omega) (by omega) (by omega)
      refine ⟨j, by omega, hjn, hfound, fun i hi hij => ?_, hend⟩
      rcases eq_or_ne i k with rfl | hne
      · exact hnot
      · exact hskip i (by omega) hij
    · rw [if_neg hstop]
      refine ⟨k, le_rfl, hkn, rfl, fun i hi hij => by omega, ?_⟩
      rw [← cyc_eq_self hc hk]
      by_contra hno
      exact hstop ⟨fun e => hno (.inl e), fun e => hno (.inr e)⟩

/-! ## The invariant -/

/-- The table is filled up to the number of tasks, the current task is in it, and no other task is
running. -/
structure Inv (s : Machine) : Prop where
  current_nonneg : 0 ≤ s.currentTask
  current_lt : s.currentTask < s.numTasks
  num_le : s.numTasks ≤ maxTasks
  pid : ∀ i, 0 ≤ i → i < maxTasks → (s.tasks i).pid = i
  unused : ∀ i, s.numTasks ≤ i → i < maxTasks → (s.tasks i).state = .unused
  running : ∀ i, 0 ≤ i → i < maxTasks → (s.tasks i).state = .running → i = s.currentTask

/-- A switch from the current task to a ready one. -/
structure Switches (s s' : Machine) (t : Int) : Prop where
  nonneg : 0 ≤ t
  lt : t < s.numTasks
  ne : t ≠ s.currentTask
  ready : (s.tasks t).state = .ready
  eq : s' = switchTo s t

/-- What `schedule` does: nothing, if no other task is ready, or a switch to the first ready task
in cyclic order. -/
lemma schedule_search {s : Machine} (hc : 0 ≤ s.currentTask) (hn : s.currentTask < s.numTasks) :
    (schedule s = some s ∧
      ∀ i, 1 ≤ i → i < s.numTasks → (s.tasks (cyc s.numTasks s.currentTask i)).state ≠ .ready) ∨
    ∃ j, 1 ≤ j ∧ j < s.numTasks ∧
      (∀ i, 1 ≤ i → i < j → (s.tasks (cyc s.numTasks s.currentTask i)).state ≠ .ready) ∧
      Switches s (switchTo s (cyc s.numTasks s.currentTask j)) (cyc s.numTasks s.currentTask j) ∧
      schedule s = some (switchTo s (cyc s.numTasks s.currentTask j)) := by
  unfold schedule
  by_cases hle : s.numTasks ≤ 1
  · left
    rw [if_pos hle]
    exact ⟨rfl, fun i hi hin => by omega⟩
  · rw [if_neg hle]
    have hfirst : (s.currentTask + 1).tmod s.numTasks = cyc s.numTasks s.currentTask 1 := by
      have h0 : cyc s.numTasks s.currentTask 0 = s.currentTask := by
        unfold cyc
        split <;> omega
      have hsucc := cyc_succ hc hn le_rfl (by omega)
      rwa [h0] at hsucc
    obtain ⟨j, hj, hjn, hfound, hskip, hend⟩ :=
      search_spec s hc hn s.numTasks.toNat (k := 1) le_rfl (by omega) (by omega)
    simp only [hfirst, hfound]
    by_cases hself : j = s.numTasks
    · left
      rw [if_pos ((cyc_eq_self hc hj).mpr hself)]
      exact ⟨rfl, fun i hi hin => hskip i hi (by omega)⟩
    · right
      have hne := mt (cyc_eq_self hc hj).mp hself
      refine ⟨j, hj, by omega, hskip, ⟨cyc_nonneg hc (by omega), cyc_lt hn hjn, hne, ?_, rfl⟩, ?_⟩
      · exact hend.resolve_left hself
      · rw [if_neg hne]

lemma schedule_cases {s : Machine} (h : Inv s) :
    (schedule s = some s ∧
      ∀ i, 1 ≤ i → i < s.numTasks → (s.tasks (cyc s.numTasks s.currentTask i)).state ≠ .ready) ∨
    ∃ j, 1 ≤ j ∧ j < s.numTasks ∧
      (∀ i, 1 ≤ i → i < j → (s.tasks (cyc s.numTasks s.currentTask i)).state ≠ .ready) ∧
      Switches s (switchTo s (cyc s.numTasks s.currentTask j)) (cyc s.numTasks s.currentTask j) ∧
      schedule s = some (switchTo s (cyc s.numTasks s.currentTask j)) :=
  schedule_search h.current_nonneg h.current_lt

lemma switchTo_inv {s s' : Machine} {t : Int} (h : Inv s) (sw : Switches s s' t) : Inv s' := by
  obtain ⟨h0, hlt, hne, _, rfl⟩ := sw
  have hcur := switchTo_currentTask s hne
  have hnum := switchTo_numTasks s hne
  refine ⟨hcur ▸ h0, by omega, hnum ▸ h.num_le, fun i hi hmax => ?_, fun i hi hmax => ?_,
    fun i hi hmax hr => ?_⟩
  · rw [switchTo_pid s hne]
    exact h.pid i hi hmax
  · have hcurrent := h.current_lt
    rw [switchTo_state s hne, if_neg (by omega), if_neg (by omega)]
    exact h.unused i (by omega) hmax
  · -- a task other than the entered one is not running afterwards
    rw [hcur]
    by_contra hit
    rw [switchTo_state s hne, if_neg hit] at hr
    split_ifs at hr with hrun
    exact hrun ⟨h.running i hi hmax hr, hr⟩

lemma schedule_inv {s : Machine} (h : Inv s) : ∃ s', schedule s = some s' ∧ Inv s' := by
  rcases schedule_cases h with ⟨e, _⟩ | ⟨j, _, _, _, sw, e⟩
  · exact ⟨s, e, h⟩
  · exact ⟨_, e, switchTo_inv h sw⟩

lemma schedule_numTasks {s s' : Machine} (h : Inv s) (e : schedule s = some s') :
    s'.numTasks = s.numTasks := by
  rcases schedule_cases h with ⟨e', _⟩ | ⟨j, _, _, _, sw, e'⟩
  · obtain rfl : s = s' := Option.some.inj (e'.symm.trans e)
    rfl
  · rw [← Option.some.inj (e'.symm.trans e), switchTo_numTasks s sw.ne]

/-- Yielding is scheduling: with one task there is nothing to schedule. -/
lemma taskYield_eq (s : Machine) : taskYield s = schedule s := by
  unfold taskYield
  split
  · rfl
  · unfold schedule
    rw [if_pos (by omega)]

lemma schedTick_eq (s : Machine) : schedTick s = schedule s := taskYield_eq s

lemma setState_unused_inv {s : Machine} (h : Inv s) : Inv (s.setState s.currentTask .unused) := by
  refine ⟨h.current_nonneg, h.current_lt, h.num_le, fun i hi hmax => ?_, fun i hi hmax => ?_,
    fun i hi hmax hr => ?_⟩
  · rcases eq_or_ne i s.currentTask with rfl | hne
    · simpa [Machine.setState, Machine.setTask] using h.pid _ hi hmax
    · simpa [Machine.setState, Machine.setTask, hne] using h.pid i hi hmax
  · rcases eq_or_ne i s.currentTask with rfl | hne
    · simp [Machine.setState, Machine.setTask]
    · simpa [Machine.setState, Machine.setTask, hne] using h.unused i hi hmax
  · rcases eq_or_ne i s.currentTask with rfl | hne
    · rfl
    · refine h.running i hi hmax ?_
      simpa [Machine.setState, Machine.setTask, hne] using hr

lemma sysExit_eq {s : Machine} (h : Inv s) :
    sysExit s = schedule (s.setState s.currentTask .unused) := by
  have hlt := h.current_lt
  have hnum := h.num_le
  unfold sysExit
  rw [if_pos ⟨h.current_nonneg, by omega⟩, taskYield_eq]

lemma createTask_inv (img : Image) {s : Machine} (h : Inv s) (entry : UInt64) :
    Inv (createTask img s entry).2 := by
  have hc := h.current_nonneg
  have hlt := h.current_lt
  unfold createTask
  by_cases hfull : maxTasks ≤ s.numTasks
  · rw [if_pos hfull]
    exact h
  · rw [if_neg hfull]
    refine ⟨hc, ?_, ?_, fun i hi hmax => ?_, fun i hi hmax => ?_, fun i hi hmax hr => ?_⟩
    · exact hlt.trans (Int.lt_succ _)
    · exact Int.add_one_le_of_lt (not_le.mp hfull)
    · rcases eq_or_ne i s.numTasks with rfl | hne
      · simp [Machine.setTask]
      · simpa [Machine.setTask, hne] using h.pid i hi hmax
    · have hi' : s.numTasks < i := Int.lt_of_add_one_le hi
      have hne : i ≠ s.numTasks := hi'.ne'
      simpa [Machine.setTask, hne] using h.unused i hi'.le hmax
    · have hne : i ≠ s.numTasks := by
        rintro rfl
        simp [Machine.setTask] at hr
      refine h.running i hi hmax ?_
      simpa [Machine.setTask, hne] using hr

/-! ## Runs -/

/-- What the system does between switches and to cause them; `compute` is the running task (or the
kernel code it is in) leaving other values in its registers. -/
inductive SchedOp where
  | createTask (entry : UInt64)
  | schedule
  | taskYield
  | schedTick
  | sysExit
  | compute (regs : Regs)

def step (img : Image) (s : Machine) : SchedOp → Option Machine
  | .createTask entry => some (createTask img s entry).2
  | .schedule => schedule s
  | .taskYield => taskYield s
  | .schedTick => schedTick s
  | .sysExit => sysExit s
  | .compute regs => some { s with regs := regs }

/-- The current task stays, no task goes away, and the saved contexts stay as they are. -/
structure Stays (s s' : Machine) : Prop where
  current : s'.currentTask = s.currentTask
  grows : s.numTasks ≤ s'.numTasks
  context : ∀ i, i < s.numTasks → (s'.tasks i).context = (s.tasks i).context

lemma Stays.refl (s : Machine) : Stays s s := ⟨rfl, le_rfl, fun _ _ => rfl⟩

lemma stays_setState_unused (s : Machine) : Stays s (s.setState s.currentTask .unused) := by
  refine ⟨rfl, le_rfl, fun i _ => ?_⟩
  rcases eq_or_ne i s.currentTask with rfl | hne
  · simp [Machine.setState, Machine.setTask]
  · simp [Machine.setState, Machine.setTask, hne]

lemma createTask_stays (img : Image) (s : Machine) (entry : UInt64) :
    Stays s (createTask img s entry).2 := by
  unfold createTask
  split
  · exact .refl s
  · refine ⟨rfl, (Int.lt_succ s.numTasks).le, fun i hi => ?_⟩
    simp [Machine.setTask, hi.ne]

/-- A step either stays with the current task or switches once, from the table as it is or with the
current task marked unused. -/
lemma step_cases (img : Image) {s : Machine} (h : Inv s) (op : SchedOp) :
    (∃ s', step img s op = some s' ∧ Inv s' ∧ Stays s s') ∨
    ∃ s₁ s' t, step img s op = some s' ∧ Inv s₁ ∧ Switches s₁ s' t ∧
      (s₁ = s ∨ s₁ = s.setState s.currentTask .unused) := by
  have hsched : ∀ s₁, Inv s₁ → (s₁ = s ∨ s₁ = s.setState s.currentTask .unused) →
      step img s op = schedule s₁ →
      (∃ s', step img s op = some s' ∧ Inv s' ∧ Stays s s') ∨
      ∃ s₁ s' t, step img s op = some s' ∧ Inv s₁ ∧ Switches s₁ s' t ∧
        (s₁ = s ∨ s₁ = s.setState s.currentTask .unused) := by
    intro s₁ h₁ hs₁ e
    rcases schedule_cases h₁ with ⟨e', _⟩ | ⟨j, _, _, _, sw, e'⟩
    · left
      refine ⟨s₁, e.trans e', h₁, ?_⟩
      rcases hs₁ with rfl | rfl
      · exact .refl s₁
      · exact stays_setState_unused s
    · right
      exact ⟨s₁, _, _, e.trans e', h₁, sw, hs₁⟩
  cases op with
  | createTask entry =>
    left
    exact ⟨_, rfl, createTask_inv img h entry, createTask_stays img s entry⟩
  | schedule => exact hsched s h (.inl rfl) rfl
  | taskYield => exact hsched s h (.inl rfl) (taskYield_eq s)
  | schedTick => exact hsched s h (.inl rfl) (schedTick_eq s)
  | sysExit => exact hsched _ (setState_unused_inv h) (.inr rfl) (sysExit_eq h)
  | compute regs =>
    left
    refine ⟨_, rfl, ?_, rfl, le_rfl, fun _ _ => rfl⟩
    exact ⟨h.current_nonneg, h.current_lt, h.num_le, h.pid, h.unused, h.running⟩

lemma step_inv (img : Image) (s : Machine) (op : SchedOp) (h : Inv s) :
    ∃ s', step img s op = some s' ∧ Inv s' := by
  rcases step_cases img h op with ⟨s', e, h', _⟩ | ⟨s₁, s', t, e, h₁, sw, _⟩
  · exact ⟨s', e, h'⟩
  · exact ⟨s', e, switchTo_inv h₁ sw⟩

/-- Only `create_task` changes the number of tasks. -/
lemma step_numTasks (img : Image) {s s' : Machine} (h : Inv s) {op : SchedOp}
    (hop : ∀ entry, op ≠ .createTask entry) (e : step img s op = some s') :
    s'.numTasks = s.numTasks := by
  cases op with
  | createTask entry => exact absurd rfl (hop entry)
  | schedule => exact schedule_numTasks h e
  | taskYield => exact schedule_numTasks h ((taskYield_eq s).symm.trans e)
  | schedTick => exact schedule_numTasks h ((schedTick_eq s).symm.trans e)
  | sysExit =>
    have e' : schedule (s.setState s.currentTask .unused) = some s' := (sysExit_eq h).symm.trans e
    have hnum := schedule_numTasks (setState_unused_inv h) e'
    exact hnum
  | compute regs =>
    obtain rfl := Option.some.inj e
    rfl

/-- The machine after `sched_init`, with any registers. -/
abbrev initial (img : Image) (regs : Regs) : Machine := schedInit img (bootSched regs)

/-- The run of a list of operations after `sched_init`. -/
abbrev run (img : Image) (regs : Regs) (ops : List SchedOp) : Option Machine :=
  Run.run (step img) (initial img regs) ops

/-- The table after `sched_init`: three ready tasks. -/
lemma initial_tasks (img : Image) (regs : Regs) {i : Int} (h0 : 0 ≤ i) (hi : i < maxTasks) :
    ((initial img regs).tasks i).pid = i ∧
      ((initial img regs).tasks i).state = if i < 3 then .ready else .unused := by
  have e : (initial img regs).tasks i = Function.update (Function.update (Function.update
      (fun i => if 0 ≤ i ∧ i < maxTasks then
        { (bootSched regs).tasks i with state := .unused, pid := i } else (bootSched regs).tasks i)
      0 ⟨0, .ready, _⟩) 1 ⟨1, .ready, _⟩) 2 ⟨2, .ready, _⟩ i := rfl
  rw [e]
  rcases eq_or_ne i 2 with rfl | h2
  · simp
  · rcases eq_or_ne i 1 with rfl | h1
    · simp
    · rcases eq_or_ne i 0 with rfl | hne
      · simp
      · have h3 : ¬i < 3 := by omega
        simp [h2, h1, hne, h0, hi, h3]

lemma initial_inv (img : Image) (regs : Regs) : Inv (initial img regs) := by
  have hnum : (initial img regs).numTasks = 3 := rfl
  have hcur : (initial img regs).currentTask = 0 := rfl
  refine ⟨hcur.ge, ?_, ?_, fun i h0 hi => ?_, fun i h3 hi => ?_, fun i h0 hi hr => ?_⟩
  · rw [hcur, hnum]
    decide
  · rw [hnum]
    decide
  · exact (initial_tasks img regs h0 hi).1
  · rw [hnum] at h3
    rw [(initial_tasks img regs (by omega) hi).2, if_neg (by omega)]
  · rw [(initial_tasks img regs h0 hi).2] at hr
    split_ifs at hr

lemma run_inv (img : Image) (regs : Regs) (ops : List SchedOp) :
    ∃ s, run img regs ops = some s ∧ Inv s :=
  Run.inv (step_inv img) ops (initial_inv img regs)

/-! ## The claims about every run -/

/-- The search of `schedule` ends after at most `num_tasks - 1` steps, that is `num_tasks` tests of
the loop condition. -/
def SearchEnds (s : Machine) : Prop :=
  1 < s.numTasks →
    ∃ t, search s s.numTasks.toNat ((s.currentTask + 1).tmod s.numTasks) = some t

/-- The current task of `s'` was ready in `s`, and it is the one task running in `s'`. -/
def Entered (s s' : Machine) : Prop :=
  (s.tasks s'.currentTask).state = .ready ∧
    ∀ i, 0 ≤ i → i < maxTasks → ((s'.tasks i).state = .running ↔ i = s'.currentTask)

lemma Inv.searchEnds {s : Machine} (h : Inv s) : SearchEnds s := by
  intro hlt
  cases hsearch : search s s.numTasks.toNat ((s.currentTask + 1).tmod s.numTasks) with
  | some t => exact ⟨t, rfl⟩
  | none =>
    obtain ⟨s', e, _⟩ := schedule_inv h
    unfold schedule at e
    rw [if_neg (by omega), hsearch] at e
    cases e

lemma Switches.running_iff {s s' : Machine} {t : Int} (h : Inv s) (sw : Switches s s' t) {i : Int}
    (h0 : 0 ≤ i) (hi : i < maxTasks) : (s'.tasks i).state = .running ↔ i = s'.currentTask := by
  have h' := switchTo_inv h sw
  obtain ⟨_, _, hne, _, rfl⟩ := sw
  refine ⟨h'.running i h0 hi, ?_⟩
  rw [switchTo_currentTask s hne]
  rintro rfl
  rw [switchTo_state s hne, if_pos rfl]

lemma step_entered (img : Image) {s s' : Machine} (h : Inv s) {op : SchedOp}
    (e : step img s op = some s') (hne : s'.currentTask ≠ s.currentTask) : Entered s s' := by
  rcases step_cases img h op with ⟨s₂, e', _, hsame⟩ | ⟨s₁, s₂, t, e', h₁, sw, hs₁⟩
  · obtain rfl : s₂ = s' := Option.some.inj (e'.symm.trans e)
    exact absurd hsame.current hne
  · obtain rfl : s₂ = s' := Option.some.inj (e'.symm.trans e)
    refine ⟨?_, fun i h0 hi => sw.running_iff h₁ h0 hi⟩
    obtain ⟨_, _, hcur, hready, rfl⟩ := sw
    rw [switchTo_currentTask s₁ hcur]
    rcases hs₁ with rfl | rfl
    · exact hready
    · have hother : t ≠ s.currentTask := hcur
      simpa [Machine.setState, Machine.setTask, hother] using hready

/-- The scheduler invariant holds after any operations, each of which ends, and every switch enters
a ready task and leaves it the only one running. -/
theorem scheduler_invariant (img : Image) (regs : Regs) (ops : List SchedOp) :
    ∃ s, run img regs ops = some s ∧ Inv s ∧ SearchEnds s ∧
      ∀ op, ∃ s', step img s op = some s' ∧
        (s'.currentTask ≠ s.currentTask → Entered s s') := by
  obtain ⟨s, hrun, h⟩ := run_inv img regs ops
  refine ⟨s, hrun, h, h.searchEnds, fun op => ?_⟩
  obtain ⟨s', e, _⟩ := step_inv img s op h
  exact ⟨s', e, step_entered img h e⟩

end Hydra.Sched
