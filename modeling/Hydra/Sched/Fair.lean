import Hydra.Sched.Invariant

/-!
# Round robin

Every call of the scheduler moves on to the first ready task behind the current one in cyclic order
(`step_roundRobin`). So the cyclic distance of a ready task to the current one gets smaller with
every call, until the task is entered: it cannot be jumped over, because the search would have
stopped there. This bounds the number of calls a ready task waits (`no_starvation`), whatever the
tasks in front of it do, exits included.
-/

namespace Hydra.Sched
open Hydra.Ipc (maxTasks)

/-- The operations that call the scheduler. -/
def SchedOp.isCall : SchedOp → Bool
  | .schedule | .taskYield | .schedTick | .sysExit => true
  | .createTask _ | .compute _ => false

/-- The number of calls of the scheduler among the operations. -/
def calls (ops : List SchedOp) : Nat := ops.countP SchedOp.isCall

/-- The table in which a call searches: `SYS_EXIT` first marks the running task unused. -/
def searched (s : Machine) : SchedOp → Machine
  | .sysExit => s.setState s.currentTask .unused
  | _ => s

/-- The task `k` places behind the current one. -/
def behind (s : Machine) (k : Int) : Int := (s.currentTask + k) % s.numTasks

/-- How many places behind the current task a task is. -/
def distance (s : Machine) (u : Int) : Nat := ((u - s.currentTask) % s.numTasks).toNat

/-- The first ready task behind the current one is entered; without one nothing changes. -/
def RoundRobin (s s' : Machine) : Prop :=
  (∃ k, 1 ≤ k ∧ k < s.numTasks ∧ s'.currentTask = behind s k ∧
    (s.tasks (behind s k)).state = .ready ∧
    ∀ i, 1 ≤ i → i < k → (s.tasks (behind s i)).state ≠ .ready) ∨
  (∀ i, 1 ≤ i → i < s.numTasks → (s.tasks (behind s i)).state ≠ .ready) ∧ s' = s

/-- The task `u` waits for the processor. -/
structure Waits (s : Machine) (u : Int) : Prop where
  nonneg : 0 ≤ u
  lt : u < s.numTasks
  ready : (s.tasks u).state = .ready
  ne : u ≠ s.currentTask

/-! ## Cyclic order -/

section Cyclic

variable {s : Machine} {u k : Int}

lemma behind_eq_cyc (h : Inv s) (hk : 0 ≤ k) (hkn : k ≤ s.numTasks) :
    behind s k = cyc s.numTasks s.currentTask k := by
  have hc := h.current_nonneg
  have hn := h.current_lt
  unfold behind cyc
  split
  · exact Int.emod_eq_of_lt (by omega) (by omega)
  · rw [← Int.sub_emod_right]
    exact Int.emod_eq_of_lt (by omega) (by omega)

lemma distance_eq (h : Inv s) (hu : 0 ≤ u) (hlt : u < s.numTasks) :
    (distance s u : Int) =
      if s.currentTask ≤ u then u - s.currentTask else u - s.currentTask + s.numTasks := by
  have hc := h.current_nonneg
  have hn := h.current_lt
  unfold distance
  split
  · rw [Int.emod_eq_of_lt (by omega) (by omega)]
    omega
  · rw [← Int.add_emod_right, Int.emod_eq_of_lt (by omega) (by omega)]
    omega

/-- A waiting task is as many places behind the current one as its distance says. -/
lemma Waits.cyc_distance (h : Inv s) (w : Waits s u) :
    cyc s.numTasks s.currentTask (distance s u) = u ∧ 1 ≤ distance s u ∧
      (distance s u : Int) < s.numTasks := by
  have hd := distance_eq h w.nonneg w.lt
  have hc := h.current_nonneg
  have hn := h.current_lt
  have hne := w.ne
  have h0 := w.nonneg
  have hlt := w.lt
  unfold cyc
  split_ifs at hd ⊢ <;> omega

/-- A task in front of a waiting one is nearer to it. -/
lemma nearer {n c j d d' : Int} (hlt : u < n) (hj : 1 ≤ j) (hjd : j < d)
    (hd : d = if c ≤ u then u - c else u - c + n)
    (hd' : d' = if cyc n c j ≤ u then u - cyc n c j else u - cyc n c j + n) : d' < d := by
  unfold cyc at hd'
  split_ifs at hd hd' <;> omega

end Cyclic

/-! ## One call -/

lemma searched_inv {s : Machine} (h : Inv s) (op : SchedOp) : Inv (searched s op) := by
  cases op with
  | sysExit => exact setState_unused_inv h
  | _ => exact h

/-- A call is a search in the table it leaves. -/
lemma step_call (img : Image) {s : Machine} (h : Inv s) {op : SchedOp} (hop : op.isCall) :
    step img s op = schedule (searched s op) := by
  cases op with
  | schedule => rfl
  | taskYield => exact taskYield_eq s
  | schedTick => exact schedTick_eq s
  | sysExit => exact sysExit_eq h
  | createTask entry => cases hop
  | compute regs => cases hop

lemma schedule_roundRobin {s : Machine} (h : Inv s) :
    ∃ s', schedule s = some s' ∧ RoundRobin s s' := by
  rcases schedule_cases h with ⟨e, hnone⟩ | ⟨j, hj, hjn, hskip, sw, e⟩
  · refine ⟨s, e, .inr ⟨fun i hi hin => ?_, rfl⟩⟩
    rw [behind_eq_cyc h (by omega) hin.le]
    exact hnone i hi hin
  · refine ⟨_, e, .inl ⟨j, hj, hjn, ?_, ?_, fun i hi hij => ?_⟩⟩
    · rw [behind_eq_cyc h (by omega) hjn.le, switchTo_currentTask s sw.ne]
    · rw [behind_eq_cyc h (by omega) hjn.le]
      exact sw.ready
    · rw [behind_eq_cyc h (by omega) (by omega)]
      exact hskip i hi hij

lemma searched_waits {s : Machine} {u : Int} (w : Waits s u) (op : SchedOp) :
    Waits (searched s op) u ∧ distance (searched s op) u = distance s u := by
  cases op with
  | sysExit =>
    refine ⟨⟨w.nonneg, w.lt, ?_, w.ne⟩, rfl⟩
    have hne := w.ne
    simpa [searched, Machine.setState, Machine.setTask, hne] using w.ready
  | _ => exact ⟨w, rfl⟩

/-- A search with a waiting task enters it, or a task in front of it. -/
lemma schedule_waits {s s' : Machine} {u : Int} (h : Inv s) (w : Waits s u)
    (e : schedule s = some s') :
    s'.currentTask = u ∨ Waits s' u ∧ distance s' u < distance s u := by
  obtain ⟨hu, hd1, hdn⟩ := w.cyc_distance h
  have hd1' : (1 : Int) ≤ distance s u := Int.ofNat_le.mpr hd1
  rcases schedule_cases h with ⟨_, hnone⟩ | ⟨j, hj, hjn, hskip, sw, e'⟩
  · have hno := hnone (distance s u) hd1' hdn
    rw [hu] at hno
    exact absurd w.ready hno
  · obtain rfl := Option.some.inj (e'.symm.trans e)
    have hcur := switchTo_currentTask s sw.ne
    have hnum := switchTo_numTasks s sw.ne
    by_cases hju : cyc s.numTasks s.currentTask j = u
    · left
      rw [hcur, hju]
    · right
      -- the search would have stopped at the waiting task
      have hjd : j < distance s u := by
        by_contra hle
        rcases lt_or_eq_of_le (not_lt.mp hle) with hlt | heq
        · have hno := hskip (distance s u) hd1' hlt
          rw [hu] at hno
          exact hno w.ready
        · exact hju (heq ▸ hu)
      have hw : Waits (switchTo s (cyc s.numTasks s.currentTask j)) u := by
        refine ⟨w.nonneg, w.lt.trans_eq hnum.symm, ?_, ?_⟩
        · rw [switchTo_state s sw.ne, if_neg (Ne.symm hju)]
          split
          · rfl
          · exact w.ready
        · rw [hcur]
          exact Ne.symm hju
      have hd' := distance_eq (switchTo_inv h sw) hw.nonneg hw.lt
      have hd := distance_eq h w.nonneg w.lt
      rw [hcur, hnum] at hd'
      have hlt := nearer w.lt hj hjd hd hd'
      exact ⟨hw, Int.ofNat_lt.mp hlt⟩

/-- One step: a call brings the waiting task nearer, the rest leaves its distance. -/
lemma step_waits (img : Image) {s s' : Machine} {u : Int} (h : Inv s) (w : Waits s u) {op : SchedOp}
    (hop : ∀ entry, op ≠ .createTask entry) (e : step img s op = some s') :
    s'.currentTask = u ∨
      Waits s' u ∧ distance s' u + (if op.isCall then 1 else 0) ≤ distance s u := by
  by_cases hcall : op.isCall
  · obtain ⟨w', hd⟩ := searched_waits w op
    rw [step_call img h hcall] at e
    rw [if_pos hcall]
    rcases schedule_waits (searched_inv h op) w' e with hcur | ⟨hw, hlt⟩
    · exact .inl hcur
    · exact .inr ⟨hw, by omega⟩
  · cases op with
    | createTask entry => exact absurd rfl (hop entry)
    | compute regs =>
      obtain rfl := Option.some.inj e
      exact .inr ⟨⟨w.nonneg, w.lt, w.ready, w.ne⟩, le_rfl⟩
    | _ => exact absurd rfl hcall

/-! ## Runs of calls -/

/-- With enough calls the waiting task is entered, after no more calls than its distance. -/
lemma run_waits (img : Image) {s : Machine} {u : Int} (h : Inv s) (w : Waits s u)
    {ops : List SchedOp} (hops : ∀ entry, .createTask entry ∉ ops)
    (hcalls : distance s u ≤ calls ops) :
    ∃ pre s', pre <+: ops ∧ calls pre ≤ distance s u ∧ Run.run (step img) s pre = some s' ∧
      s'.currentTask = u := by
  induction ops generalizing s with
  | nil =>
    have hpos := (w.cyc_distance h).2.1
    have hzero : distance s u ≤ 0 := hcalls
    omega
  | cons op ops ih =>
    obtain ⟨s₁, e, h₁⟩ := step_inv img s op h
    have hop : ∀ entry, op ≠ .createTask entry := fun entry heq => hops entry (by simp [heq])
    have hcons : ∀ l, calls (op :: l) = calls l + if op.isCall then 1 else 0 := fun l =>
      List.countP_cons
    rw [hcons] at hcalls
    have hpos := (w.cyc_distance h).2.1
    rcases step_waits img h w hop e with hcur | ⟨w₁, hd⟩
    · refine ⟨[op], s₁, ⟨ops, rfl⟩, ?_, Run.run_cons e, hcur⟩
      rw [hcons]
      have hnil : calls [] = 0 := rfl
      split <;> omega
    · obtain ⟨pre, s', hpre, hle, hrun, hcur⟩ := ih h₁ w₁
        (fun entry hmem => hops entry (List.mem_cons_of_mem op hmem)) (by omega)
      refine ⟨op :: pre, s', List.cons_prefix_cons.mpr ⟨rfl, hpre⟩, ?_, (Run.run_cons e).trans hrun,
        hcur⟩
      rw [hcons]
      omega

/-- In every reachable state each call of the scheduler enters the first ready task behind the
current one, or changes nothing if there is none, and a ready task is entered after at most as many
calls as it is places behind the current one. -/
theorem no_starvation (img : Image) (regs : Regs) (ops : List SchedOp) :
    ∃ s, run img regs ops = some s ∧
      (∀ op, op.isCall → ∃ s', step img s op = some s' ∧ RoundRobin (searched s op) s') ∧
      ∀ u, 0 ≤ u → u < maxTasks → u ≠ s.currentTask → (s.tasks u).state = .ready →
        ∀ ops', (∀ entry, .createTask entry ∉ ops') → distance s u ≤ calls ops' →
          ∃ pre s', pre <+: ops' ∧ calls pre ≤ distance s u ∧
            Run.run (step img) s pre = some s' ∧ s'.currentTask = u := by
  obtain ⟨s, hrun, h⟩ := run_inv img regs ops
  refine ⟨s, hrun, fun op hop => ?_, fun u h0 hmax hne hready ops' hops hcalls => ?_⟩
  · rw [step_call img h hop]
    exact schedule_roundRobin (searched_inv h op)
  · have hlt : u < s.numTasks := by
      by_contra hge
      rw [h.unused u (not_lt.mp hge) hmax] at hready
      cases hready
    exact run_waits img h ⟨h0, hlt, hready, hne⟩ hops hcalls

/-- The third task after `sched_init`, with the second one exiting in front of it. -/
theorem no_starvation_third :
    ∃ pre s', pre <+: [.schedule, .sysExit] ∧
      calls pre ≤ distance (initial ⟨0, 0, 0, 0⟩ fun _ => 0) 2 ∧
      Run.run (step ⟨0, 0, 0, 0⟩) (initial ⟨0, 0, 0, 0⟩ fun _ => 0) pre = some s' ∧
      s'.currentTask = 2 := by
  obtain ⟨s, hrun, _, hwait⟩ := no_starvation ⟨0, 0, 0, 0⟩ (fun _ => 0) []
  obtain rfl := Option.some.inj hrun
  exact hwait 2 (by decide) (by decide) (by decide) rfl [.schedule, .sysExit] (by simp)
    (by decide +kernel)

end Hydra.Sched
