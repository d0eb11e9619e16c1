import Hydra.Ipc.Delivery
import Hydra.Sched.Invariant

/-!
# Queues and tasks

The scheduler and the message system share nothing but the pid of the current task. A send is
checked against the range of the pids, not against the task table, and SYS_EXIT leaves the queue of
the task as it is. So a message may wait for a task that was never created or is gone, and its slot
waits with it.

`queued_for_live` says what holds of every interleaving of the two, and which interleavings strand
no slot: those in which each message that is sent names a live task, and each task takes its
messages before it exits.
-/

namespace Hydra.Kernel
open ByteMem Linked Mailbox Hydra.Ipc
open Hydra.Sched (Machine Image Regs SchedOp Inv)

/-- The scheduler and the message system. -/
structure State where
  machine : Machine
  ipc : IpcState

/-- An operation of the scheduler, or a call of the message system by the current task. -/
inductive Op where
  | sched (op : SchedOp)
  | sendMessage (receiverPid : Int) (data : Option Mem) (size : Int)
  | recvMessage (senderPid : Int) (buffer : Option Mem) (maxSize : Int)

def step (img : Image) (k : State) : Op → Option State
  | .sched op => (Sched.step img k.machine op).map fun s => { k with machine := s }
  | .sendMessage r data size =>
    some { k with ipc := (Ipc.sendMessage k.ipc k.machine.currentTask r data size).2 }
  | .recvMessage sender buffer maxSize =>
    some { k with ipc := (Ipc.recvMessage k.ipc k.machine.currentTask sender buffer maxSize).state }

/-- The run of a list of operations after `sched_init`, from a state of the message system. -/
abbrev run (img : Image) (regs : Regs) (s₀ : IpcState) (ops : List Op) : Option State :=
  Run.run (step img) ⟨Sched.initial img regs, s₀⟩ ops

/-- The task has been created and has not exited. -/
def Live (s : Machine) (t : Int) : Prop :=
  0 ≤ t ∧ t < s.numTasks ∧ (s.tasks t).state ≠ .unused

/-- A message that is sent goes to a live task, and a task that exits has taken all its messages. -/
def Tidy (k : State) : Op → Prop
  | .sched .sysExit => k.ipc.pending k.machine.currentTask = []
  | .sched _ => True
  | .sendMessage r data size =>
    (Ipc.sendMessage k.ipc k.machine.currentTask r data size).1 = 0 → Live k.machine r
  | .recvMessage _ _ _ => True

/-! ## Live tasks -/

section Live

variable {img : Image} {s s' : Machine} {t : Int}

lemma Live.switchTo {u : Int} (h : Live s t) (hu : u ≠ s.currentTask) :
    Live (Sched.switchTo s u) t := by
  obtain ⟨h0, hlt, hstate⟩ := h
  refine ⟨h0, ?_, ?_⟩
  · rw [Sched.switchTo_numTasks s hu]
    exact hlt
  · rw [Sched.switchTo_state s hu]
    split
    · nofun
    · split
      · nofun
      · exact hstate

lemma Live.schedule (hi : Inv s) (h : Live s t) (e : Sched.schedule s = some s') : Live s' t := by
  rcases Sched.schedule_cases hi with ⟨e', _⟩ | ⟨j, _, _, _, sw, e'⟩
  · obtain rfl := Option.some.inj (e'.symm.trans e)
    exact h
  · obtain rfl := Option.some.inj (e'.symm.trans e)
    exact h.switchTo sw.ne

/-- A live task stays live unless it exits. -/
lemma Live.step (hi : Inv s) (h : Live s t) {op : SchedOp}
    (hop : op = .sysExit → t ≠ s.currentTask) (e : Sched.step img s op = some s') : Live s' t := by
  cases op with
  | createTask entry =>
    obtain rfl := Option.some.inj e
    obtain ⟨h0, hlt, hstate⟩ := h
    unfold Sched.createTask
    split
    · exact ⟨h0, hlt, hstate⟩
    · refine ⟨h0, hlt.trans (Int.lt_succ _), ?_⟩
      simpa [Machine.setTask, hlt.ne] using hstate
  | schedule => exact h.schedule hi e
  | taskYield => exact h.schedule hi ((Sched.taskYield_eq s).symm.trans e)
  | schedTick => exact h.schedule hi ((Sched.schedTick_eq s).symm.trans e)
  | sysExit =>
    have hne := hop rfl
    have hgone : Live (s.setState s.currentTask .unused) t := by
      obtain ⟨h0, hlt, hstate⟩ := h
      refine ⟨h0, hlt, ?_⟩
      simpa [Machine.setState, Machine.setTask, hne] using hstate
    exact hgone.schedule (Sched.setState_unused_inv hi) ((Sched.sysExit_eq hi).symm.trans e)
  | compute regs =>
    obtain rfl := Option.some.inj e
    exact h

end Live

/-! ## Runs -/

/-- The scheduler and the message system are each consistent. -/
structure KernelInv (S : Set Nat) (k : State) : Prop where
  machine : Inv k.machine
  ipc : ∃ free box, Rep S k.ipc free box

/-- Every queued message is for a live task. -/
def NoneStranded (k : State) : Prop := ∀ r, k.ipc.pending r ≠ [] → Live k.machine r

/-- What a tidy run keeps. -/
structure TidyInv (S : Set Nat) (k : State) : Prop where
  kernel : KernelInv S k
  live : NoneStranded k

lemma step_inv (img : Image) {S : Set Nat} (k : State) (op : Op) (h : KernelInv S k) :
    ∃ k', step img k op = some k' ∧ KernelInv S k' := by
  obtain ⟨hi, free, box, hrep⟩ := h
  cases op with
  | sched op =>
    obtain ⟨s', e, hi'⟩ := Sched.step_inv img k.machine op hi
    exact ⟨_, Option.map_eq_some_iff.mpr ⟨s', e, rfl⟩, hi', free, box, hrep⟩
  | sendMessage r data size => exact ⟨_, rfl, hi, sendMessage_rep hrep _ r data size⟩
  | recvMessage sender buffer maxSize =>
    exact ⟨_, rfl, hi, recvMessage_rep hrep _ sender buffer maxSize⟩

/-- A tidy step strands no message. -/
lemma step_noneStranded (img : Image) {S : Set Nat} {k k' : State} {op : Op} (h : KernelInv S k)
    (hlive : NoneStranded k) (htidy : Tidy k op) (e : step img k op = some k') : NoneStranded k' := by
  obtain ⟨hi, free, box, hrep⟩ := h
  have hpending := hrep.pending_eq
  cases op with
  | sched op =>
    obtain ⟨s', e', rfl⟩ := Option.map_eq_some_iff.mp e
    intro r hr
    refine (hlive r hr).step hi (fun hexit => ?_) e'
    subst hexit
    -- the task that exits has no messages
    rintro rfl
    exact hr htidy
  | sendMessage r data size =>
    obtain rfl := Option.some.inj e
    intro q hq
    rcases sendMessage_cases hrep k.machine.currentTask r data size with
      ⟨e', _⟩ | ⟨f, free', src, s', _, _, _, e', hrep'⟩
    · simp only [e'] at hq
      exact hlive q hq
    · simp only [e', hrep'.pending_eq] at hq
      rcases eq_or_ne q r with rfl | hne
      · exact htidy (congrArg Prod.fst e')
      · rw [post_of_ne box hne, ← hpending] at hq
        exact hlive q hq
  | recvMessage sender buffer maxSize =>
    obtain rfl := Option.some.inj e
    intro q hq
    rcases recvMessage_cases hrep k.machine.currentTask sender buffer maxSize with
      ⟨e', _⟩ | ⟨a, l, dst, s', _, _, _, e', hrep'⟩
    · simp only [e'] at hq
      exact hlive q hq
    · simp only [e', hrep'.pending_eq] at hq
      apply hlive
      rw [hpending]
      intro hnil
      obtain ⟨b, hb⟩ := List.exists_mem_of_ne_nil _ hq
      have hold := mem_of_mem_take hb
      rw [hnil] at hold
      cases hold

/-- The receives by which a task takes `n` messages. -/
def takeAll (t : Int) : Nat → IpcState → IpcState
  | 0, s => s
  | n + 1, s => takeAll t n (Ipc.recvMessage s t (-1) (some fun _ => 0) maxMessageSize).state

/-- A task can take all its messages, and their slots return to the pool. -/
lemma takeAll_spec {S : Set Nat} {s : IpcState} {free : List Nat} {box : Int → List Letter}
    (h : Rep S s free box) {t : Int} (ht : 0 ≤ t ∧ t < maxTasks) {l : List Letter}
    (hb : box t = l) :
    Rep S (takeAll t l.length s) ((l.map Letter.slot).reverse ++ free) (Function.update box t []) := by
  induction l generalizing s free box with
  | nil =>
    have hsame : Function.update box t [] = box := by
      rw [← hb]
      exact Function.update_eq_self t box
    rw [hsame]
    exact h
  | cons a l ih =>
    have hok : Receivable t (some fun _ => 0) maxMessageSize := ⟨rfl, by decide, ht⟩
    obtain ⟨s', e, h'⟩ := recvMessage_take h hok hb (-1)
    have htake : take box t t = l := by rw [take_self, hb, List.tail_cons]
    have hrest := ih h' htake
    rw [take, Function.update_idem] at hrest
    rw [List.length_cons, takeAll, e, List.map_cons, List.reverse_cons, List.append_assoc]
    exact hrest

lemma run_inv (img : Image) (regs : Regs) {n : Nat} {s₀ : IpcState} (h₀ : Initial n s₀)
    (ops : List Op) : ∃ S k, run img regs s₀ ops = some k ∧ KernelInv S k := by
  obtain ⟨slots, _, hrep⟩ := h₀.rep
  have hinit : KernelInv {p | p ∈ slots} ⟨Sched.initial img regs, s₀⟩ :=
    ⟨Sched.initial_inv img regs, _, _, hrep⟩
  exact ⟨_, Run.inv (step_inv img) ops hinit⟩

lemma run_noneStranded (img : Image) (regs : Regs) {n : Nat} {s₀ : IpcState} (h₀ : Initial n s₀)
    {ops : List Op} (htidy : Run.Admissible (step img) Tidy ⟨Sched.initial img regs, s₀⟩ ops)
    {k : State} (hrun : run img regs s₀ ops = some k) : NoneStranded k := by
  obtain ⟨slots, _, hrep⟩ := h₀.rep
  have hinit : TidyInv {p | p ∈ slots} ⟨Sched.initial img regs, s₀⟩ := by
    refine ⟨⟨Sched.initial_inv img regs, _, _, hrep⟩, fun r hr => absurd ?_ hr⟩
    rw [hrep.pending_eq]
  have hstep : ∀ k op, TidyInv {p | p ∈ slots} k → Tidy k op →
      ∃ k', step img k op = some k' ∧ TidyInv {p | p ∈ slots} k' := by
    intro k op h hop
    obtain ⟨k', e, h'⟩ := step_inv img k op h.kernel
    exact ⟨k', e, h', step_noneStranded img h.kernel h.live hop e⟩
  exact (htidy.inv_of_run hrun hinit hstep).live

/-- In every interleaving, a message may be queued for any of the eight pids and is accepted whether
or not there is such a task; what the scheduler does, an exit included, leaves the queues as they
are; and the receives of the pid it is for would take it and return its slot. If every message that
is sent names a live task and no task exits with messages in its queue, all queued messages are for
live tasks. -/
theorem queued_for_live (img : Image) (regs : Regs) (n : Nat) (s₀ : IpcState) (h₀ : Initial n s₀)
    (ops : List Op) (k : State) (hrun : run img regs s₀ ops = some k) :
    (∀ r, k.ipc.pending r ≠ [] → 0 ≤ r ∧ r < maxTasks) ∧
    (∀ r data size, Sendable r data size → k.ipc.freeMessages ≠ 0 →
      (Ipc.sendMessage k.ipc k.machine.currentTask r data size).1 = 0) ∧
    (∀ op k', step img k (.sched op) = some k' → k'.ipc = k.ipc) ∧
    (∀ r, 0 ≤ r → r < maxTasks →
      let s := takeAll r (k.ipc.pending r).length k.ipc
      s.pending r = [] ∧ ∃ free, Chain s.next s.freeMessages free ∧
        ∀ a ∈ k.ipc.pending r, a.slot ∈ free) ∧
    (Run.Admissible (step img) Tidy ⟨Sched.initial img regs, s₀⟩ ops → NoneStranded k) := by
  obtain ⟨S, k', hrun', _, free, box, hrep⟩ := run_inv img regs h₀ ops
  obtain rfl : k' = k := Option.some.inj (hrun'.symm.trans hrun)
  refine ⟨fun r hr => ?_, fun r data size hok hfree => ?_, fun op k' e => ?_, fun r h0 hlt => ?_,
    fun htidy => run_noneStranded img regs h₀ htidy hrun⟩
  · rw [hrep.pending_eq] at hr
    exact hrep.valid r hr
  · rcases sendMessage_cases hrep k'.machine.currentTask r data size with
      ⟨_, hno | hnil⟩ | ⟨_, _, _, _, _, _, _, e, _⟩
    · exact absurd hok hno
    · exact absurd (hrep.pool.head_eq_zero.mpr hnil) hfree
    · rw [e]
  · obtain ⟨s', _, rfl⟩ := Option.map_eq_some_iff.mp e
    rfl
  · rw [hrep.pending_eq]
    have hall := takeAll_spec hrep ⟨h0, hlt⟩ rfl
    refine ⟨?_, _, hall.pool, fun a ha => List.mem_append_left _ ?_⟩
    · rw [hall.pending_eq, Function.update_self]
    · rw [List.mem_reverse]
      exact List.mem_map_of_mem ha

theorem queued_for_live_one :
    ∃ k, run ⟨0, 0, 0, 0⟩ (fun _ => 0) poolState [.sendMessage 1 (some 0) 4] = some k ∧
      NoneStranded k := by
  obtain ⟨_, k, hrun, _⟩ := run_inv ⟨0, 0, 0, 0⟩ (fun _ => 0) poolState_initial
    [.sendMessage 1 (some 0) 4]
  obtain ⟨_, _, _, _, htidy⟩ :=
    queued_for_live ⟨0, 0, 0, 0⟩ (fun _ => 0) 2 poolState poolState_initial _ k hrun
  refine ⟨k, hrun, htidy ((Run.admissible_cons rfl).mpr ⟨fun _ => ?_, trivial⟩)⟩
  exact ⟨by decide, by decide, nofun⟩

/-- The boot flow sends a message to task 7, which was never created. -/
theorem queued_for_live_fails :
    ∃ k, Initial 2 poolState ∧
      run ⟨0, 0, 0, 0⟩ (fun _ => 0) poolState [.sendMessage 7 (some 0) 4] = some k ∧
      k.ipc.pending 7 ≠ [] ∧ ¬Live k.machine 7 := by
  obtain ⟨_, k, hrun, _⟩ := run_inv ⟨0, 0, 0, 0⟩ (fun _ => 0) poolState_initial
    [.sendMessage 7 (some 0) 4]
  have hfacts : (run ⟨0, 0, 0, 0⟩ (fun _ => 0) poolState [.sendMessage 7 (some 0) 4]).map
      (fun k => ((k.ipc.pending 7).length, k.machine.numTasks)) = some (1, 3) := by decide +kernel
  rw [hrun, Option.map_some, Option.some.injEq, Prod.mk.injEq] at hfacts
  obtain ⟨hlen, hnum⟩ := hfacts
  refine ⟨k, poolState_initial, hrun, List.ne_nil_of_length_pos (by omega), fun hlive => ?_⟩
  have hlt := hlive.2.1
  rw [hnum] at hlt
  exact absurd hlt (by decide)

end Hydra.Kernel
