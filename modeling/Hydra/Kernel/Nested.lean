import Hydra.Kernel.Trap

/-!
# Nested traps

`in_trap` is one variable for all tasks, set when the handler begins and cleared when it ends. The
timer's branch of the handler switches to another task in between, which then runs outside of the
handler with `in_trap` set, and its next exception or system call halts the machine although it is
not nested in anything.

As long as no handled timer trap switches, no task is left in the handler, and `in_trap` is set
exactly if the running task is in it (`Unswitched`). So the halt is for traps in the handler only,
step by step, exactly if no handled timer trap finds another task ready (`halt_nested`).
-/

namespace Hydra.Kernel
open Hydra.Sched (Machine Image Regs SchedOp)

namespace TrapState

/-- The running task is in the handler. -/
def Inside (s : TrapState) : Prop := ∃ f ∈ s.flow.frames, f.phase = .handling

/-- After the step `in_trap` is clear unless the running task is in the handler, and the step halts
only a task that was in it before. -/
def HaltsNested (img : Image) (s : TrapState) (op : TrapOp) : Prop :=
  ∀ s', step img s op = some s' →
    (¬Inside s' → s'.inTrap = false) ∧ (s.halted = false → s'.halted = true → Inside s)

/-- The step does not handle a timer trap while another task is ready. -/
def NoSwitch (s : TrapState) (op : TrapOp) : Prop :=
  op = .handle → s.halted = false → s.inTrap = false →
    ∀ pc frames, s.flow.frames = ⟨causeTimerInterrupt, pc, .entered⟩ :: frames →
      ¬OtherReady s.machine

/-- The number of frames of the running task that are in the handler. -/
def depth (s : TrapState) : Nat := s.flow.frames.countP fun f => f.phase = .handling

/-- No task was left in its trap, and `in_trap` says whether the running task is in the handler,
where it can be twice only when it has halted. -/
structure Unswitched (s : TrapState) : Prop where
  table : InTable s
  saved : ∀ t, (s.saved t).frames = []
  once : s.halted = false → s.depth = if s.inTrap then 1 else 0
  halt : s.halted = true → Inside s

variable {img : Image} {s : TrapState}

lemma inside_of_depth (h : s.depth ≠ 0) : Inside s := by
  obtain ⟨f, hf, hphase⟩ := List.countP_pos_iff.mp (Nat.pos_of_ne_zero h)
  exact ⟨f, hf, by simpa using hphase⟩

lemma Unswitched.cleared (h : Unswitched s) (hout : ¬Inside s) : s.inTrap = false := by
  have hrun : s.halted = false := by
    by_contra hhalted
    exact hout (h.halt (by simpa using hhalted))
  by_contra hin
  have hdepth := h.once hrun
  rw [if_pos (by simpa using hin)] at hdepth
  exact hout (inside_of_depth (by omega))

lemma depth_cons {f : TrapFrame} {frames : List TrapFrame} (htop : s.flow.frames = f :: frames) :
    s.depth = (if f.phase = .handling then 1 else 0) +
      frames.countP fun f => f.phase = .handling := by
  rw [depth, htop, List.countP_cons]
  simp [Nat.add_comm]

lemma halted_absurd {p : Prop} (hrun : s.halted = false) (hhalted : s.halted = true) : p := by
  rw [hrun] at hhalted
  cases hhalted

lemma not_inside (htop : s.flow.frames = []) : ¬Inside s := by
  rintro ⟨f, hf, _⟩
  rw [htop] at hf
  cases hf

/-- The running task gets other frames and does not halt, with as many of the frames in the handler
as `in_trap` says. -/
lemma Unswitched.setFrames (h : Unswitched s) {s' : TrapState} (frames : List TrapFrame)
    (htable : InTable s') (hframes : s'.flow.frames = frames) (hsaved : s'.saved = s.saved)
    (hrun : s'.halted = false)
    (once : (frames.countP fun f => f.phase = .handling) = if s'.inTrap then 1 else 0) :
    Unswitched s' where
  table := htable
  saved := fun t => hsaved ▸ h.saved t
  once := fun _ => by rw [depth, hframes, once]
  halt := halted_absurd hrun

/-- The handler either halts, a task that is in it already, or leaves `in_trap` set for the task
that is in it now. -/
lemma Unswitched.handle (h : Unswitched s) (hop : NoSwitch s .handle) (hrun : s.halted = false)
    {cause pc : UInt64} {frames : List TrapFrame}
    (htop : s.flow.frames = ⟨cause, pc, .entered⟩ :: frames) {s' : TrapState} (htable : InTable s')
    (e : trapHandler (s.setFrames (⟨cause, pc, .handling⟩ :: frames)) cause s.mepc = some s') :
    Unswitched s' ∧ (s'.halted = true → Inside s) := by
  have hdepth := h.once hrun
  rw [depth_cons htop, if_neg (by simp), Nat.zero_add] at hdepth
  -- unless the handler halts, this frame is the only one in it
  have honce : s.inTrap = false →
      (⟨cause, pc, .handling⟩ :: frames).countP (fun f => f.phase = .handling) = 1 := fun hin => by
    rw [List.countP_cons_of_pos (by simp), hdepth, if_neg (by simp [hin])]
  have hhandler := trapHandler_cases (s.setFrames (⟨cause, pc, .handling⟩ :: frames)) cause s.mepc
  rw [e] at hhandler
  generalize hr : some s' = r at hhandler
  cases hhandler with
  | halts hin =>
    obtain rfl := Option.some.inj hr
    have hin : s.inTrap = true := hin
    have hinside : Inside s := inside_of_depth (by rw [h.once hrun, if_pos hin]; decide)
    exact ⟨⟨htable, h.saved, nofun, fun _ => ⟨_, List.mem_cons_self, rfl⟩⟩, fun _ => hinside⟩
  | timer hin hcause =>
    obtain rfl := hcause
    have hin : s.inTrap = false := hin
    obtain ⟨machine, e', rfl⟩ := Option.map_eq_some_iff.mp hr.symm
    -- no other task is ready
    have hstays : machine.currentTask = s.machine.currentTask := by
      rcases schedule_ready h.table.nonneg h.table.lt with ⟨hready, _⟩ | ⟨_, e''⟩
      · exact absurd hready (hop rfl hrun hin pc frames htop)
      · exact congrArg Machine.currentTask (Option.some.inj (e'.symm.trans e''))
    have hsame := follow_same { s.setFrames (⟨causeTimerInterrupt, pc, .handling⟩ :: frames) with
      inTrap := true, trapCount := s.trapCount + 1 } machine
    obtain ⟨hflow, hsaved⟩ := follow_stays
      { s.setFrames (⟨causeTimerInterrupt, pc, .handling⟩ :: frames) with
        inTrap := true, trapCount := s.trapCount + 1 } hstays
    have hrun' := hsame.halted.trans hrun
    exact ⟨h.setFrames _ htable (congrArg Flow.frames hflow) hsaved hrun'
      ((honce hin).trans (if_pos hsame.inTrap).symm), halted_absurd hrun'⟩
  | other mepc mie hin hcause =>
    obtain rfl := Option.some.inj hr
    exact ⟨h.setFrames _ htable rfl rfl hrun (honce hin), halted_absurd hrun⟩

lemma begin_frames (img : Image) (s : TrapState) (op : SchedOp) :
    (s.begin img op).flow.frames = s.flow.frames ∧ (s.begin img op).saved = s.saved := by
  obtain ⟨machine, call, e, _⟩ := begin_cases img s op
  rw [e]
  exact ⟨rfl, rfl⟩

/-- The flow that is saved and the one that is loaded are without frames. -/
lemma advance_frames (htop : s.flow.frames = []) (hsaved : ∀ t, (s.saved t).frames = [])
    (c : ScheduleCall) :
    (s.advance c).flow.frames = [] ∧ ∀ t, ((s.advance c).saved t).frames = [] := by
  have hadvance := advance_cases s c
  generalize s.advance c = s' at hadvance ⊢
  cases hadvance with
  | returns => exact ⟨htop, hsaved⟩
  | goes => exact ⟨htop, hsaved⟩
  | assign => exact ⟨htop, hsaved⟩
  | save =>
    refine ⟨htop, fun t => ?_⟩
    show (Function.update s.saved _ _ t).frames = []
    rw [Function.update_apply]
    split
    · exact htop
    · exact hsaved t
  | load => exact ⟨hsaved _, hsaved⟩

/-- Outside of the handler no task has a frame, whichever runs next. -/
lemma Unswitched.outside (h : Unswitched s) (htop : s.flow.frames = []) {s' : TrapState}
    (htable : InTable s') (hframes : s'.flow.frames = []) (hsaved : ∀ t, (s'.saved t).frames = [])
    (hsame : SameTraps s s') (hrun : s.halted = false) : Unswitched s' := by
  have hin : s.inTrap = false := h.cleared (not_inside htop)
  refine ⟨htable, hsaved, fun _ => ?_, halted_absurd (hsame.halted.trans hrun)⟩
  rw [depth, hframes, hsame.inTrap, if_neg (by simp [hin])]
  rfl

/-- Every step that does not switch in the handler keeps the invariant, and halts a task in the
handler only. -/
lemma unswitched_step (img : Image) (s : TrapState) (op : TrapOp) (h : Unswitched s)
    (hop : NoSwitch s op) :
    ∃ s', step img s op = some s' ∧ Unswitched s' ∧
      (s.halted = false → s'.halted = true → Inside s) := by
  obtain ⟨s', e, htable⟩ := inTable_step img h.table op
  refine ⟨s', e, ?_⟩
  have hstep := step_cases img s op
  rw [e] at hstep
  generalize hr : some s' = r at hstep
  cases hstep with
  | skipped op =>
    obtain rfl := Option.some.inj hr
    exact ⟨h, halted_absurd⟩
  | trap cause pc hrun hmie =>
    obtain rfl := Option.some.inj hr
    refine ⟨h.setFrames (⟨cause, pc, .entered⟩ :: s.flow.frames) htable rfl rfl hrun ?_,
      fun _ => halted_absurd hrun⟩
    rw [List.countP_cons_of_neg (by simp)]
    exact h.once hrun
  | handle cause pc frames hrun htop =>
    obtain ⟨h', hhalt⟩ := h.handle hop hrun htop htable hr.symm
    exact ⟨h', fun _ => hhalt⟩
  | finish cause pc frames hrun htop =>
    obtain rfl := Option.some.inj hr
    have hdepth := h.once hrun
    rw [depth_cons htop, if_pos rfl] at hdepth
    refine ⟨h.setFrames (⟨cause, pc, .leaving⟩ :: frames) htable rfl rfl hrun ?_,
      fun _ => halted_absurd hrun⟩
    -- this frame was the one in the handler
    rw [List.countP_cons_of_neg (by simp), if_neg (by simp)]
    split at hdepth
    · omega
    · omega
  | mret cause pc frames hrun htop =>
    obtain rfl := Option.some.inj hr
    have hdepth := h.once hrun
    rw [depth_cons htop, if_neg (by simp), Nat.zero_add] at hdepth
    exact ⟨h.setFrames frames htable rfl rfl hrun hdepth, fun _ => halted_absurd hrun⟩
  | sched op hrun hflow =>
    obtain rfl := Option.some.inj hr
    have htop : s.flow.frames = [] := congrArg Flow.frames hflow
    obtain ⟨hframes, hsaved⟩ := begin_frames img s op
    exact ⟨h.outside htop htable (hframes.trans htop) (hsaved ▸ h.saved) (begin_same img s op) hrun,
      fun _ => halted_absurd ((begin_same img s op).halted.trans hrun)⟩
  | advance c hrun hflow =>
    obtain rfl := Option.some.inj hr
    have htop : s.flow.frames = [] := congrArg Flow.frames hflow
    obtain ⟨hframes, hsaved⟩ := advance_frames htop h.saved c
    exact ⟨h.outside htop htable hframes hsaved (advance_same s c) hrun,
      fun _ => halted_absurd ((advance_same s c).halted.trans hrun)⟩

lemma step_handle {cause pc : UInt64} {frames : List TrapFrame} (hrun : s.halted = false)
    (htop : s.flow.frames = ⟨cause, pc, .entered⟩ :: frames) :
    step img s .handle =
      trapHandler (s.setFrames (⟨cause, pc, .handling⟩ :: frames)) cause s.mepc := by
  have hflow : s.flow = ⟨s.flow.call, ⟨cause, pc, .entered⟩ :: frames⟩ := by rw [← htop]
  unfold step
  rw [hrun, hflow]
  rfl

/-- A handled timer trap that finds another task ready leaves the handler by the switch, with
`in_trap` set. -/
lemma Unswitched.switch (h : Unswitched s) (img : Image) (hrun : s.halted = false)
    (hin : s.inTrap = false) {pc : UInt64} {frames : List TrapFrame}
    (htop : s.flow.frames = ⟨causeTimerInterrupt, pc, .entered⟩ :: frames)
    (hready : OtherReady s.machine) :
    ∃ s', step img s .handle = some s' ∧ ¬Inside s' ∧ s'.inTrap = true := by
  rw [step_handle hrun htop]
  have hhandler := trapHandler_cases
    (s.setFrames (⟨causeTimerInterrupt, pc, .handling⟩ :: frames)) causeTimerInterrupt s.mepc
  generalize trapHandler _ causeTimerInterrupt s.mepc = r at hhandler ⊢
  cases hhandler with
  | halts hin' => exact absurd (hin.symm.trans hin') (by decide)
  | timer _ _ =>
    rcases schedule_ready h.table.nonneg h.table.lt with ⟨_, t, hne, _, _, _, e⟩ | ⟨hno, _⟩
    · have hcur := Sched.switchTo_currentTask s.machine hne
      -- the task that is switched to has no frame
      have hflow := follow_switches
        { s.setFrames (⟨causeTimerInterrupt, pc, .handling⟩ :: frames) with
          inTrap := true, trapCount := s.trapCount + 1 } (hcur.trans_ne hne)
      have hnil := (congrArg Flow.frames hflow).trans (h.saved _)
      exact ⟨_, congrArg (Option.map _) e, not_inside hnil, (follow_same _ _).inTrap⟩
    · exact absurd hready hno
  | other mepc mie _ hne => exact absurd rfl hne

lemma Unswitched.haltsNested_iff (h : Unswitched s) (op : TrapOp) :
    HaltsNested img s op ↔ NoSwitch s op := by
  constructor
  · rintro hn rfl hrun hin pc frames htop hready
    obtain ⟨s', e, hout, hset⟩ := h.switch img hrun hin htop hready
    rw [(hn s' e).1 hout] at hset
    cases hset
  · intro hop s' e
    obtain ⟨s'', e', h', hhalt⟩ := unswitched_step img s op h hop
    obtain rfl := Option.some.inj (e'.symm.trans e)
    exact ⟨h'.cleared, hhalt⟩

lemma start_unswitched (img : Image) (regs : Regs) (mepc : UInt64) (mpie : Bool) :
    Unswitched (start img regs mepc mpie) :=
  ⟨start_inTable img regs mepc mpie, fun _ => rfl, fun _ => rfl, nofun⟩

end TrapState

/-- In every run of traps and of what the tasks do outside of the handler: `in_trap` is clear
whenever the running task is outside of the handler, and only a task in it halts, at every step,
exactly if no timer trap is handled while another task is ready. -/
theorem halt_nested (img : Image) (regs : Regs) (mepc : UInt64) (mpie : Bool) (ops : List TrapOp) :
    Run.Admissible (TrapState.step img) (TrapState.HaltsNested img) (.start img regs mepc mpie) ops ↔
      Run.Admissible (TrapState.step img) TrapState.NoSwitch (.start img regs mepc mpie) ops := by
  refine Run.Admissible.congr_of_inv (TrapState.start_unswitched img regs mepc mpie) ?_
    fun s op h => h.haltsNested_iff op
  intro s op h hop
  obtain ⟨s', e, h', _⟩ := TrapState.unswitched_step img s op h hop
  exact ⟨s', e, h'⟩

/-- A timer trap of the boot flow leaves the processor to task 1, which is in no trap. Its system
call halts the machine. -/
theorem halt_nested_fails :
    ∃ s s' s'' : TrapState,
      Run.run (TrapState.step ⟨0, 0, 0, 0⟩) (.start ⟨0, 0, 0, 0⟩ (fun _ => 0) 0 false)
        [.trap causeTimerInterrupt 0x80000400, .handle] = some s ∧
      Run.run (TrapState.step ⟨0, 0, 0, 0⟩) s [.trap causeEcallFromM 0x80000500] = some s' ∧
      Run.run (TrapState.step ⟨0, 0, 0, 0⟩) s' [.handle] = some s'' ∧
      (s.machine.currentTask = 1 ∧ ¬s.Inside ∧ s.inTrap = true) ∧
      (¬s'.Inside ∧ s'.halted = false) ∧ s''.halted = true := by
  have hs : (Run.run (TrapState.step ⟨0, 0, 0, 0⟩) (.start ⟨0, 0, 0, 0⟩ (fun _ => 0) 0 false)
      [.trap causeTimerInterrupt 0x80000400, .handle]).map
        (fun s => (s.machine.currentTask, s.flow.frames, s.inTrap)) = some (1, [], true) := by
    decide +kernel
  have hs' : (Run.run (TrapState.step ⟨0, 0, 0, 0⟩) (.start ⟨0, 0, 0, 0⟩ (fun _ => 0) 0 false)
      ([.trap causeTimerInterrupt 0x80000400, .handle] ++
        [.trap causeEcallFromM 0x80000500])).map (fun s => (s.flow.frames, s.halted)) =
      some ([⟨causeEcallFromM, 0x80000500, .entered⟩], false) := by
    decide +kernel
  have hs'' : (Run.run (TrapState.step ⟨0, 0, 0, 0⟩) (.start ⟨0, 0, 0, 0⟩ (fun _ => 0) 0 false)
      (([.trap causeTimerInterrupt 0x80000400, .handle] ++
        [.trap causeEcallFromM 0x80000500]) ++ [.handle])).map TrapState.halted = some true := by
    decide +kernel
  rw [Run.run_append] at hs''
  rw [Run.run_append] at hs' hs''
  obtain ⟨s, e, h⟩ := Option.map_eq_some_iff.mp hs
  rw [e, Option.bind_some] at hs' hs''
  obtain ⟨s', e', h'⟩ := Option.map_eq_some_iff.mp hs'
  rw [e', Option.bind_some] at hs''
  obtain ⟨s'', e'', h''⟩ := Option.map_eq_some_iff.mp hs''
  simp only [Prod.mk.injEq] at h h'
  obtain ⟨hcur, htop, hin⟩ := h
  obtain ⟨htop', hrun⟩ := h'
  refine ⟨s, s', s'', e, e', e'', ⟨hcur, ?_, hin⟩, ⟨?_, hrun⟩, h''⟩
  · simp [TrapState.Inside, htop]
  · simp [TrapState.Inside, htop']

end Hydra.Kernel
