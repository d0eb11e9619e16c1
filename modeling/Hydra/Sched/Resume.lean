import Hydra.Sched.Invariant

/-!
# Switching back in

A history of the scheduler logs every switch with the registers it saved and the registers it
loaded. The saved context of a task is written only by its own switch-out: other switches write the
context of the task they leave, and a new task gets a slot that no task had before. So the context
of a task always is the one its last switch-out saved (`HistInv.kept`), and that is what the next
switch to it loads (`context_preserved`).
-/

namespace Hydra.Sched
open Hydra.Ipc (maxTasks)

/-- A switch: the task it leaves with the registers at that time, and the task it enters with the
registers afterwards. -/
structure Switch where
  outgoing : Int
  saved : Regs
  incoming : Int
  loaded : Regs

/-- The registers saved at the last switch-out of a task. -/
def lastSaved (t : Int) (log : List Switch) : Option Regs :=
  (log.reverse.find? fun e => e.outgoing = t).map Switch.saved

lemma lastSaved_concat (t : Int) (log : List Switch) (e : Switch) :
    lastSaved t (log ++ [e]) = if e.outgoing = t then some e.saved else lastSaved t log := by
  unfold lastSaved
  by_cases h : e.outgoing = t
  · simp [h]
  · simp [h]

/-- An entry of a longer log is the last one, or an entry of the log before. -/
lemma concat_eq_append_cons {log pre post : List Switch} {d e : Switch}
    (h : log ++ [d] = pre ++ e :: post) : (pre = log ∧ e = d) ∨ ∃ post', log = pre ++ e :: post' := by
  rcases List.eq_nil_or_concat post with rfl | ⟨post', c, rfl⟩
  · left
    obtain ⟨hpre, he⟩ := List.append_inj' h rfl
    exact ⟨hpre.symm, (List.cons.inj he).1.symm⟩
  · right
    rw [List.concat_eq_append, ← List.cons_append, ← List.append_assoc] at h
    exact ⟨post', (List.append_inj' h rfl).1⟩

/-- A machine with the switches so far. -/
structure History where
  machine : Machine
  log : List Switch

namespace History

/-- A step logs a switch if the current task changes. -/
def step (img : Image) (h : History) (op : SchedOp) : Option History :=
  (Sched.step img h.machine op).map fun s =>
    { machine := s
      log := if s.currentTask = h.machine.currentTask then h.log
        else h.log ++ [⟨h.machine.currentTask, h.machine.regs, s.currentTask, s.regs⟩] }

/-- The run of a list of operations after `sched_init`. -/
abbrev run (img : Image) (regs : Regs) (ops : List SchedOp) : Option History :=
  Run.run (step img) ⟨initial img regs, []⟩ ops

end History

/-- Every switch to a task that was switched out before loads what its last switch-out saved. -/
def ResumesIntact (log : List Switch) : Prop :=
  ∀ l₁ l₂ l₃ a b, log = l₁ ++ a :: l₂ ++ b :: l₃ → a.outgoing = b.incoming →
    (∀ c ∈ l₂, c.outgoing ≠ b.incoming) → ∀ x, b.loaded x = a.saved x

/-- The machine is consistent, each task that was switched out still has its registers in its
context, and all switches so far loaded them. -/
structure HistInv (h : History) : Prop where
  inv : Inv h.machine
  kept : ∀ t x, lastSaved t h.log = some x →
    t < h.machine.numTasks ∧ (h.machine.tasks t).context = .ofRegs x
  resumed : ∀ pre e post, h.log = pre ++ e :: post →
    ∀ x, lastSaved e.incoming pre = some x → e.loaded = x

lemma History.stays {h : History} (hi : HistInv h) {s' : Machine} (h' : Inv s')
    (hs : Stays h.machine s') : HistInv ⟨s', h.log⟩ := by
  refine ⟨h', fun t x hx => ?_, hi.resumed⟩
  obtain ⟨hlt, hctx⟩ := hi.kept t x hx
  exact ⟨hlt.trans_le hs.grows, (hs.context t hlt).trans hctx⟩

/-- A switch saves the registers of the task it leaves, and loads what was saved for the task it
enters. -/
lemma History.switches {h : History} (hi : HistInv h) {s₁ s' : Machine} {t : Int} (h₁ : Inv s₁)
    (hs : Stays h.machine s₁) (hregs : s₁.regs = h.machine.regs) (sw : Switches s₁ s' t) :
    HistInv ⟨s', h.log ++ [⟨h.machine.currentTask, h.machine.regs, t, s'.regs⟩]⟩ := by
  have hi₁ := History.stays hi h₁ hs
  have h' := switchTo_inv h₁ sw
  obtain ⟨_, hlt, hne, _, rfl⟩ := sw
  refine ⟨h', fun u x hx => ?_, fun pre e post hlog x hx => ?_⟩
  · rw [lastSaved_concat] at hx
    simp only [switchTo_numTasks s₁ hne]
    split_ifs at hx with hu
    · -- the task that was left
      simp only at hu
      rw [Option.some.injEq] at hx
      rw [← hs.current] at hu
      subst hu hx
      refine ⟨h₁.current_lt, ?_⟩
      rw [switchTo_left s₁ hne, hregs]
    · simp only at hu
      rw [← hs.current] at hu
      obtain ⟨hu_lt, hctx⟩ := hi₁.kept u x hx
      refine ⟨hu_lt, ?_⟩
      rcases eq_or_ne u t with rfl | hut
      · rw [switchTo_entered s₁ hne]
        exact hctx
      · rw [switchTo_other s₁ hne hut (Ne.symm hu)]
        exact hctx
  · rcases concat_eq_append_cons hlog with ⟨rfl, rfl⟩ | ⟨post', hpre⟩
    · -- the switch just logged
      obtain ⟨_, hctx⟩ := hi₁.kept t x hx
      have hctx' : (s₁.tasks t).context = .ofRegs x := hctx
      show (switchTo s₁ t).regs = x
      rw [switchTo_regs s₁ hne, hctx', TaskContext.toRegs_ofRegs]
    · exact hi.resumed pre e post' hpre x hx

/-- Every step keeps the contexts of the tasks that wait. -/
lemma History.step_inv (img : Image) (h : History) (op : SchedOp) (hi : HistInv h) :
    ∃ h', History.step img h op = some h' ∧ HistInv h' := by
  rcases step_cases img hi.inv op with ⟨s', e, h', hs⟩ | ⟨s₁, s', t, e, h₁, sw, hs₁⟩
  · refine ⟨⟨s', h.log⟩, ?_, History.stays hi h' hs⟩
    unfold History.step
    rw [e, Option.map_some, if_pos hs.current]
  · obtain ⟨hs, hregs⟩ : Stays h.machine s₁ ∧ s₁.regs = h.machine.regs := by
      rcases hs₁ with rfl | rfl
      · exact ⟨.refl _, rfl⟩
      · exact ⟨stays_setState_unused _, rfl⟩
    refine ⟨_, ?_, History.switches hi h₁ hs hregs sw⟩
    obtain ⟨_, _, hne, _, rfl⟩ := sw
    unfold History.step
    rw [e, Option.map_some, switchTo_currentTask s₁ hne, if_neg (hs.current ▸ hne)]

lemma History.initial_inv (img : Image) (regs : Regs) : HistInv ⟨initial img regs, []⟩ := by
  refine ⟨Sched.initial_inv img regs, ?_, ?_⟩
  · intro t x hx
    cases hx
  · intro pre e post hlog
    simp at hlog

lemma History.run_inv (img : Image) (regs : Regs) (ops : List SchedOp) :
    ∃ h, History.run img regs ops = some h ∧ HistInv h :=
  Run.inv (History.step_inv img) ops (History.initial_inv img regs)

/-- The last switch-out before a switch, if no later one is in between. -/
lemma lastSaved_of_last {t : Int} {l₁ l₂ : List Switch} {a : Switch} (ha : a.outgoing = t)
    (hl : ∀ c ∈ l₂, c.outgoing ≠ t) : lastSaved t (l₁ ++ a :: l₂) = some a.saved := by
  unfold lastSaved
  have hnone : l₂.reverse.find? (fun e => e.outgoing = t) = none := by
    refine List.find?_eq_none.mpr fun c hc => ?_
    simpa using hl c (List.mem_reverse.mp hc)
  rw [List.reverse_append, List.reverse_cons, List.append_assoc, List.find?_append, hnone]
  simp [ha]

/-- Whenever a task that was switched out is switched in again, all callee-saved registers hold the
values they had at its last switch-out, whatever ran or was created in between. -/
theorem context_preserved (img : Image) (regs : Regs) (ops : List SchedOp) :
    ∃ h, History.run img regs ops = some h ∧ ResumesIntact h.log := by
  obtain ⟨h, hrun, hi⟩ := History.run_inv img regs ops
  refine ⟨h, hrun, fun l₁ l₂ l₃ a b hlog hab hl x => ?_⟩
  exact congrFun (hi.resumed _ b l₃ hlog a.saved (lastSaved_of_last hab hl)) x

/-- The boot flow yields with 7 in its registers, tasks 1 and 2 run and yield, and the boot flow is
switched in again. -/
example : (History.run ⟨0, 0, 0, 0⟩ (fun _ => 0) [.compute fun _ => 7, .taskYield,
      .compute fun _ => 1, .taskYield, .compute fun _ => 2, .taskYield]).map (fun h =>
        h.log.map fun e => (e.outgoing, e.saved .s1, e.incoming, e.loaded .s1)) =
    some [(0, 7, 1, 0), (1, 1, 2, 0), (2, 2, 0, 7)] := by
  decide +kernel

end Hydra.Sched
