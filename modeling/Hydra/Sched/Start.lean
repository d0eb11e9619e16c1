import Hydra.Sched.Resume

/-!
# Where a task starts

`create_task` puts the entry function of a task into its context, and the first switch to the task
jumps to what the context then holds. Only a switch away from a task writes its context, and a
switch leaves a task that an earlier switch has entered. The exception is the first switch: it
leaves the boot flow, which runs with `current_task = 0` although it is not task 0, and saves the
registers of the boot flow over the entry of that task.

A boot is a history with the entry functions of the tasks created so far. `start_at_entry` says
which tasks still start at their entry.
-/

namespace Hydra.Sched
open Hydra.Ipc (maxTasks)

/-- The context that `create_task` makes. -/
def startContext (img : Image) (t : Int) (entry : UInt64) : TaskContext :=
  ⟨entry, stackTop img t, 0, 0, 0, 0, 0, 0, 0, 0, 0, 0, 0, 0⟩

/-- A history with the entry functions of the tasks, in the order of their creation. -/
structure Boot where
  history : History
  entries : List UInt64

namespace Boot

/-- The entry function of the task that an operation creates, if it does. -/
def created (img : Image) (s : Machine) : SchedOp → List UInt64
  | .createTask entry => if (createTask img s entry).1 = -1 then [] else [entry]
  | _ => []

def step (img : Image) (b : Boot) (op : SchedOp) : Option Boot :=
  (History.step img b.history op).map fun h =>
    { history := h
      entries := b.entries ++ created img b.history.machine op }

/-- The boot flow after `sched_init`. -/
def start (img : Image) (regs : Regs) : Boot where
  history := ⟨initial img regs, []⟩
  entries := [img.idleTask1, img.idleTask2, img.idleTask3]

/-- The run of a list of operations after `sched_init`. -/
abbrev run (img : Image) (regs : Regs) (ops : List SchedOp) : Option Boot :=
  Run.run (step img) (start img regs) ops

end Boot

/-- The first switch did not write over the context of the task: it is not task 0, there was no
switch yet, or the boot flow had the very registers that task 0 starts with. -/
def Spared (img : Image) (log : List Switch) (t : Int) : Prop :=
  t ≠ 0 ∨ ∀ e, log.head? = some e → .ofRegs e.saved = startContext img 0 img.idleTask1

/-- Tasks that no switch has left have the context they were created with; switches leave what
earlier ones entered; and the first switch to a task enters it where it starts, if it was spared. -/
structure StartInv (img : Image) (b : Boot) : Prop where
  hist : HistInv b.history
  count : (b.entries.length : Int) = b.history.machine.numTasks
  first : b.entries[0]? = some img.idleTask1
  fresh : ∀ (t : Nat) entry, b.entries[t]? = some entry →
    (∀ e ∈ b.history.log, e.outgoing ≠ t) →
    (b.history.machine.tasks t).context = startContext img t entry
  current : (b.history.log = [] ∧ b.history.machine.currentTask = 0) ∨
    ∃ d ∈ b.history.log, d.incoming = b.history.machine.currentTask
  known : ∀ e ∈ b.history.log, 0 ≤ e.incoming ∧ e.incoming < b.history.machine.numTasks
  chain : ∀ pre e post, b.history.log = pre ++ e :: post →
    (pre = [] ∧ e.outgoing = 0) ∨ ∃ d ∈ pre, d.incoming = e.outgoing
  entered : ∀ pre e post, b.history.log = pre ++ e :: post →
    (∀ d ∈ pre, d.incoming ≠ e.incoming) →
    ∀ entry, b.entries[e.incoming.toNat]? = some entry →
      (e.loaded = (startContext img e.incoming entry).toRegs ↔ Spared img pre e.incoming)

namespace StartInv

variable {img : Image} {b : Boot} (h : StartInv img b)
include h

/-- A task that no switch has entered was left by the first switch at most, and then it is
task 0. -/
lemma outgoing_ne {t : Int} (hnew : ∀ e ∈ b.history.log, e.incoming ≠ t) {pre post : List Switch}
    {e : Switch} (hlog : b.history.log = pre ++ e :: post) (hout : e.outgoing = t) :
    pre = [] ∧ t = 0 := by
  rcases h.chain pre e post hlog with ⟨hpre, h0⟩ | ⟨d, hd, hin⟩
  · exact ⟨hpre, hout.symm.trans h0⟩
  · refine absurd (hin.trans hout) (hnew d ?_)
    rw [hlog]
    exact List.mem_append_left _ hd

/-- A task that no switch has entered has the context it starts with exactly if it was spared. -/
lemma context_iff {t : Nat} {entry : UInt64} (hentry : b.entries[t]? = some entry)
    (hnew : ∀ e ∈ b.history.log, e.incoming ≠ t) :
    (b.history.machine.tasks t).context = startContext img t entry ↔ Spared img b.history.log t := by
  rcases Nat.eq_zero_or_pos t with rfl | hpos
  · obtain rfl : img.idleTask1 = entry := Option.some.inj (h.first.symm.trans hentry)
    cases hlog : b.history.log with
    | nil =>
      refine iff_of_true (h.fresh 0 _ hentry ?_) (.inr nofun)
      rw [hlog]
      exact nofun
    | cons e rest =>
      -- task 0 was left by the first switch only
      have hfirst : e.outgoing = 0 := by
        rcases h.chain [] e rest hlog with ⟨_, h0⟩ | ⟨d, hd, _⟩
        · exact h0
        · cases hd
      have hrest : ∀ d ∈ rest, d.outgoing ≠ 0 := by
        intro d hd hout
        obtain ⟨pre, post, rfl⟩ := List.append_of_mem hd
        have hlog' : b.history.log = (e :: pre) ++ d :: post := hlog
        exact absurd (h.outgoing_ne hnew hlog' hout).1 (List.cons_ne_nil _ _)
      have hsaved : lastSaved 0 ([] ++ e :: rest) = some e.saved := lastSaved_of_last hfirst hrest
      rw [List.nil_append, ← hlog] at hsaved
      rw [show ((0 : Nat) : Int) = 0 from rfl, (h.hist.kept 0 _ hsaved).2]
      constructor
      · intro heq
        refine .inr fun d hd => ?_
        obtain rfl : e = d := Option.some.inj hd
        exact heq
      · rintro (hne | hall)
        · exact absurd rfl hne
        · exact hall e rfl
  · have hne : (t : Int) ≠ 0 := by omega
    refine iff_of_true (h.fresh t entry hentry fun e he hout => ?_) (.inl hne)
    obtain ⟨pre, post, hlog⟩ := List.append_of_mem he
    exact hne (h.outgoing_ne hnew hlog hout).2

/-- A step that neither switches nor creates a task. -/
lemma stays {s' : Machine} (h' : Inv s') (hs : Stays b.history.machine s')
    (hnum : s'.numTasks = b.history.machine.numTasks) :
    StartInv img ⟨⟨s', b.history.log⟩, b.entries⟩ := by
  refine ⟨History.stays h.hist h' hs, ?_, h.first, fun t entry ht hout => ?_, ?_, ?_, h.chain,
    h.entered⟩
  · rw [h.count, hnum]
  · have hlt : t < b.entries.length := (List.getElem?_eq_some_iff.mp ht).1
    have hcount := h.count
    rw [hs.context t (by omega)]
    exact h.fresh t entry ht hout
  · simp only [hs.current]
    exact h.current
  · simp only [hnum]
    exact h.known

/-- A new task starts at its entry, and takes the place of no other. -/
lemma creates {entry : UInt64} (hroom : b.history.machine.numTasks < maxTasks) :
    StartInv img ⟨⟨(createTask img b.history.machine entry).2, b.history.log⟩,
      b.entries ++ [entry]⟩ := by
  have hinv := h.hist.inv
  have hcount := h.count
  have hs := createTask_stays img b.history.machine entry
  have hnew : (createTask img b.history.machine entry).2.numTasks =
        b.history.machine.numTasks + 1 ∧
      ((createTask img b.history.machine entry).2.tasks b.history.machine.numTasks).context =
        startContext img b.history.machine.numTasks entry := by
    unfold createTask
    rw [if_neg (not_le.mpr hroom)]
    simp [Machine.setTask, startContext]
  have hold : ∀ k : Nat, k < b.entries.length → (b.entries ++ [entry])[k]? = b.entries[k]? :=
    fun k hk => List.getElem?_append_left hk
  have hpos : 0 < b.entries.length := (List.getElem?_eq_some_iff.mp h.first).1
  refine ⟨History.stays h.hist (createTask_inv img hinv entry) hs, ?_, ?_, fun t e ht hout => ?_, ?_,
    fun e he => ?_, h.chain, fun pre e post hlog hfirst => ?_⟩
  · rw [List.length_append, List.length_singleton, hnew.1]
    omega
  · rw [hold 0 hpos]
    exact h.first
  · rcases lt_or_ge t b.entries.length with hlt | hge
    · rw [hold t hlt] at ht
      rw [hs.context t (by omega)]
      exact h.fresh t e ht hout
    · -- the new task
      have hlast := (List.getElem?_eq_some_iff.mp ht).1
      rw [List.length_append, List.length_singleton] at hlast
      obtain rfl : t = b.entries.length := by omega
      rw [List.getElem?_concat_length] at ht
      obtain rfl := Option.some.inj ht
      rw [hcount]
      exact hnew.2
  · simp only [hs.current]
    exact h.current
  · obtain ⟨h0, hlt⟩ := h.known e he
    exact ⟨h0, hlt.trans_le hs.grows⟩
  · have hmem : e ∈ b.history.log := by
      rw [hlog]
      exact List.mem_append_right _ List.mem_cons_self
    obtain ⟨h0, hlt⟩ := h.known e hmem
    rw [hold _ (by omega)]
    exact h.entered pre e post hlog hfirst

/-- A switch loads what the task entered has in its context, and saves to the task left. -/
lemma switches {s₁ s' : Machine} {t : Int} (h₁ : Inv s₁) (hs : Stays b.history.machine s₁)
    (hnum : s₁.numTasks = b.history.machine.numTasks) (hregs : s₁.regs = b.history.machine.regs)
    (sw : Switches s₁ s' t) :
    StartInv img ⟨⟨s', b.history.log ++
      [⟨b.history.machine.currentTask, b.history.machine.regs, t, s'.regs⟩]⟩, b.entries⟩ := by
  have hhist := History.switches h.hist h₁ hs hregs sw
  have hcount := h.count
  obtain ⟨h0, hlt, hne, _, rfl⟩ := sw
  have hnum' : (switchTo s₁ t).numTasks = b.history.machine.numTasks :=
    (switchTo_numTasks s₁ hne).trans hnum
  refine ⟨hhist, ?_, h.first, fun u entry hu hout => ?_, .inr ⟨_, List.mem_concat_self, ?_⟩,
    fun e he => ?_, fun pre e post hlog => ?_, fun pre e post hlog hfirst entry hentry => ?_⟩
  · rw [hnum']
    exact hcount
  · have hlen : u < b.entries.length := (List.getElem?_eq_some_iff.mp hu).1
    have hleft : (u : Int) ≠ s₁.currentTask := by
      rw [hs.current]
      exact (hout _ List.mem_concat_self).symm
    have hctx : ((switchTo s₁ t).tasks u).context = (s₁.tasks u).context := by
      rcases eq_or_ne (u : Int) t with heq | hut
      · rw [heq, switchTo_entered s₁ hne]
      · rw [switchTo_other s₁ hne hut hleft]
    rw [hctx, hs.context u (by omega)]
    exact h.fresh u entry hu fun e he => hout e (List.mem_append_left _ he)
  · exact (switchTo_currentTask s₁ hne).symm
  · rw [hnum']
    rcases List.mem_append.mp he with hold | hnew
    · exact h.known e hold
    · rw [List.mem_singleton.mp hnew]
      exact ⟨h0, hnum ▸ hlt⟩
  · rcases concat_eq_append_cons hlog with ⟨rfl, rfl⟩ | ⟨post', hold⟩
    · exact h.current
    · exact h.chain pre e post' hold
  · rcases concat_eq_append_cons hlog with ⟨rfl, rfl⟩ | ⟨post', hold⟩
    · -- the first switch to the task
      lift t to Nat using h0
      have hiff := h.context_iff hentry hfirst
      show (switchTo s₁ t).regs = _ ↔ _
      rw [switchTo_regs s₁ hne, TaskContext.toRegs_inj, hs.context t (hnum ▸ hlt)]
      exact hiff
    · exact h.entered pre e post' hold hfirst entry hentry

end StartInv

namespace Boot

lemma created_of_ne (img : Image) (s : Machine) {op : SchedOp}
    (hop : ∀ entry, op ≠ .createTask entry) : created img s op = [] := by
  cases op with
  | createTask entry => exact absurd rfl (hop entry)
  | schedule | taskYield | schedTick | sysExit | compute => rfl

lemma create_inv (img : Image) {b : Boot} (h : StartInv img b) (entry : UInt64) :
    ∃ b', step img b (.createTask entry) = some b' ∧ StartInv img b' := by
  have hs := createTask_stays img b.history.machine entry
  refine ⟨⟨⟨(createTask img b.history.machine entry).2, b.history.log⟩,
    b.entries ++ created img b.history.machine (.createTask entry)⟩, ?_, ?_⟩
  · unfold step History.step
    simp only [Sched.step, Option.map_some, if_pos hs.current]
  · by_cases hroom : b.history.machine.numTasks < maxTasks
    · have hpid : (createTask img b.history.machine entry).1 ≠ -1 := by
        have hcount := h.count
        unfold createTask
        rw [if_neg (not_le.mpr hroom)]
        show b.history.machine.numTasks ≠ -1
        omega
      have hcreated : created img b.history.machine (.createTask entry) = [entry] := if_neg hpid
      rw [hcreated]
      exact h.creates hroom
    · have hfull : createTask img b.history.machine entry = (-1, b.history.machine) := by
        unfold createTask
        rw [if_pos (not_lt.mp hroom)]
      have hcreated : created img b.history.machine (.createTask entry) = [] :=
        if_pos (congrArg Prod.fst hfull)
      rw [hcreated, hfull, List.append_nil]
      exact h

/-- Every step keeps the invariant. -/
lemma step_inv (img : Image) (b : Boot) (op : SchedOp) (h : StartInv img b) :
    ∃ b', step img b op = some b' ∧ StartInv img b' := by
  by_cases hcreate : ∃ entry, op = .createTask entry
  · obtain ⟨entry, rfl⟩ := hcreate
    exact create_inv img h entry
  · have hop : ∀ entry, op ≠ .createTask entry := fun entry e => hcreate ⟨entry, e⟩
    have hcreated := created_of_ne img b.history.machine hop
    rcases step_cases img h.hist.inv op with ⟨s', e, h', hs⟩ | ⟨s₁, s', t, e, h₁, sw, hs₁⟩
    · refine ⟨_, ?_, h.stays h' hs (step_numTasks img h.hist.inv hop e)⟩
      unfold step History.step
      simp only [e, Option.map_some, if_pos hs.current, hcreated, List.append_nil]
    · obtain ⟨hs, hnum, hregs⟩ : Stays b.history.machine s₁ ∧
          s₁.numTasks = b.history.machine.numTasks ∧ s₁.regs = b.history.machine.regs := by
        rcases hs₁ with rfl | rfl
        · exact ⟨.refl _, rfl, rfl⟩
        · exact ⟨stays_setState_unused _, rfl, rfl⟩
      refine ⟨_, ?_, h.switches h₁ hs hnum hregs sw⟩
      have hcur : s'.currentTask = t ∧ t ≠ b.history.machine.currentTask := by
        obtain ⟨_, _, hne, _, rfl⟩ := sw
        exact ⟨switchTo_currentTask s₁ hne, hs.current ▸ hne⟩
      unfold step History.step
      simp only [e, Option.map_some, hcur.1, if_neg hcur.2, hcreated, List.append_nil]

lemma start_inv (img : Image) (regs : Regs) : StartInv img (start img regs) := by
  refine ⟨History.initial_inv img regs, rfl, rfl, fun t entry ht _ => ?_, .inl ⟨rfl, rfl⟩, nofun,
    fun pre e post hlog => ?_, fun pre e post hlog => ?_⟩
  · match t, ht with
    | 0, ht | 1, ht | 2, ht =>
      obtain rfl := Option.some.inj ht
      rfl
  · exact absurd hlog (by simp [start])
  · exact absurd hlog (by simp [start])

lemma run_inv (img : Image) (regs : Regs) (ops : List SchedOp) :
    ∃ b, run img regs ops = some b ∧ StartInv img b :=
  Run.inv (step_inv img) ops (start_inv img regs)

end Boot

/-- In every run after `sched_init`, a task that has not been switched to has the context it was
created with, and the first switch to a task enters its entry function on its own stack, exactly if
the first switch of the run did not write over that context. -/
theorem start_at_entry (img : Image) (regs : Regs) (ops : List SchedOp) :
    ∃ b, Boot.run img regs ops = some b ∧
      (∀ (t : Nat) entry, b.entries[t]? = some entry → (∀ e ∈ b.history.log, e.incoming ≠ t) →
        ((b.history.machine.tasks t).context = startContext img t entry ↔
          Spared img b.history.log t)) ∧
      ∀ pre e post, b.history.log = pre ++ e :: post → (∀ d ∈ pre, d.incoming ≠ e.incoming) →
        ∀ entry, b.entries[e.incoming.toNat]? = some entry →
          (e.loaded = (startContext img e.incoming entry).toRegs ↔ Spared img pre e.incoming) := by
  obtain ⟨b, hrun, h⟩ := Boot.run_inv img regs ops
  exact ⟨b, hrun, fun _ _ => h.context_iff, h.entered⟩

/-- The tasks of the three idle functions, with the kernel's code at the beginning of the memory. -/
def bootImage : Image := ⟨0x80010000, 0x80001000, 0x80001100, 0x80001200⟩

/-- The boot flow yields, and the tasks it finds yield until task 0 is switched to: it does not
start at `idle_task1`. -/
theorem start_at_entry_fails :
    ∃ b, Boot.run bootImage (fun _ => 0x80000400) [.taskYield, .taskYield, .taskYield] = some b ∧
      ∃ pre e, b.history.log = pre ++ [e] ∧ e.incoming = 0 ∧ (∀ d ∈ pre, d.incoming ≠ 0) ∧
        b.entries[0]? = some bootImage.idleTask1 ∧ e.loaded .ra ≠ bootImage.idleTask1 := by
  have hfacts : (Boot.run bootImage (fun _ => 0x80000400) [.taskYield, .taskYield, .taskYield]).map
      (fun b => (b.entries[0]?, b.history.log.map fun e => (e.incoming, e.loaded .ra))) =
      some (some 0x80001000, [(1, 0x80001100), (2, 0x80001200), (0, 0x80000400)]) := by
    decide +kernel
  obtain ⟨b, hrun, hb⟩ := Option.map_eq_some_iff.mp hfacts
  rw [Prod.mk.injEq] at hb
  obtain ⟨hentry, hlog⟩ := hb
  obtain ⟨d₁, _, hcons, h₁, hlog⟩ := List.map_eq_cons_iff.mp hlog
  obtain ⟨d₂, _, rfl, h₂, hlog⟩ := List.map_eq_cons_iff.mp hlog
  obtain ⟨e, rfl, h₃⟩ := List.map_eq_singleton_iff.mp hlog
  rw [Prod.mk.injEq] at h₁ h₂ h₃
  refine ⟨b, hrun, [d₁, d₂], e, hcons, h₃.1, ?_, hentry, ?_⟩
  · intro d hd
    rcases List.mem_pair.mp hd with rfl | rfl
    · rw [h₁.1]
      decide
    · rw [h₂.1]
      decide
  · rw [h₃.2]
    decide

end Hydra.Sched
