import Hydra.Ipc.Delivery

/-!
# The pool and its reports

How many message slots `ipc_init` obtains, and what the functions of `kernal/ipc.c` report about
them that only print: `count_free_messages`, `ipc_debug_status`, `ipc_log_queue_status` and
`ipc_log_memory_usage`. A report is the data that the function prints; percentages are left out, as
they are computed from the numbers printed beside them.

All reports take MAX_MESSAGES for the number of slots. On a heap that has no room for as many they
count the slots that are missing as used (`status_reports`).
-/

namespace Hydra.Ipc
open ByteMem Linked Mailbox FirstFit
open Hydra.Mm (Region WF Heap kmalloc kmalloc_none kmalloc_some alignSize)

/-! ## The number of slots -/

section Obtained

variable {r : Region} {h : Heap} {bs : List Block}

/-- Each attempt gets a slot as long as there is room for one. -/
lemma preallocate_count (n allocated : Nat) (w : WF r h bs) (s : IpcState) :
    ∃ h' s' bs', preallocate n allocated h s =
        some (allocated + min n (rooms 16 sizeofMessage.toNat bs), h', s') ∧ WF r h' bs' ∧
      rooms 16 sizeofMessage.toNat bs' = rooms 16 sizeofMessage.toNat bs - n := by
  induction n generalizing allocated h bs s with
  | zero => exact ⟨h, s, bs, by simp [preallocate], w, rfl⟩
  | succ n ih =>
    have halign : (alignSize sizeofMessage).toNat = sizeofMessage.toNat := by decide
    have hzero : rooms 16 sizeofMessage.toNat bs = 0 ↔ _ := rooms_eq_zero (by decide)
    cases hfind : bs.find? (Block.fits (alignSize sizeofMessage).toNat) with
    | none =>
      have hnone := hzero.mpr (halign ▸ hfind)
      obtain ⟨h', s', bs', hrun, w', hrooms⟩ := ih allocated w s
      refine ⟨h', s', bs', ?_, w', by omega⟩
      unfold preallocate
      simp only [kmalloc_none w hfind, if_true]
      rw [hrun, hnone, Nat.min_zero, Nat.min_zero]
    | some b =>
      obtain ⟨h₁, hcall, w₁, _⟩ := kmalloc_some w hfind
      have hp0 : b.payload 16 ≠ 0 := b.payload_ne_zero (by decide)
      have hless : rooms 16 _ (alloc 16 48 _ bs) + 1 = _ :=
        rooms_alloc hfind (by decide) (by decide) (by decide)
      rw [halign] at hless
      obtain ⟨h', s', bs', hrun, w', hrooms⟩ := ih (allocated + 1) w₁
        { s.setMsg (b.payload 16)
          { readMessage h₁.mem (b.payload 16) with next := s.freeMessages } with
            freeMessages := b.payload 16 }
      rw [halign] at hrun hrooms
      refine ⟨h', s', bs', ?_, w', by omega⟩
      unfold preallocate
      simp only [hcall, if_neg hp0]
      rw [hrun]
      congr 2
      omega

lemma ipcInit_count (w : WF r h bs) :
    ∃ h' s' bs', ipcInit h (bootIpc h.mem) =
        some (min maxMessages (rooms 16 sizeofMessage.toNat bs), h', s') ∧ WF r h' bs' ∧
      rooms 16 sizeofMessage.toNat bs' = rooms 16 sizeofMessage.toNat bs - maxMessages := by
  obtain ⟨h', s', bs', hcall, w', hrooms⟩ := preallocate_count maxMessages 0 w
    { bootIpc h.mem with messageQueues := fun i =>
      if 0 ≤ i ∧ i < maxTasks then ⟨0, 0, 0⟩ else ⟨0, 0, 0⟩ }
  rw [Nat.zero_add] at hcall
  exact ⟨h', s', bs', hcall, w', hrooms⟩

end Obtained

/-- On any reachable heap `ipc_init` obtains as many slots as there is room for, at most
MAX_MESSAGES; if it obtains less, the heap has no room for a slot left. On the heap that `mm_init`
sets up these are as many as slots with their headers fit into the region. -/
theorem slots_obtained (r : Region) (m : Mem) (ops : List Mm.HeapOp)
    (hok : Mm.History.Contract r m ops) (hist : Mm.History)
    (hrun : Mm.History.run r m ops = some hist) :
    ∃ bs h s, hist.heap.blocks = some bs ∧
      ipcInit hist.heap (bootIpc hist.heap.mem) =
        some (min maxMessages (rooms 16 sizeofMessage.toNat bs), h, s) ∧
      (rooms 16 sizeofMessage.toNat bs < maxMessages → ∀ size : UInt32,
        sizeofMessage.toNat ≤ (alignSize size).toNat → kmalloc h size = some (0, h)) ∧
      (ops = [] → rooms 16 sizeofMessage.toNat bs =
        (r.stop - r.start) / (sizeofMessage.toNat + Mm.sizeofMemBlock)) := by
  obtain ⟨bs, w, hlive⟩ := Mm.History.inv_of_run hok hrun
  obtain ⟨h, s, bs', hcall, w', hrooms⟩ := ipcInit_count w
  refine ⟨bs, h, s, w.blocks, hcall, fun hless size hsize => ?_, ?_⟩
  · have hzero : rooms 16 sizeofMessage.toNat bs' = 0 := by omega
    have hnone := (rooms_eq_zero (by decide)).mp hzero
    refine kmalloc_none w' (List.find?_eq_none.mpr fun b hb hfit => ?_)
    obtain ⟨hfree, hle⟩ := fits_iff.mp hfit
    exact List.find?_eq_none.mp hnone b hb (fits_iff.mpr ⟨hfree, hsize.trans hle⟩)
  · rintro rfl
    have hroom := r.room
    unfold Mm.sizeofMemBlock at *
    obtain rfl := Option.some.inj hrun
    obtain rfl := w.tiles.eq_singleton w.coalesced hlive.nil_eq.symm (by omega)
    show (r.stop - r.start - 16 + 16) / (sizeofMessage.toNat + 16) + 0 = _
    rw [Nat.sub_add_cancel (by omega), Nat.add_zero]

theorem slots_obtained_two :
    ∃ h s, ipcInit poolHeap (bootIpc poolHeap.mem) = some (2, h, s) := by
  obtain ⟨bs, h, s, _, hcall, _, hfresh⟩ := slots_obtained poolRegion (fun _ => 0) [] trivial _ rfl
  rw [hfresh rfl] at hcall
  exact ⟨h, s, hcall⟩

lemma Initial.le {n : Nat} {s : IpcState} (h : Initial n s) : n ≤ maxMessages := by
  obtain ⟨r, m, ops, hist, h₁, hok, hrun, hinit⟩ := h
  obtain ⟨bs, w, _⟩ := Mm.History.inv_of_run hok hrun
  obtain ⟨_, _, _, hcall, _⟩ := ipcInit_count w
  rw [hcall, Option.some.injEq, Prod.mk.injEq] at hinit
  rw [← hinit.1]
  exact Nat.min_le_left _ _

/-! ## The reports -/

/-- `while (current) { count++; current = current->next; }`, with at most `fuel` tests. -/
def countFrom (next : Nat → Nat) : Nat → Nat → Int → Option Int
  | 0, _, _ => none
  | fuel + 1, current, count =>
    if current = 0 then some count else countFrom next fuel (next current) (count + 1)

/-- C `count_free_messages`. -/
def countFreeMessages (s : IpcState) : Option Int :=
  countFrom s.next (maxMessages + 1) s.freeMessages 0

/-- The memory health check of `ipc_debug_status`. -/
inductive Health where
  | critical (freeCount : Int)
  | low (freeCount : Int)
  | healthy
  deriving DecidableEq, Repr

/-- What `ipc_debug_status` prints. -/
structure DebugStatus where
  usedCount : Int
  freeCount : Int
  queues : List (Int × Int)
  activeQueues : Int
  totalQueued : Int
  mismatch : Option (Int × Int)
  currentTask : Int
  health : Health

/-- The queues that have messages, with their counts. -/
def activeQueues (s : IpcState) : List (Int × Int) :=
  ((List.range maxTasks.toNat).map fun i : Nat => ((i : Int), (s.messageQueues i).count)).filter
    fun q => 0 < q.2

/-- C `ipc_debug_status`. -/
def ipcDebugStatus (s : IpcState) (currentTask : Int) : Option DebugStatus :=
  (countFreeMessages s).map fun freeCount =>
    let usedCount := (maxMessages : Int) - freeCount
    let queues := activeQueues s
    let totalQueued := (queues.map Prod.snd).sum
    { usedCount := usedCount
      freeCount := freeCount
      queues := queues
      activeQueues := queues.length
      totalQueued := totalQueued
      mismatch :=
        if (queues.length : Int) = 0 then none
        else if totalQueued ≠ usedCount then some (totalQueued, usedCount)
        else none
      currentTask := currentTask
      health :=
        if freeCount < 5 then .critical freeCount
        else if freeCount < 15 then .low freeCount
        else .healthy }

/-- What `ipc_log_queue_status` prints: the count, the pointers if there are messages, and the
number of messages that were found if it differs. -/
structure QueueStatus where
  count : Int
  pointers : Option (Nat × Nat)
  corruption : Option Int

/-- Walk the queue to validate integrity; the loop stops after `limit` messages. -/
def walkQueue (next : Nat → Nat) : Nat → Nat → Int → Int
  | 0, _, actualCount => actualCount
  | limit + 1, current, actualCount =>
    if current = 0 then actualCount else walkQueue next limit (next current) (actualCount + 1)

/-- C `ipc_log_queue_status`; `none` is its error for an invalid pid. -/
def ipcLogQueueStatus (s : IpcState) (pid : Int) : Option QueueStatus :=
  if pid < 0 ∨ maxTasks ≤ pid then none
  else
    let queue := s.messageQueues pid
    if 0 < queue.count then
      let actualCount := walkQueue s.next (queue.count + 5).toNat queue.head 0
      some ⟨queue.count, some (queue.head, queue.tail),
        if actualCount ≠ queue.count then some actualCount else none⟩
    else some ⟨queue.count, none, none⟩

/-- The memory pressure analysis of `ipc_log_memory_usage`. -/
inductive Pressure where
  | critical
  | warning
  | caution
  | healthy
  deriving DecidableEq, Repr

/-- What `ipc_log_memory_usage` prints. -/
structure MemoryUsage where
  totalSlots : Int
  usedCount : Int
  freeCount : Int
  slotSize : Int
  totalMemory : Int
  usedMemory : Int
  status : Pressure

/-- C `ipc_log_memory_usage`. -/
def ipcLogMemoryUsage (s : IpcState) : Option MemoryUsage :=
  (countFreeMessages s).map fun freeCount =>
    let usedCount := (maxMessages : Int) - freeCount
    { totalSlots := maxMessages
      usedCount := usedCount
      freeCount := freeCount
      slotSize := sizeofMessage.toNat
      totalMemory := (maxMessages * sizeofMessage.toNat : Int) / 1024
      usedMemory := usedCount * sizeofMessage.toNat / 1024
      status :=
        if freeCount < 5 then .critical
        else if freeCount < 15 then .warning
        else if freeCount < 32 then .caution
        else .healthy }

section Reports

variable {S : Set Nat} {slots : List Nat} {s : IpcState} {free : List Nat}
  {box : Int → List Letter}

lemma countFrom_chain {next : Nat → Nat} {l : List Nat} {p fuel : Nat} (h : Chain next p l)
    (hf : l.length < fuel) (count : Int) :
    countFrom next fuel p count = some (count + l.length) := by
  induction l generalizing p fuel count with
  | nil =>
    obtain ⟨n, rfl⟩ : ∃ n, fuel = n + 1 := ⟨fuel - 1, by rw [List.length_nil] at hf; omega⟩
    simp [countFrom, Chain.nil_iff.mp h]
  | cons a l ih =>
    obtain ⟨n, rfl⟩ : ∃ n, fuel = n + 1 := ⟨fuel - 1, by omega⟩
    obtain ⟨rfl, h0, hrest⟩ := h
    unfold countFrom
    rw [if_neg h0, ih hrest (by simpa using hf), List.length_cons]
    congr 1
    push_cast
    ring

lemma walkQueue_chain {next : Nat → Nat} {l : List Nat} {p limit : Nat} (h : Chain next p l)
    (hl : l.length ≤ limit) (count : Int) : walkQueue next limit p count = count + l.length := by
  induction l generalizing p limit count with
  | nil =>
    have hp := Chain.nil_iff.mp h
    cases limit with
    | zero => simp [walkQueue]
    | succ limit => simp [walkQueue, hp]
  | cons a l ih =>
    obtain ⟨n, rfl⟩ : ∃ n, limit = n + 1 := ⟨limit - 1, by rw [List.length_cons] at hl; omega⟩
    obtain ⟨rfl, h0, hrest⟩ := h
    unfold walkQueue
    rw [if_neg h0, ih hrest (by simpa using hl), List.length_cons]
    push_cast
    ring

lemma countFreeMessages_eq (h : Rep {p | p ∈ slots} s free box) (hnd : slots.Nodup)
    (hle : slots.length ≤ maxMessages) : countFreeMessages s = some (free.length : Int) := by
  have hlen := h.length_eq hnd
  unfold countFreeMessages
  rw [countFrom_chain h.pool (by omega), zero_add]

/-- The queues without messages add nothing to the sum. -/
lemma sum_activeQueues (h : Rep S s free box) : ((activeQueues s).map Prod.snd).sum =
    ((∑ i ∈ Finset.range maxTasks.toNat, (box i).length : Nat) : Int) := by
  have hfilter : ∀ l : List (Int × Int), (∀ q ∈ l, 0 ≤ q.2) →
      ((l.filter fun q => 0 < q.2).map Prod.snd).sum = (l.map Prod.snd).sum := by
    intro l hl
    induction l with
    | nil => rfl
    | cons q l ih =>
      obtain ⟨hq, hl⟩ := List.forall_mem_cons.mp hl
      rw [List.filter_cons]
      split
      · rw [List.map_cons, List.map_cons, List.sum_cons, List.sum_cons, ih hl]
      · next hno =>
        rw [List.map_cons, List.sum_cons, ih hl]
        have hzero : q.2 = 0 := by simp at hno; omega
        rw [hzero, zero_add]
  have hcount : ∀ r, (s.messageQueues r).count = (box r).length := by
    intro r
    rw [(h.queue r).count, List.length_map]
  unfold activeQueues
  rw [hfilter _ fun q hq => ?_]
  · rw [List.map_map, Nat.cast_sum]
    simp only [Function.comp_def, hcount]
    rfl
  · obtain ⟨i, _, rfl⟩ := List.mem_map.mp hq
    simp [hcount]

lemma activeQueues_nil (h : Rep S s free box) : activeQueues s = [] ↔ ∀ r, box r = [] := by
  have hcount : ∀ r, (s.messageQueues r).count = (box r).length := by
    intro r
    rw [(h.queue r).count, List.length_map]
  unfold activeQueues
  rw [List.filter_eq_nil_iff]
  simp only [List.forall_mem_map, hcount, decide_eq_true_eq, List.mem_range]
  constructor
  · intro hall r
    by_contra hne
    obtain ⟨h0, hlt⟩ := h.valid r hne
    have hr := hall r.toNat (by omega)
    rw [Int.toNat_of_nonneg h0] at hr
    have hpos := List.length_pos_of_ne_nil hne
    omega
  · intro hall i _
    simp [hall]

/-- No queue status ever reports corruption. -/
lemma ipcLogQueueStatus_eq (h : Rep S s free box) {pid : Int} (hpid : 0 ≤ pid ∧ pid < maxTasks) :
    ∃ pointers, ipcLogQueueStatus s pid = some ⟨(box pid).length, pointers, none⟩ := by
  obtain ⟨hc, _, hn⟩ := h.queue pid
  rw [List.length_map] at hn
  unfold ipcLogQueueStatus
  rw [if_neg (by omega)]
  simp only [hn]
  split
  · have hlimit : ((box pid).map Letter.slot).length ≤ ((box pid).length + 5 : Int).toNat := by
      rw [List.length_map]
      omega
    have hwalk := walkQueue_chain hc hlimit 0
    rw [List.length_map, zero_add] at hwalk
    rw [hwalk, if_neg (not_not_intro rfl)]
    exact ⟨_, rfl⟩
  · exact ⟨_, rfl⟩

end Reports

/-- In every reachable state the reports return and are consistent: they count the slots of the free
list and the messages of all queues, and find no queue corrupted. But they take MAX_MESSAGES for the
number of slots, so they count the slots that `ipc_init` did not obtain as used, and report a
mismatch exactly if there are such slots and some message is queued. -/
theorem status_reports (n : Nat) (s₀ : IpcState) (h₀ : Initial n s₀) (ops : List IpcOp)
    (s : History) (hrun : History.run s₀ ops = some s) (currentTask : Int) :
    ∃ free d u, Chain s.ipc.next s.ipc.freeMessages free ∧
      ipcDebugStatus s.ipc currentTask = some d ∧ ipcLogMemoryUsage s.ipc = some u ∧
      d.freeCount = (free.length : Int) ∧
      d.totalQueued = ∑ i ∈ Finset.range maxTasks.toNat, ((s.ipc.pending i).length : Int) ∧
      d.freeCount + d.totalQueued = n ∧ u.freeCount = d.freeCount ∧ u.usedCount = d.usedCount ∧
      d.usedCount = d.totalQueued + (maxMessages - n) ∧
      (d.mismatch ≠ none ↔ n ≠ maxMessages ∧ ∃ r, s.ipc.pending r ≠ []) ∧
      ∀ pid, (ipcLogQueueStatus s.ipc pid = none ↔ pid < 0 ∨ maxTasks ≤ pid) ∧
        ∀ q, ipcLogQueueStatus s.ipc pid = some q →
          q.count = (s.ipc.pending pid).length ∧ q.corruption = none := by
  obtain ⟨slots, s', rfl, hpool, hrun', free, box, hrep, _⟩ := History.run_inv h₀ ops
  obtain rfl := Option.some.inj (hrun'.symm.trans hrun)
  have hnd := hpool.nodup
  have hle := h₀.le
  have hfree := countFreeMessages_eq hrep hnd hle
  have hlen := hrep.length_eq hnd
  have hsum := sum_activeQueues hrep
  have hnil := activeQueues_nil hrep
  rw [hrep.pending_eq]
  have hqueued := hsum.trans (Nat.cast_sum _ _)
  generalize ∑ i ∈ Finset.range maxTasks.toNat, (box i).length = total at hlen hsum
  unfold ipcDebugStatus ipcLogMemoryUsage
  rw [hfree]
  refine ⟨free, _, _, hrep.pool, rfl, rfl, rfl, hqueued, ?_, rfl, rfl, ?_, ?_,
    fun pid => ⟨?_, fun q hq => ?_⟩⟩
  · simp only [hsum]
    omega
  · simp only [hsum]
    omega
  · -- a mismatch is reported for active queues only
    have hzero : ((activeQueues s'.ipc).length : Int) = 0 ↔ ∀ r, box r = [] := by
      rw [Int.natCast_eq_zero, List.length_eq_zero_iff, hnil]
    simp only [hsum]
    by_cases hempty : ∀ r, box r = []
    · rw [if_pos (hzero.mpr hempty)]
      exact iff_of_false (fun h => h rfl) fun h => h.2.elim fun r hr => hr (hempty r)
    · rw [if_neg (mt hzero.mp hempty)]
      have hsome : ∃ r, box r ≠ [] := not_forall.mp hempty
      rw [and_iff_left hsome]
      split
      · exact iff_of_true nofun (by omega)
      · exact iff_of_false (fun h => h rfl) (by omega)
  · by_cases hpid : 0 ≤ pid ∧ pid < maxTasks
    · obtain ⟨pointers, e⟩ := ipcLogQueueStatus_eq hrep hpid
      rw [e]
      exact iff_of_false nofun (by omega)
    · have hout : pid < 0 ∨ maxTasks ≤ pid := by omega
      exact iff_of_true (if_pos hout) hout
  · by_cases hpid : 0 ≤ pid ∧ pid < maxTasks
    · obtain ⟨pointers, e⟩ := ipcLogQueueStatus_eq hrep hpid
      obtain rfl := Option.some.inj (e.symm.trans hq)
      exact ⟨rfl, rfl⟩
    · have hout : pid < 0 ∨ maxTasks ≤ pid := by omega
      rw [ipcLogQueueStatus, if_pos hout] at hq
      cases hq

/-- With two slots, and one message queued, 63 slots are reported to be in use. -/
theorem status_reports_two :
    ∃ s d, History.run poolState [.sendMessage 1 0 (some 0) 4] = some s ∧
      ipcDebugStatus s.ipc 0 = some d ∧ d.freeCount = 1 ∧ d.totalQueued = 1 ∧ d.usedCount = 63 ∧
      d.mismatch ≠ none := by
  obtain ⟨s, slot, hrun, hpending⟩ := History.send_one 1
    (show Sendable 0 (some 0) 4 from ⟨by decide, by decide, rfl⟩)
  have hfree : (History.run poolState [.sendMessage 1 0 (some 0) 4]).bind
      (fun s => countFreeMessages s.ipc) = some 1 := by
    decide +kernel
  rw [hrun, Option.bind_some] at hfree
  obtain ⟨_, d, _, _, hd, _, _, _, hsum, _, _, hused, hmismatch, _⟩ :=
    status_reports 2 poolState poolState_initial _ s hrun 0
  have hcount : d.freeCount = 1 := by
    unfold ipcDebugStatus at hd
    rw [hfree] at hd
    obtain rfl := Option.some.inj hd
    rfl
  have hslots : (maxMessages : Int) = 64 := rfl
  refine ⟨s, d, hrun, hd, hcount, by omega, by omega, hmismatch.mpr ⟨by decide, 0, ?_⟩⟩
  rw [hpending]
  exact List.cons_ne_nil _ _

end Hydra.Ipc
