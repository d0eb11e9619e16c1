import Hydra.Ipc.Message
import Hydra.Lib.Linked
import Hydra.Lib.Mailbox

/-!
# Queues of slots as mailboxes

The linked queues of `kernal/ipc.c` represent mailboxes: for each task a list of letters, oldest
first, each letter held by the slot it was written to. `Rep S s free box` says that the state `s`
represents the boxes `box`, that the free list passes exactly `free`, and that the slots `S` are
distributed over the free list and the boxes, each to one place.

Every C function has one lemma here. `alloc_message` and the first half of `recv_message` take a
slot out of `S`, `free_message` and the second half of `send_message` put it back, so in between
the slot may be written freely (`Rep.frame`). Put together, a send is `Mailbox.post`
(`sendMessage_post`) and a receive is `Mailbox.take` (`recvMessage_take`).
-/

namespace Hydra.Ipc
open ByteMem Linked Mailbox

/-- A message with the slot it is in. -/
structure Letter where
  slot : Nat
  sender : Int
  body : List UInt8
  deriving DecidableEq

/-- The slot of a letter for task `r` has the letter in it. -/
structure Holds (msgs : Nat → Message) (r : Int) (a : Letter) : Prop where
  sender : (msgs a.slot).senderPid = a.sender
  receiver : (msgs a.slot).receiverPid = r
  size : (msgs a.slot).size = a.body.length
  data : bytes (msgs a.slot).data a.body.length = a.body
  pos : 0 < a.body.length
  le : (a.body.length : Int) ≤ maxMessageSize

/-- The queue passes exactly the slots `l`. -/
structure QueueRep (next : Nat → Nat) (q : MsgQueue) (l : List Nat) : Prop where
  chain : Chain next q.head l
  tail : q.tail = l.getLastD 0
  count : q.count = l.length

/-- The state represents the boxes, with the slots `S` spread over the free list and the boxes. -/
structure Rep (S : Set Nat) (s : IpcState) (free : List Nat) (box : Int → List Letter) : Prop where
  pool : Chain s.next s.freeMessages free
  queue : ∀ r, QueueRep s.next (s.messageQueues r) ((box r).map Letter.slot)
  holds : ∀ r, ∀ a ∈ box r, Holds s.msgs r a
  valid : ∀ r, box r ≠ [] → 0 ≤ r ∧ r < maxTasks
  unpooled : ∀ r, ∀ a ∈ box r, a.slot ∉ free
  apart : ∀ r r', ∀ a ∈ box r, ∀ a' ∈ box r', a.slot = a'.slot → r = r'
  cover : ∀ p, p ∈ S ↔ p ∈ free ∨ ∃ r, ∃ a ∈ box r, a.slot = p

variable {S : Set Nat} {s : IpcState} {free : List Nat} {box : Int → List Letter}

/-! ## Slots -/

/-- The content of a slot does not depend on its link. -/
lemma Holds.relink {msgs msgs' : Nat → Message} {r : Int} {a : Letter} (h : Holds msgs r a)
    {n : Nat} (e : msgs' a.slot = { msgs a.slot with next := n }) : Holds msgs' r a := by
  obtain ⟨hs, hr, hn, hd, hpos, hle⟩ := h
  constructor
  · rw [e, ← hs]
  · rw [e, ← hr]
  · rw [e, ← hn]
  · rw [e, ← hd, length_bytes]
  · exact hpos
  · exact hle

namespace Rep

lemma free_mem (h : Rep S s free box) {p : Nat} (hp : p ∈ free) : p ∈ S :=
  (h.cover p).mpr (.inl hp)

lemma box_mem (h : Rep S s free box) {r : Int} {a : Letter} (ha : a ∈ box r) : a.slot ∈ S :=
  (h.cover a.slot).mpr (.inr ⟨r, a, ha, rfl⟩)

lemma slot_mem (h : Rep S s free box) {r : Int} {p : Nat} (hp : p ∈ (box r).map Letter.slot) :
    p ∈ S := by
  obtain ⟨a, ha, rfl⟩ := List.mem_map.mp hp
  exact h.box_mem ha

lemma ne_zero (h : Rep S s free box) {p : Nat} (hp : p ∈ S) : p ≠ 0 := by
  rcases (h.cover p).mp hp with hf | ⟨r, a, ha, rfl⟩
  · exact h.pool.ne_zero hf
  · exact (h.queue r).chain.ne_zero (List.mem_map_of_mem ha)

lemma head_eq_zero (h : Rep S s free box) (r : Int) :
    (s.messageQueues r).head = 0 ↔ box r = [] := by
  rw [(h.queue r).chain.head_eq_zero]
  exact List.map_eq_nil_iff

lemma head_eq (h : Rep S s free box) {r : Int} {a : Letter} {l : List Letter}
    (hb : box r = a :: l) : (s.messageQueues r).head = a.slot := by
  have hc := (h.queue r).chain
  rw [hb] at hc
  exact hc.1

/-- The slots may be written anywhere but in `S`. -/
lemma frame (h : Rep S s free box) {s' : IpcState} (e : ∀ p ∈ S, s'.msgs p = s.msgs p)
    (ef : s'.freeMessages = s.freeMessages) (eq : s'.messageQueues = s.messageQueues) :
    Rep S s' free box := by
  have enext : ∀ p ∈ S, s'.next p = s.next p := by
    intro p hp
    unfold IpcState.next
    rw [e p hp]
  refine ⟨?_, ?_, ?_, h.valid, h.unpooled, h.apart, h.cover⟩
  · rw [ef]
    exact h.pool.congr fun p hp => enext p (h.free_mem hp)
  · intro r
    obtain ⟨hc, ht, hn⟩ := h.queue r
    rw [eq]
    exact ⟨hc.congr fun p hp => enext p (h.slot_mem hp), ht, hn⟩
  · intro r a ha
    exact (h.holds r a ha).relink (e a.slot (h.box_mem ha))

lemma setMsg (h : Rep S s free box) {p : Nat} (hp : p ∉ S) (msg : Message) :
    Rep S (s.setMsg p msg) free box := by
  refine h.frame (fun q hq => ?_) rfl rfl
  have hne : q ≠ p := by
    rintro rfl
    exact hp hq
  exact Function.update_of_ne hne msg s.msgs

end Rep

/-! ## Reading the boxes off the state -/

/-- The message in the slot at a pointer. -/
def IpcState.letter (s : IpcState) (p : Nat) : Letter where
  slot := p
  sender := (s.msgs p).senderPid
  body := bytes (s.msgs p).data (s.msgs p).size.toNat

/-- The messages queued for a task, oldest first: as many as the queue counts, from its head on. -/
def IpcState.pending (s : IpcState) (r : Int) : List Letter :=
  (follow s.next (s.messageQueues r).count.toNat (s.messageQueues r).head).map s.letter

lemma Holds.letter_eq {r : Int} {a : Letter} (h : Holds s.msgs r a) : s.letter a.slot = a := by
  obtain ⟨hs, _, hn, hd, _, _⟩ := h
  unfold IpcState.letter
  rw [hs, hn, Int.toNat_natCast, hd]

/-- The represented boxes are the queued messages. -/
lemma Rep.pending_eq (h : Rep S s free box) : s.pending = box := by
  funext r
  obtain ⟨hc, _, hn⟩ := h.queue r
  unfold IpcState.pending
  rw [hc.follow_eq (by rw [hn, Int.toNat_natCast]), List.map_map]
  calc (box r).map (s.letter ∘ Letter.slot)
      = (box r).map id := List.map_congr_left fun a ha => (h.holds r a ha).letter_eq
    _ = box r := List.map_id _

/-! ## The pool -/

/-- An allocation takes the first free slot out. -/
lemma allocMessage_rep {f : Nat} (h : Rep S s (f :: free) box) :
    ∃ s', allocMessage s = (f, s') ∧ f ∈ S ∧ f ≠ 0 ∧ s'.next f = 0 ∧
      Rep (S \ {f}) s' free box := by
  obtain ⟨hf, hf0, hrest⟩ := h.pool
  have hmem := h.free_mem List.mem_cons_self
  have hnd := List.nodup_cons.mp h.pool.nodup
  refine ⟨({ s with freeMessages := s.next f } : IpcState).setMsg f { s.msgs f with next := 0 },
    ?_, hmem, hf0, ?_, ?_⟩
  · unfold allocMessage
    rw [if_neg (by rw [hf]; exact hf0), hf]
  · simp [IpcState.next, IpcState.setMsg]
  · refine Rep.setMsg ?_ (by simp) _
    refine ⟨hrest, h.queue, h.holds, h.valid, ?_, h.apart, ?_⟩
    · intro r a ha hmem'
      exact h.unpooled r a ha (List.mem_cons_of_mem f hmem')
    · intro p
      have hcover := h.cover p
      constructor
      · rintro ⟨hp, hpf⟩
        rcases hcover.mp hp with hcons | hbox
        · exact .inl ((List.mem_cons.mp hcons).resolve_left hpf)
        · exact .inr hbox
      · rintro (hp | ⟨r, a, ha, rfl⟩)
        · refine ⟨hcover.mpr (.inl (List.mem_cons_of_mem f hp)), ?_⟩
          rintro rfl
          exact hnd.1 hp
        · refine ⟨hcover.mpr (.inr ⟨r, a, ha, rfl⟩), ?_⟩
          intro e
          exact h.unpooled r a ha (e ▸ List.mem_cons_self)

lemma allocMessage_empty (h : Rep S s [] box) : allocMessage s = (0, s) := by
  unfold allocMessage
  rw [if_pos (Chain.nil_iff.mp h.pool)]

/-- A slot put back becomes the first free one. -/
lemma freeMessage_rep {p : Nat} (h : Rep S s free box) (hp : p ∉ S) (h0 : p ≠ 0) :
    Rep (insert p S) (freeMessage s p) (p :: free) box := by
  unfold freeMessage
  rw [if_neg h0]
  simp only
  generalize hmsg : ({ s.msgs p with
    senderPid := -1, receiverPid := -1, size := 0, next := s.freeMessages } : Message) = msg
  have h' := h.setMsg hp msg
  refine ⟨h.pool.push h0 ?_ fun q hq => ?_, h'.queue, h'.holds, h.valid, ?_, h.apart, ?_⟩
  · simp [IpcState.next, IpcState.setMsg, ← hmsg]
  · have hne : q ≠ p := by
      rintro rfl
      exact hp (h.free_mem hq)
    simp [IpcState.next, IpcState.setMsg, hne]
  · intro r a ha hmem
    cases hmem with
    | head => exact hp (h.box_mem ha)
    | tail _ hmem => exact h.unpooled r a ha hmem
  · intro q
    rw [Set.mem_insert_iff, h.cover q, List.mem_cons, or_assoc]

/-! ## The queues -/

namespace QueueRep

variable {next next' : Nat → Nat} {q : MsgQueue} {l : List Nat}

lemma iff_queue : QueueRep next q l ↔ Queue next q.head q.tail l ∧ q.count = l.length :=
  ⟨fun h => ⟨⟨h.chain, h.tail⟩, h.count⟩, fun h => ⟨h.1.chain, h.1.tail_eq, h.2⟩⟩

lemma tail_mem (h : QueueRep next q l) (hne : q.head ≠ 0) : q.tail ∈ l :=
  (iff_queue.mp h).1.tail_mem hne

/-- A fresh slot linked behind the tail makes the queue one longer. -/
lemma concat (h : QueueRep next q l) {p : Nat} (h0 : p ≠ 0) (hp : next' p = 0)
    (htail : q.head ≠ 0 → next' q.tail = p) (e : ∀ a ∈ l, a ≠ q.tail → next' a = next a) :
    QueueRep next'
      { head := if q.head = 0 then p else q.head, tail := p, count := q.count + 1 } (l ++ [p]) := by
  obtain ⟨hq, hn⟩ := iff_queue.mp h
  refine iff_queue.mpr ⟨hq.concat h0 hp htail e, ?_⟩
  simp [hn]

lemma uncons {a : Nat} (h : QueueRep next q (a :: l)) :
    QueueRep next
      { head := next q.head
        tail := if next q.head = 0 then 0 else q.tail
        count := q.count - 1 } l := by
  obtain ⟨hq, hn⟩ := iff_queue.mp h
  refine iff_queue.mpr ⟨hq.uncons, ?_⟩
  simp [hn]

end QueueRep

section Enqueue

variable (s : IpcState) (r : Int) (p : Nat)

lemma enqueue_freeMessages : (enqueue s r p).freeMessages = s.freeMessages := by
  unfold enqueue
  by_cases hhead : (s.messageQueues r).head = 0
  · rw [if_pos hhead]
    rfl
  · rw [if_neg hhead]
    rfl

lemma enqueue_queues : (enqueue s r p).messageQueues = Function.update s.messageQueues r
    { head := if (s.messageQueues r).head = 0 then p else (s.messageQueues r).head
      tail := p
      count := (s.messageQueues r).count + 1 } := by
  unfold enqueue
  by_cases hhead : (s.messageQueues r).head = 0
  · rw [if_pos hhead, if_pos hhead]
    rfl
  · rw [if_neg hhead, if_neg hhead]
    rfl

/-- Only the link of the tail changes, if there is one. -/
lemma enqueue_next (q : Nat) : (enqueue s r p).next q =
    if (s.messageQueues r).head ≠ 0 ∧ q = (s.messageQueues r).tail then p else s.next q := by
  unfold enqueue
  by_cases hhead : (s.messageQueues r).head = 0
  · rw [if_pos hhead, if_neg fun h => h.1 hhead]
    rfl
  · rw [if_neg hhead]
    rcases eq_or_ne q (s.messageQueues r).tail with rfl | hq
    · rw [if_pos ⟨hhead, rfl⟩]
      simp [IpcState.next, IpcState.setQueue, IpcState.setMsg]
    · rw [if_neg fun h => hq h.2]
      simp [IpcState.next, IpcState.setQueue, IpcState.setMsg, hq]

/-- No slot changes but for its link. -/
lemma enqueue_msgs (q : Nat) :
    (enqueue s r p).msgs q = { s.msgs q with next := (enqueue s r p).next q } := by
  unfold enqueue
  by_cases hhead : (s.messageQueues r).head = 0
  · rw [if_pos hhead]
    rfl
  · rw [if_neg hhead]
    rcases eq_or_ne q (s.messageQueues r).tail with rfl | hq
    · simp [IpcState.next, IpcState.setQueue, IpcState.setMsg]
    · simp [IpcState.next, IpcState.setQueue, IpcState.setMsg, hq]

end Enqueue

/-- Enqueueing a filled slot posts its letter. -/
lemma enqueue_rep {r : Int} {a : Letter} (h : Rep S s free box) (hp : a.slot ∉ S)
    (h0 : a.slot ≠ 0) (hnext : s.next a.slot = 0) (ha : Holds s.msgs r a) (hr : 0 ≤ r ∧ r < maxTasks) :
    Rep (insert a.slot S) (enqueue s r a.slot) free (post box r a) := by
  have htail := (h.queue r).tail_mem
  -- only the last slot of the receiver's queue is relinked
  have enext : ∀ q, q ∉ (box r).map Letter.slot → (enqueue s r a.slot).next q = s.next q := by
    intro q hq
    rw [enqueue_next, if_neg]
    rintro ⟨hne, rfl⟩
    exact hq (htail hne)
  constructor
  · rw [enqueue_freeMessages]
    refine h.pool.congr fun q hq => enext q fun hmap => ?_
    obtain ⟨b, hb, rfl⟩ := List.mem_map.mp hmap
    exact h.unpooled r b hb hq
  · intro r'
    rw [enqueue_queues]
    rcases eq_or_ne r' r with rfl | hne
    · rw [post_self, List.map_append, Function.update_self]
      apply (h.queue r').concat h0
      · rw [enext a.slot fun hmap => hp (h.slot_mem hmap)]
        exact hnext
      · intro hhead
        rw [enqueue_next, if_pos ⟨hhead, rfl⟩]
      · intro q _ hq
        rw [enqueue_next, if_neg fun e => hq e.2]
    · obtain ⟨hc, ht, hn⟩ := h.queue r'
      rw [post_of_ne box hne, Function.update_of_ne hne]
      refine ⟨hc.congr fun q hq => enext q fun hmap => ?_, ht, hn⟩
      obtain ⟨b, hb, rfl⟩ := List.mem_map.mp hq
      obtain ⟨b', hb', e⟩ := List.mem_map.mp hmap
      exact hne (h.apart r' r b hb b' hb' e.symm)
  · intro r' b hb
    rcases mem_post.mp hb with hb | ⟨rfl, rfl⟩
    · exact (h.holds r' b hb).relink (enqueue_msgs s r a.slot b.slot)
    · exact ha.relink (enqueue_msgs s r' b.slot b.slot)
  · intro r' hb
    rcases eq_or_ne r' r with rfl | hne
    · exact hr
    · rw [post_of_ne box hne] at hb
      exact h.valid r' hb
  · intro r' b hb hfree
    rcases mem_post.mp hb with hb | ⟨rfl, rfl⟩
    · exact h.unpooled r' b hb hfree
    · exact hp (h.free_mem hfree)
  · intro r₁ r₂ b₁ hb₁ b₂ hb₂ e
    rcases mem_post.mp hb₁ with hin₁ | ⟨rfl, rfl⟩
    · rcases mem_post.mp hb₂ with hin₂ | ⟨_, rfl⟩
      · exact h.apart r₁ r₂ b₁ hin₁ b₂ hin₂ e
      · rw [← e] at hp
        exact absurd (h.box_mem hin₁) hp
    · rcases mem_post.mp hb₂ with hin₂ | ⟨rfl, _⟩
      · rw [e] at hp
        exact absurd (h.box_mem hin₂) hp
      · rfl
  · intro q
    rw [Set.mem_insert_iff, h.cover q]
    constructor
    · rintro (rfl | hq | ⟨r', b, hb, rfl⟩)
      · exact .inr ⟨r, a, mem_post.mpr (.inr ⟨rfl, rfl⟩), rfl⟩
      · exact .inl hq
      · exact .inr ⟨r', b, mem_post.mpr (.inl hb), rfl⟩
    · rintro (hq | ⟨r', b, hb, rfl⟩)
      · exact .inr (.inl hq)
      · rcases mem_post.mp hb with hb | ⟨rfl, rfl⟩
        · exact .inr (.inr ⟨r', b, hb, rfl⟩)
        · exact .inl rfl

/-- Taking the head off a queue takes the oldest letter out. -/
lemma dequeue_rep {r : Int} {a : Letter} {l : List Letter} (h : Rep S s free box)
    (hb : box r = a :: l) : Rep (S \ {a.slot}) (dequeue s r) free (take box r) := by
  have hq := h.queue r
  rw [hb] at hq
  have hnd := List.nodup_cons.mp hq.chain.nodup
  have hne : ∀ {r' b}, b ∈ take box r r' → b.slot ≠ a.slot := by
    intro r' b hb' e
    obtain rfl := h.apart r' r b (mem_of_mem_take hb') a (by simp [hb]) e
    rw [take_self, hb] at hb'
    exact hnd.1 (e ▸ List.mem_map_of_mem hb')
  refine ⟨h.pool, ?_, ?_, ?_, ?_, ?_, ?_⟩
  · intro r'
    show QueueRep s.next (Function.update s.messageQueues r _ r') _
    rcases eq_or_ne r' r with rfl | hr
    · rw [take_self, hb, Function.update_self]
      exact hq.uncons
    · rw [take_of_ne box hr, Function.update_of_ne hr]
      exact h.queue r'
  · intro r' b hb'
    exact (h.holds r' b (mem_of_mem_take hb')).relink rfl
  · intro r' hne'
    obtain ⟨b, hb'⟩ := List.exists_mem_of_ne_nil _ hne'
    exact h.valid r' (List.ne_nil_of_mem (mem_of_mem_take hb'))
  · intro r' b hb'
    exact h.unpooled r' b (mem_of_mem_take hb')
  · intro r₁ r₂ b₁ hb₁ b₂ hb₂
    exact h.apart r₁ r₂ b₁ (mem_of_mem_take hb₁) b₂ (mem_of_mem_take hb₂)
  · intro q
    constructor
    · rintro ⟨hq, hqa⟩
      rcases (h.cover q).mp hq with hq | ⟨r', b, hb', rfl⟩
      · exact .inl hq
      · rcases eq_or_mem_take hb hb' with rfl | hb'
        · exact absurd rfl hqa
        · exact .inr ⟨r', b, hb', rfl⟩
    · rintro (hq | ⟨r', b, hb', rfl⟩)
      · refine ⟨h.free_mem hq, ?_⟩
        rintro rfl
        exact h.unpooled r a (by simp [hb]) hq
      · exact ⟨h.box_mem (mem_of_mem_take hb'), hne hb'⟩

/-! ## The two calls -/

lemma fill_holds (s : IpcState) (f : Nat) (t r : Int) (src : Mem) {size : Int} (h : 0 < size)
    (hle : size ≤ maxMessageSize) :
    Holds (fill s f t r src size).msgs r ⟨f, t, bytes src size.toNat⟩ := by
  have e : (fill s f t r src size).msgs f = { s.msgs f with
      senderPid := t
      receiverPid := r
      size := size
      data := copy src size.toNat (s.msgs f).data } := Function.update_self _ _ _
  constructor
  · rw [e]
  · rw [e]
  · rw [e, length_bytes]
    simp only
    omega
  · rw [e, length_bytes]
    refine bytes_congr fun i hi => ?_
    simp only [copy_apply, if_pos hi]
  · rw [length_bytes]
    omega
  · rw [length_bytes]
    omega

/-- The arguments of a send pass all checks. -/
def Sendable (receiverPid : Int) (data : Option Mem) (size : Int) : Prop :=
  (0 ≤ receiverPid ∧ receiverPid < maxTasks) ∧ (0 < size ∧ size ≤ maxMessageSize) ∧ data.isSome

lemma sendMessage_rejected (s : IpcState) {t r size : Int} {data : Option Mem}
    (h : ¬Sendable r data size) : sendMessage s t r data size = (-1, s) := by
  unfold sendMessage
  split_ifs with hr hlo hhi
  · rfl
  · rfl
  · rfl
  · cases data with
    | none => rfl
    | some src => exact absurd ⟨by omega, by omega, rfl⟩ h

lemma sendMessage_empty (h : Rep S s [] box) (t r : Int) (data : Option Mem) (size : Int) :
    sendMessage s t r data size = (-1, s) := by
  unfold sendMessage
  split_ifs
  · rfl
  · rfl
  · rfl
  · cases data with
    | none => rfl
    | some src => simp only [allocMessage_empty h, if_true]

/-- A send that passes the checks posts its letter in the first free slot. -/
theorem sendMessage_post {f : Nat} (h : Rep S s (f :: free) box) (t : Int) {r size : Int}
    {src : Mem} (hok : Sendable r (some src) size) :
    ∃ s', sendMessage s t r (some src) size = (0, s') ∧
      Rep S s' free (post box r ⟨f, t, bytes src size.toNat⟩) := by
  obtain ⟨hr, hsize, _⟩ := hok
  obtain ⟨s₁, halloc, hfS, hf0, hnext, h₁⟩ := allocMessage_rep h
  have hout : f ∉ S \ {f} := by simp
  have h₂ : Rep (S \ {f}) (fill s₁ f t r src size) free box := h₁.setMsg hout _
  have hnext₂ : (fill s₁ f t r src size).next f = 0 := by
    simpa [fill, IpcState.setMsg, IpcState.next] using hnext
  have hholds := fill_holds s₁ f t r src hsize.1 hsize.2
  have h₃ := enqueue_rep (a := ⟨f, t, bytes src size.toNat⟩) h₂ hout hf0 hnext₂ hholds hr
  rw [Set.insert_sdiff_singleton, Set.insert_eq_of_mem hfS] at h₃
  refine ⟨_, ?_, h₃⟩
  unfold sendMessage
  rw [if_neg (by omega), if_neg (by omega), if_neg (by omega)]
  simp only [halloc, if_neg hf0]

/-- Every send either fails without effect or posts its letter. -/
theorem sendMessage_cases (h : Rep S s free box) (t r : Int) (data : Option Mem) (size : Int) :
    (sendMessage s t r data size = (-1, s) ∧ (¬Sendable r data size ∨ free = [])) ∨
    ∃ f free' src s', free = f :: free' ∧ data = some src ∧ Sendable r (some src) size ∧
      sendMessage s t r data size = (0, s') ∧
      Rep S s' free' (post box r ⟨f, t, bytes src size.toNat⟩) := by
  by_cases hok : Sendable r data size
  · cases free with
    | nil => exact .inl ⟨sendMessage_empty h t r data size, .inr rfl⟩
    | cons f free' =>
      obtain ⟨src, rfl⟩ := Option.isSome_iff_exists.mp hok.2.2
      obtain ⟨s', hcall, hrep⟩ := sendMessage_post h t hok
      exact .inr ⟨f, free', src, s', rfl, rfl, hok, hcall, hrep⟩
  · exact .inl ⟨sendMessage_rejected s hok, .inl hok⟩

/-- The arguments of a receive pass all checks. -/
def Receivable (currentTask : Int) (buffer : Option Mem) (maxSize : Int) : Prop :=
  buffer.isSome ∧ 0 < maxSize ∧ 0 ≤ currentTask ∧ currentTask < maxTasks

lemma recvMessage_rejected (s : IpcState) {t sender maxSize : Int} {buffer : Option Mem}
    (h : ¬Receivable t buffer maxSize) :
    recvMessage s t sender buffer maxSize = ⟨-1, buffer, s⟩ := by
  cases buffer with
  | none => rfl
  | some dst =>
    unfold recvMessage
    by_cases hmax : maxSize ≤ 0
    · simp only [if_pos hmax]
    · have ht : t < 0 ∨ maxTasks ≤ t := by
        by_contra ht
        exact h ⟨rfl, by omega, by omega, by omega⟩
      simp only [if_neg hmax, if_pos ht]

lemma recvMessage_empty (h : Rep S s free box) {t : Int} (hb : box t = []) (sender : Int)
    (buffer : Option Mem) (maxSize : Int) :
    recvMessage s t sender buffer maxSize = ⟨-1, buffer, s⟩ := by
  cases buffer with
  | none => rfl
  | some dst =>
    unfold recvMessage
    simp only [(h.head_eq_zero t).mpr hb, if_true]
    split_ifs
    · rfl
    · rfl
    · rfl

/-- A receive that passes the checks takes the oldest letter, whoever sent it, and copies as much
of it as the buffer has room for. -/
theorem recvMessage_take (h : Rep S s free box) {t maxSize : Int} {dst : Mem}
    (hok : Receivable t (some dst) maxSize) {a : Letter} {l : List Letter} (hb : box t = a :: l)
    (sender : Int) :
    ∃ s', recvMessage s t sender (some dst) maxSize =
        ⟨a.body.length, some (paste (a.body.take maxSize.toNat) dst), s'⟩ ∧
      Rep S s' (a.slot :: free) (take box t) := by
  obtain ⟨_, hmax, ht⟩ := hok
  have hmem : a ∈ box t := by simp [hb]
  have haS := h.box_mem hmem
  have ha0 := h.ne_zero haS
  obtain ⟨_, _, hsize, hdata, hpos, hle⟩ := h.holds t a hmem
  have h₁ := dequeue_rep h hb
  have h₂ := freeMessage_rep h₁ (p := a.slot) (by simp) ha0
  rw [Set.insert_sdiff_singleton, Set.insert_eq_of_mem haS] at h₂
  have hmsgs : (dequeue s t).msgs = s.msgs := rfl
  have hcopy : copy (s.msgs a.slot).data
      (if (a.body.length : Int) < maxSize then (a.body.length : Int) else maxSize).toNat dst =
      paste (a.body.take maxSize.toNat) dst := by
    rw [copy_eq_paste, ← hdata, bytes_take, length_bytes]
    congr 2
    split <;> omega
  refine ⟨freeMessage (dequeue s t) a.slot, ?_, h₂⟩
  unfold recvMessage
  simp only [h.head_eq hb, hmsgs, hsize]
  rw [if_neg (by omega), if_neg (by omega), if_neg ha0, if_neg (by omega), hcopy]

/-- Every receive either fails without effect or takes the oldest letter. -/
theorem recvMessage_cases (h : Rep S s free box) (t sender : Int) (buffer : Option Mem)
    (maxSize : Int) :
    (recvMessage s t sender buffer maxSize = ⟨-1, buffer, s⟩ ∧
      (¬Receivable t buffer maxSize ∨ box t = [])) ∨
    ∃ a l dst s', box t = a :: l ∧ buffer = some dst ∧ Receivable t (some dst) maxSize ∧
      recvMessage s t sender buffer maxSize =
        ⟨a.body.length, some (paste (a.body.take maxSize.toNat) dst), s'⟩ ∧
      Rep S s' (a.slot :: free) (take box t) := by
  by_cases hok : Receivable t buffer maxSize
  · cases hb : box t with
    | nil => exact .inl ⟨recvMessage_empty h hb sender buffer maxSize, .inr rfl⟩
    | cons a l =>
      obtain ⟨dst, rfl⟩ := Option.isSome_iff_exists.mp hok.1
      obtain ⟨s', hcall, hrep⟩ := recvMessage_take h hok hb sender
      exact .inr ⟨a, l, dst, s', rfl, rfl, hok, hcall, hrep⟩
  · exact .inl ⟨recvMessage_rejected s hok, .inl hok⟩

lemma sendMessage_rep (h : Rep S s free box) (t receiver : Int) (data : Option Mem) (size : Int) :
    ∃ free' box', Rep S (sendMessage s t receiver data size).2 free' box' := by
  rcases sendMessage_cases h t receiver data size with
    ⟨e, _⟩ | ⟨f, free', src, s', _, _, _, e, h'⟩
  · rw [e]
    exact ⟨free, box, h⟩
  · rw [e]
    exact ⟨_, _, h'⟩

lemma recvMessage_rep (h : Rep S s free box) (t sender : Int) (buffer : Option Mem) (maxSize : Int) :
    ∃ free' box', Rep S (recvMessage s t sender buffer maxSize).state free' box' := by
  rcases recvMessage_cases h t sender buffer maxSize with
    ⟨e, _⟩ | ⟨a, l, dst, s', _, _, _, e, h'⟩
  · rw [e]
    exact ⟨free, box, h⟩
  · rw [e]
    exact ⟨_, _, h'⟩

end Hydra.Ipc
