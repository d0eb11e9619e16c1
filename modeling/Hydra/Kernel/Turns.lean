import Hydra.Server.System
import Hydra.Sched.Invariant

/-!
# The booted system

`kmain` creates the two servers behind the three idle tasks of `sched_init`, so the bullet server
gets the pid 3 and the network server the pid 4, those that their clients assume, and stays the
current task 0 itself. Its loop never ends, and yields once in every round, like the loops of all
the other tasks. So the system takes turns: the current task runs its loop up to the yield, and
`schedule` moves on to the next task in cyclic order (`AllUp.taskYield`).

What the kernel loop does with the message system in its turn is an input: any client calls, sends
and receives. An idle task does nothing with it.

Each task only adds letters to the queues of the others, and a server takes one letter in each of
its turns (`turn_cases`). So a letter moves one place up in every five turns, and `served_within`
says when it is answered, whatever the kernel loop does meanwhile. Nobody ever takes a letter that
is addressed to another pid. `stranded_slots` says what this comes to: the slots of such letters are
gone, and when all slots are, no message is ever sent again.
-/

namespace Hydra.Kernel
open ByteMem Mailbox Hydra.Ipc Hydra.Server
open Hydra.Sched (Machine Image Regs Inv createTask taskYield cyc)

/-! ## The code -/

/-- What the loop of `kmain` does with the message system before it yields. -/
inductive KernelCall where
  | call (stack : Mem) (c : ClientCall)
  | send (receiver : Int) (data : Option Mem) (size : Int)
  | recv (sender : Int) (buffer : Option Mem) (maxSize : Int)

/-- The kernel loop runs as task 0. -/
def KernelCall.op : KernelCall → SystemOp
  | call stack c => .call 0 stack c
  | send receiver data size => .send 0 receiver data size
  | recv sender buffer maxSize => .recv 0 sender buffer maxSize

/-- What comes from outside in a turn: what the kernel loop is made to do, or what the network
server receives. -/
structure Input where
  calls : List KernelCall
  packetBuffer : Mem
  pkt : Option Hydra.Net.Packet

/-- The tasks, and what they share. -/
structure Booted where
  machine : Machine
  system : System

/-- The loop of a task up to its yield. -/
def body (w : System) (t : Int) (i : Input) : Option System :=
  if t = 0 then System.run w (i.calls.map KernelCall.op)
  else if t = bulletServerPid then some w.bulletServer
  else if t = netServerPid then some (w.netServer i.packetBuffer i.pkt)
  else some w

/-- A turn of the current task. -/
def turn (b : Booted) (i : Input) : Option Booted :=
  (body b.system b.machine.currentTask i).bind fun w =>
    (taskYield b.machine).map fun s => ⟨s, w⟩

/-- The tasks that `sched_init` and `kmain` create. -/
def bootMachine (img : Image) (regs : Regs) (bulletServerMain netServerMain : UInt64) : Machine :=
  let s := Sched.initial img regs
  let s := (createTask img s bulletServerMain).2
  (createTask img s netServerMain).2

/-- The run of turns from a state. -/
abbrev turns (b : Booted) (is : List Input) : Option Booted := Run.run turn b is

/-! ## Taking turns -/

/-- All tasks are ready, but for the current one, which may run. -/
structure AllUp (s : Machine) : Prop where
  inv : Inv s
  two : 2 ≤ s.numTasks
  up : ∀ t, 0 ≤ t → t < s.numTasks → (s.tasks t).state = .ready ∨ (s.tasks t).state = .running

namespace AllUp

variable {s : Machine}

/-- The next task is ready. -/
lemma next_ready (h : AllUp s) : (s.tasks (cyc s.numTasks s.currentTask 1)).state = .ready := by
  have h0 := h.inv.current_nonneg
  have hlt := h.inv.current_lt
  have htwo := h.two
  have hnext0 := Sched.cyc_nonneg (n := s.numTasks) h0 (show (0 : Int) ≤ 1 by decide)
  have hnext := Sched.cyc_lt (k := 1) hlt (by omega)
  refine (h.up _ hnext0 hnext).resolve_right fun hrun => ?_
  have hself := h.inv.running _ hnext0 (hnext.trans_le h.inv.num_le) hrun
  have hone := (Sched.cyc_eq_self h0 le_rfl).mp hself
  omega

/-- A yield moves on to the next task. -/
lemma taskYield (h : AllUp s) :
    ∃ s', taskYield s = some s' ∧ AllUp s' ∧ s'.numTasks = s.numTasks ∧
      s'.currentTask = cyc s.numTasks s.currentTask 1 := by
  rw [Sched.taskYield_eq]
  have htwo := h.two
  rcases Sched.schedule_cases h.inv with ⟨_, hnone⟩ | ⟨j, hj, hjn, hskip, sw, e⟩
  · exact absurd h.next_ready (hnone 1 le_rfl (by omega))
  · obtain rfl : j = 1 := by
      by_contra hne
      exact hskip 1 le_rfl (by omega) h.next_ready
    have hnum := Sched.switchTo_numTasks s sw.ne
    refine ⟨_, e, ⟨Sched.switchTo_inv h.inv sw, hnum.symm ▸ htwo, fun t h0 hlt => ?_⟩, hnum,
      Sched.switchTo_currentTask s sw.ne⟩
    rw [Sched.switchTo_state s sw.ne]
    split
    · exact .inr rfl
    · split
      · exact .inl rfl
      · exact h.up t h0 (hnum ▸ hlt)

end AllUp

/-- The servers get the pids that their clients assume, and all five tasks are ready. -/
lemma bootMachine_spec (img : Image) (regs : Regs) (bulletServerMain netServerMain : UInt64) :
    (createTask img (Sched.initial img regs) bulletServerMain).1 = bulletServerPid ∧
      (createTask img (createTask img (Sched.initial img regs) bulletServerMain).2
        netServerMain).1 = netServerPid ∧
      AllUp (bootMachine img regs bulletServerMain netServerMain) ∧
      (bootMachine img regs bulletServerMain netServerMain).numTasks = 5 ∧
      (bootMachine img regs bulletServerMain netServerMain).currentTask = 0 := by
  refine ⟨rfl, rfl, ⟨?_, ?_, fun t h0 hlt => .inl ?_⟩, rfl, rfl⟩
  · exact Sched.createTask_inv img (Sched.createTask_inv img (Sched.initial_inv img regs) _) _
  · show (2 : Int) ≤ 5
    decide
  · have hlt' : t < 5 := hlt
    have e : (bootMachine img regs bulletServerMain netServerMain).tasks t =
        Function.update (Function.update (Sched.initial img regs).tasks 3 ⟨3, .ready, _⟩) 4
          ⟨4, .ready, _⟩ t := rfl
    rw [e]
    rcases eq_or_ne t 4 with rfl | h4
    · rw [Function.update_self]
    · rw [Function.update_of_ne h4]
      rcases eq_or_ne t 3 with rfl | h3
      · rw [Function.update_self]
      · have hmax : t < maxTasks := hlt'.trans (by decide)
        rw [Function.update_of_ne h3, (Sched.initial_tasks img regs h0 hmax).2, if_pos (by omega)]

/-! ## What a task does to the queues -/

/-- The task that executes an operation. -/
def taskOf : SystemOp → Int
  | .call t _ _ => t
  | .netServer _ _ => netServerPid
  | .bulletServer => bulletServerPid
  | .send t _ _ _ => t
  | .recv t _ _ _ => t

section Queues

variable {S : Set Nat} {free : List Nat} {box box' : Int → List Letter}

/-- The task `t` may have taken letters of its own, the other queues can only have grown. -/
def OthersGrow (t : Int) (box box' : Int → List Letter) : Prop := ∀ r, r ≠ t → box r <+: box' r

lemma OthersGrow.refl (t : Int) (box : Int → List Letter) : OthersGrow t box box :=
  fun _ _ => List.prefix_rfl

lemma OthersGrow.trans {t : Int} {box₁ box₂ box₃ : Int → List Letter}
    (h : OthersGrow t box₁ box₂) (h' : OthersGrow t box₂ box₃) : OthersGrow t box₁ box₃ :=
  fun r hr => (h r hr).trans (h' r hr)

lemma prefix_post (box : Int → List Letter) (server : Int) (a : Letter) (r : Int) :
    box r <+: post box server a r := by
  rcases eq_or_ne r server with rfl | hne
  · rw [post_self]
    exact List.prefix_append _ _
  · rw [post_of_ne box hne]

lemma othersGrow_post (t : Int) (box : Int → List Letter) (server : Int) (a : Letter) :
    OthersGrow t box (post box server a) :=
  fun r _ => prefix_post box server a r

lemma othersGrow_take (t : Int) (box : Int → List Letter) : OthersGrow t box (take box t) := by
  intro r hr
  rw [take_of_ne box hr]

lemma sendMessage_grows {s : IpcState} (h : Rep S s free box) (t receiver : Int)
    (data : Option Mem) (size : Int) :
    ∃ free' box', Rep S (sendMessage s t receiver data size).2 free' box' ∧
      OthersGrow t box box' := by
  rcases sendMessage_cases h t receiver data size with
    ⟨e, _⟩ | ⟨f, free', src, s', _, _, _, e, h'⟩
  · rw [e]
    exact ⟨free, box, h, .refl t box⟩
  · rw [e]
    exact ⟨free', _, h', othersGrow_post t box receiver _⟩

lemma recvMessage_grows {s : IpcState} (h : Rep S s free box) (t sender : Int)
    (buffer : Option Mem) (maxSize : Int) :
    ∃ free' box', Rep S (recvMessage s t sender buffer maxSize).state free' box' ∧
      OthersGrow t box box' := by
  rcases recvMessage_cases h t sender buffer maxSize with
    ⟨e, _⟩ | ⟨a, l, dst, s', _, _, _, e, h'⟩
  · rw [e]
    exact ⟨free, box, h, .refl t box⟩
  · rw [e]
    exact ⟨_, _, h', othersGrow_take t box⟩

/-- A client call posts one letter, and takes one of its own. -/
lemma exec_grows {s : IpcState} (h : Rep S s free box) (t : Int) (stack : Mem) (c : ClientCall) :
    ∃ free' box', Rep S (c.exec s t stack).state free' box' ∧ OthersGrow t box box' := by
  obtain ⟨cmdData, e⟩ := c.exec_eq s t stack
  rw [e]
  rcases clientCall_cases h t c.server_valid c.size_le cmdData with
    ⟨e', _⟩ | ⟨f, free', a, s₁, r, _, _, _, e', _, _, h₁, hrest⟩
  · rw [e']
    exact ⟨free, box, h, .refl t box⟩
  · rw [e']
    rcases hrest with ⟨_, hs, _⟩ | ⟨b, l, _, _, _, h₂⟩
    · rw [hs]
      exact ⟨_, _, h₁, othersGrow_post t box _ a⟩
    · exact ⟨_, _, h₂, (othersGrow_post t box _ a).trans (othersGrow_take t _)⟩

/-- A server takes the first of its letters, if there is one, and posts one letter at most. -/
lemma serve_grows {W : Type} (handle : W → Int → Mem → Int → Option Reply × W) (world : W)
    {s : IpcState} (h : Rep S s free box) (t : Int) (msgBuffer : Mem) :
    ∃ free' box', Rep S (serve handle world s t msgBuffer).ipc free' box' ∧
      OthersGrow t box box' ∧ (box t).tail <+: box' t := by
  cases hb : box t with
  | nil =>
    rw [serve_idle handle world msgBuffer h hb]
    exact ⟨free, box, h, .refl t box, List.nil_prefix⟩
  | cons a l =>
    obtain ⟨s₁, h₁, e⟩ := serve_letter handle world msgBuffer h hb
    have htail : (a :: l).tail = take box t t := by rw [take_self, hb]
    rw [e, htail]
    rcases sendReply_cases h₁ t (arg (deliver msgBuffer a.body) 0)
      (handle world (arg (deliver msgBuffer a.body) 0) (shift (deliver msgBuffer a.body) 4)
        (a.body.length - 4)).1 with ⟨e', _⟩ | ⟨f, free', x, s₂, _, _, _, e', h₂⟩
    · simp only [e']
      exact ⟨_, _, h₁, othersGrow_take t box, List.prefix_rfl⟩
    · simp only [e']
      exact ⟨_, _, h₂, (othersGrow_take t box).trans (othersGrow_post t _ _ _),
        prefix_post _ _ _ t⟩

/-- Every operation leaves the letters of the other tasks where they are. -/
lemma step_grows {w : System} (h : Rep S w.ipc free box) (op : SystemOp) :
    ∃ w' free' box', System.step w op = some w' ∧ Rep S w'.ipc free' box' ∧
      OthersGrow (taskOf op) box box' := by
  cases op with
  | call t stack c =>
    obtain ⟨free', box', h', hgrow⟩ := exec_grows h t stack c
    exact ⟨_, free', box', rfl, h', hgrow⟩
  | netServer packetBuffer pkt =>
    obtain ⟨free', box', h', hgrow, _⟩ :=
      serve_grows netHandleClientMessage _ h netServerPid w.netBuffer
    exact ⟨_, free', box', rfl, h', hgrow⟩
  | bulletServer =>
    obtain ⟨free', box', h', hgrow, _⟩ :=
      serve_grows bulletHandleClientMessage _ h bulletServerPid w.bulletBuffer
    exact ⟨_, free', box', rfl, h', hgrow⟩
  | send t receiver data size =>
    obtain ⟨free', box', h', hgrow⟩ := sendMessage_grows h t receiver data size
    exact ⟨_, free', box', rfl, h', hgrow⟩
  | recv t sender buffer maxSize =>
    obtain ⟨free', box', h', hgrow⟩ := recvMessage_grows h t sender buffer maxSize
    exact ⟨_, free', box', rfl, h', hgrow⟩

end Queues

/-! ## Turns -/

/-- The tasks whose loops take messages. -/
def Receives (t : Int) : Prop := t = 0 ∨ t = bulletServerPid ∨ t = netServerPid

/-- The tasks are up, and the slots `S` are distributed over the pool and the queues. -/
structure Up (S : Set Nat) (b : Booted) : Prop where
  machine : AllUp b.machine
  five : b.machine.numTasks = 5
  ipc : ∃ free box, Rep S b.system.ipc free box

/-- The messages queued for a task, oldest first. -/
def Booted.pending (b : Booted) (r : Int) : List Letter := b.system.ipc.pending r

section Turns

variable {S : Set Nat} {free : List Nat} {box : Int → List Letter} {w : System} {b : Booted}

/-- The kernel loop takes no letters but its own. -/
lemma calls_grow (h : Rep S w.ipc free box) (calls : List KernelCall) :
    ∃ w' free' box', System.run w (calls.map KernelCall.op) = some w' ∧ Rep S w'.ipc free' box' ∧
      OthersGrow 0 box box' := by
  induction calls generalizing w free box with
  | nil => exact ⟨w, free, box, rfl, h, .refl 0 box⟩
  | cons c calls ih =>
    have htask : taskOf c.op = 0 := by cases c <;> rfl
    obtain ⟨w₁, free₁, box₁, e, h₁, hgrow⟩ := step_grows h c.op
    obtain ⟨w', free', box', hrun, h', hgrow'⟩ := ih h₁
    rw [htask] at hgrow
    exact ⟨w', free', box', (Run.run_cons e).trans hrun, h', hgrow.trans hgrow'⟩

/-- The loop of a task takes letters of its own only, an idle task none, and a server one. -/
lemma body_cases (h : Rep S w.ipc free box) (t : Int) (i : Input) :
    ∃ w' free' box', body w t i = some w' ∧ Rep S w'.ipc free' box' ∧
      (∀ r, (r = t → ¬Receives r) → box r <+: box' r) ∧
      (t = bulletServerPid ∨ t = netServerPid → (box t).tail <+: box' t) := by
  have hothers : ∀ {box' : Int → List Letter}, Receives t → OthersGrow t box box' →
      ∀ r, (r = t → ¬Receives r) → box r <+: box' r := by
    intro box' ht hgrow r hr
    exact hgrow r fun heq => hr heq (heq ▸ ht)
  unfold body
  by_cases h0 : t = 0
  · subst h0
    obtain ⟨w', free', box', e, h', hgrow⟩ := calls_grow h i.calls
    rw [if_pos rfl]
    exact ⟨w', free', box', e, h', hothers (.inl rfl) hgrow, fun hno => absurd hno (by decide)⟩
  · rw [if_neg h0]
    by_cases h3 : t = bulletServerPid
    · subst h3
      obtain ⟨free', box', h', hgrow, htail⟩ :=
        serve_grows bulletHandleClientMessage
          (if w.bullet.active then w.bullet else bulletInit w.bullet bulletServerPid) h
          bulletServerPid w.bulletBuffer
      rw [if_pos rfl]
      exact ⟨_, free', box', rfl, h', hothers (.inr (.inl rfl)) hgrow, fun _ => htail⟩
    · rw [if_neg h3]
      by_cases h4 : t = netServerPid
      · subst h4
        obtain ⟨free', box', h', hgrow, htail⟩ :=
          serve_grows netHandleClientMessage
            (if w.net.netserv.active then w.net
              else { w.net with netserv := netServerInit w.net.netserv netServerPid }) h
            netServerPid w.netBuffer
        rw [if_pos rfl]
        exact ⟨_, free', box', rfl, h', hothers (.inr (.inr rfl)) hgrow, fun _ => htail⟩
      · rw [if_neg h4]
        refine ⟨w, free, box, rfl, h, fun r _ => List.prefix_rfl, fun hno => ?_⟩
        exact absurd hno (not_or.mpr ⟨h3, h4⟩)

/-- A turn ends, and moves on to the next task; only the current task takes letters, an idle task
none, and a server one. -/
lemma turn_cases (h : Up S b) (i : Input) :
    ∃ b', turn b i = some b' ∧ Up S b' ∧
      b'.machine.currentTask = cyc 5 b.machine.currentTask 1 ∧
      (∀ r, (r = b.machine.currentTask → ¬Receives r) → b.pending r <+: b'.pending r) ∧
      (b.machine.currentTask = bulletServerPid ∨ b.machine.currentTask = netServerPid →
        (b.pending b.machine.currentTask).tail <+: b'.pending b.machine.currentTask) := by
  obtain ⟨hup, hfive, free, box, hrep⟩ := h
  obtain ⟨w', free', box', e, hrep', hgrow, htail⟩ := body_cases hrep b.machine.currentTask i
  obtain ⟨s', e', hup', hnum, hcur⟩ := hup.taskYield
  refine ⟨⟨s', w'⟩, ?_, ⟨hup', hnum.trans hfive, free', box', hrep'⟩, ?_, ?_, ?_⟩
  · unfold turn
    rw [e, Option.bind_some, e', Option.map_some]
  · rw [hfive] at hcur
    exact hcur
  · unfold Booted.pending
    rw [hrep.pending_eq, hrep'.pending_eq]
    exact hgrow
  · unfold Booted.pending
    rw [hrep.pending_eq, hrep'.pending_eq]
    exact htail

end Turns

/-! ## Waiting for a server -/

/-- The servers. -/
def IsServer (t : Int) : Prop := t = bulletServerPid ∨ t = netServerPid

instance instDecidablePredIsServer : DecidablePred IsServer :=
  fun _ => inferInstanceAs (Decidable (_ ∨ _))

/-- The number of turns until a letter is taken by the server: five for each letter in front of it,
and those until the server is the current task. -/
def turnsAhead (server : Int) (a : Letter) (b : Booted) : Nat :=
  5 * (b.pending server).idxOf a + ((server - b.machine.currentTask) % 5).toNat

/-- The letter waits for the server. -/
structure Awaits (S : Set Nat) (server : Int) (a : Letter) (b : Booted) : Prop where
  up : Up S b
  mem : a ∈ b.pending server

/-- The server is the current task, and the letter is the next one it takes. -/
def NextServed (server : Int) (a : Letter) (b : Booted) : Prop :=
  b.machine.currentTask = server ∧ (b.pending server).head? = some a

/-- A letter keeps its place when others are put behind it. -/
lemma idxOf_kept {a : Letter} {l l' : List Letter} (h : l <+: l') (ha : a ∈ l) :
    l'.idxOf a = l.idxOf a := by
  obtain ⟨m, rfl⟩ := h
  exact List.idxOf_append_of_mem ha

/-- Every turn brings a letter nearer to being served. -/
lemma turn_nearer {S : Set Nat} {server : Int} (hserver : IsServer server) {a : Letter} {b : Booted}
    (h : Awaits S server a b) (i : Input) :
    NextServed server a b ∨ ∃ b', turn b i = some b' ∧ Awaits S server a b' ∧
      turnsAhead server a b' < turnsAhead server a b := by
  obtain ⟨hup, hmem⟩ := h
  obtain ⟨b', e, hup', hcur, hgrow, htail⟩ := turn_cases hup i
  have hc0 := hup.machine.inv.current_nonneg
  have hc5 := hup.machine.inv.current_lt
  rw [hup.five] at hc5
  have hrange : 0 ≤ server ∧ server < 5 := by
    rcases hserver with rfl | rfl <;> decide
  unfold cyc at hcur
  by_cases hself : b.machine.currentTask = server
  · have htail' := htail (hself ▸ hserver)
    rw [hself] at htail' hcur
    cases hb : b.pending server with
    | nil => exact absurd (hb ▸ hmem) List.not_mem_nil
    | cons x l =>
      by_cases hx : x = a
      · exact .inl ⟨hself, by rw [hb, hx]; rfl⟩
      · right
        have hal : a ∈ l := (List.mem_cons.mp (hb ▸ hmem)).resolve_left (Ne.symm hx)
        rw [hb, List.tail_cons] at htail'
        refine ⟨b', e, ⟨hup', htail'.subset hal⟩, ?_⟩
        unfold turnsAhead
        rw [idxOf_kept htail' hal, hb, List.idxOf_cons_ne l hx, hcur, hself]
        split <;> omega
  · right
    have hpre := hgrow server fun heq => absurd heq.symm hself
    refine ⟨b', e, ⟨hup', hpre.subset hmem⟩, ?_⟩
    unfold turnsAhead
    rw [idxOf_kept hpre hmem, hcur]
    split <;> omega

/-! ## Answers -/

/-- What comes of a letter that a server has handled with the outcome `out`: the letter is taken,
and the reply, if there is one, is posted to the pid in its first word. The only replies that are
not posted are those whose receiver or size the kernel rejects. -/
structure Answered (server : Int) (a : Letter) (buf : Mem) (reply : Option Reply)
    (before after : Int → List Letter) : Prop where
  posted : ∀ x, reply = some x → Sendable (arg buf 0) (some x.1) x.2 →
    after = post (take before server) (arg buf 0) ⟨a.slot, server, bytes x.1 x.2.toNat⟩
  dropped : (∀ x, reply = some x → ¬Sendable (arg buf 0) (some x.1) x.2) →
    after = take before server

/-- A server answers the letter it takes from its message buffer. -/
def AnsweredBy (server : Int) (a : Letter) (w w' : System) : Prop :=
  if server = netServerPid then
    let net := if w.net.netserv.active then w.net
      else { w.net with netserv := netServerInit w.net.netserv netServerPid }
    let buf := deliver w.netBuffer a.body
    Answered server a buf
      (netHandleClientMessage net (arg buf 0) (shift buf 4) (a.body.length - 4)).1
      w.ipc.pending w'.ipc.pending
  else
    let bullet := if w.bullet.active then w.bullet else bulletInit w.bullet bulletServerPid
    let buf := deliver w.bulletBuffer a.body
    Answered server a buf
      (bulletHandleClientMessage bullet (arg buf 0) (shift buf 4) (a.body.length - 4)).1
      w.ipc.pending w'.ipc.pending

lemma serve_answered {W : Type} (handle : W → Int → Mem → Int → Option Reply × W) (world : W)
    {S : Set Nat} {s : IpcState} {free : List Nat} {box : Int → List Letter} (h : Rep S s free box)
    {t : Int} (msgBuffer : Mem) {a : Letter} (hhead : (s.pending t).head? = some a) :
    Answered t a (deliver msgBuffer a.body)
      (handle world (arg (deliver msgBuffer a.body) 0) (shift (deliver msgBuffer a.body) 4)
        (a.body.length - 4)).1
      s.pending (serve handle world s t msgBuffer).ipc.pending := by
  obtain ⟨l, hb⟩ := List.head?_eq_some_iff.mp hhead
  rw [h.pending_eq] at hb
  obtain ⟨_, hout⟩ := serve_result handle world msgBuffer h hb rfl
  rcases hout with ⟨e, hno⟩ | ⟨x, hx, hok, e⟩
  · exact ⟨fun x hx hok => absurd hok (hno x hx), fun _ => e⟩
  · refine ⟨fun y hy _ => ?_, fun hno => absurd hok (hno x hx)⟩
    obtain rfl : x = y := Option.some.inj (hx.symm.trans hy)
    exact e

/-- In its turn a server answers the first of its letters. -/
lemma turn_answers {S : Set Nat} {server : Int} (hserver : IsServer server) {a : Letter}
    {b : Booted} (h : Up S b) (hnext : NextServed server a b) (i : Input) :
    ∃ b', turn b i = some b' ∧ AnsweredBy server a b.system b'.system := by
  obtain ⟨hcur, hhead⟩ := hnext
  obtain ⟨hup, _, free, box, hrep⟩ := h
  obtain ⟨s', e', _⟩ := hup.taskYield
  unfold turn body
  rw [hcur, e']
  rcases hserver with rfl | rfl
  · exact ⟨_, rfl, serve_answered bulletHandleClientMessage _ hrep b.system.bulletBuffer hhead⟩
  · exact ⟨_, rfl, serve_answered netHandleClientMessage _ hrep b.system.netBuffer hhead⟩

/-! ## The system from its start on -/

/-- The tasks as `kmain` creates them, with a message system and servers that have not run. -/
def boot (img : Image) (regs : Regs) (bulletServerMain netServerMain : UInt64) (ipc : IpcState)
    (netBuffer bulletBuffer : Mem) : Booted :=
  ⟨bootMachine img regs bulletServerMain netServerMain, System.boot ipc netBuffer bulletBuffer⟩

section Boot

variable {n : Nat} {s₀ : IpcState} {img : Image} {regs : Regs}
  {bulletServerMain netServerMain : UInt64} {netBuffer bulletBuffer : Mem} {is : List Input}
  {b : Booted}

lemma up_of_turns (h₀ : Initial n s₀)
    (hrun : turns (boot img regs bulletServerMain netServerMain s₀ netBuffer bulletBuffer) is =
      some b) : ∃ slots : List Nat, slots.length = n ∧ slots.Nodup ∧ Up {p | p ∈ slots} b := by
  obtain ⟨slots, hlen, hrep⟩ := h₀.rep
  obtain ⟨_, _, hup, hfive, _⟩ := bootMachine_spec img regs bulletServerMain netServerMain
  have hstep : ∀ b i, Up {p | p ∈ slots} b → ∃ b', turn b i = some b' ∧ Up {p | p ∈ slots} b' := by
    intro b i h
    obtain ⟨b', e, h', _⟩ := turn_cases h i
    exact ⟨b', e, h'⟩
  exact ⟨slots, hlen, hrep.pool.nodup, Run.inv_of_run hstep hrun ⟨hup, hfive, _, _, hrep⟩⟩

end Boot

lemma idxOf_le {a : Letter} {l : List Letter} {k : Nat} (h : l[k]? = some a) : l.idxOf a ≤ k := by
  obtain ⟨hlt, rfl⟩ := List.getElem?_eq_some_iff.mp h
  by_contra hle
  have hne := List.not_of_lt_findIdx (show k < l.findIdx (· == l[k]) from not_le.mp hle)
  simp at hne

/-- A message for a server with `k` others in front of it is answered within `5 * (k + 1)` turns,
whatever the kernel loop does in the meantime; its reply is never lost for want of a slot. -/
theorem served_within {n : Nat} {s₀ : IpcState} (h₀ : Initial n s₀) (img : Image) (regs : Regs)
    (bulletServerMain netServerMain : UInt64) (netBuffer bulletBuffer : Mem) (is : List Input)
    (b : Booted)
    (hrun : turns (boot img regs bulletServerMain netServerMain s₀ netBuffer bulletBuffer) is =
      some b)
    {server : Int} (hserver : IsServer server) {k : Nat} {a : Letter}
    (hk : (b.pending server)[k]? = some a) (js : List Input) (hlen : 5 * (k + 1) ≤ js.length) :
    ∃ pre i post b₁ b₂, js = pre ++ i :: post ∧ pre.length < 5 * (k + 1) ∧
      turns b pre = some b₁ ∧ NextServed server a b₁ ∧ turn b₁ i = some b₂ ∧
      AnsweredBy server a b₁.system b₂.system := by
  obtain ⟨slots, _, _, hup⟩ := up_of_turns h₀ hrun
  have hrank : turnsAhead server a b < 5 * (k + 1) := by
    have hidx := idxOf_le hk
    unfold turnsAhead
    omega
  obtain ⟨pre, i, post, b₁, hsplit, hpre, hrun₁, hawaits, hnext⟩ :=
    Run.reaches_within (turnsAhead server a) (fun _ i h => turn_nearer hserver h i)
      (⟨hup, List.mem_of_getElem? hk⟩ : Awaits {p | p ∈ slots} server a b) (hrank.trans_le hlen)
  obtain ⟨b₂, hturn, hans⟩ := turn_answers hserver hawaits.up hnext i
  exact ⟨pre, i, post, b₁, b₂, hsplit, hpre.trans_lt hrank, hrun₁, hnext, hturn, hans⟩

/-- A turn in which nothing comes from outside. -/
def noInput : Input := ⟨[], fun _ => 0, none⟩

/-- A turn in which the kernel loop asks for a socket. -/
def socketInput : Input := ⟨[.call (fun _ => 0) (.netSocket 1)], fun _ => 0, none⟩

/-- The system with two message slots. -/
def bootPool : Booted :=
  boot ⟨0, 4096, 8192, 12288⟩ (fun _ => 0) 16384 20480 poolState (fun _ => 0) (fun _ => 0)

lemma bootPool_pending :
    ((turns bootPool [socketInput]).map fun b => ((b.pending netServerPid)[0]?).isSome) =
      some true := by
  decide +kernel

theorem served_within_socket :
    ∃ b a, turns bootPool [socketInput] = some b ∧
      ∃ pre i post b₁ b₂, List.replicate 5 noInput = pre ++ i :: post ∧ pre.length < 5 * (0 + 1) ∧
        turns b pre = some b₁ ∧ NextServed netServerPid a b₁ ∧ turn b₁ i = some b₂ ∧
        AnsweredBy netServerPid a b₁.system b₂.system := by
  obtain ⟨b, hrun, hsome⟩ := Option.map_eq_some_iff.mp bootPool_pending
  obtain ⟨a, ha⟩ := Option.isSome_iff_exists.mp hsome
  exact ⟨b, a, hrun, served_within poolState_initial _ _ _ _ _ _ [socketInput] b hrun (.inr rfl) ha
    _ (by simp)⟩

/-! ## Stranded messages -/

instance instDecidablePredReceives : DecidablePred Receives :=
  fun _ => inferInstanceAs (Decidable (_ ∨ _ ∨ _))

/-- The number of messages for tasks that take none. -/
def stranded (b : Booted) : Nat :=
  ∑ t ∈ Finset.range maxTasks.toNat, if Receives t then 0 else (b.pending t).length

section Stranded

variable {slots : List Nat} {b b' : Booted}

/-- Letters for a task that takes none are never taken. -/
lemma turns_grow {S : Set Nat} {js : List Input} (h : Up S b) (hrun : turns b js = some b')
    {r : Int} (hr : ¬Receives r) : b.pending r <+: b'.pending r := by
  induction js generalizing b with
  | nil =>
    obtain rfl := Option.some.inj hrun
    exact List.prefix_rfl
  | cons j js ih =>
    obtain ⟨b₁, e, h₁, _, hgrow, _⟩ := turn_cases h j
    rw [turns, Run.run_cons e] at hrun
    exact (hgrow r fun _ => hr).trans (ih h₁ hrun)

lemma stranded_mono (h : ∀ r, ¬Receives r → b.pending r <+: b'.pending r) :
    stranded b ≤ stranded b' := by
  refine Finset.sum_le_sum fun t _ => ?_
  split
  · exact le_rfl
  · exact (h t ‹_›).length_le

/-- Where no message has been added to the stranded ones, they are the same. -/
lemma pending_eq_of_stranded (h : ∀ r, ¬Receives r → b.pending r <+: b'.pending r)
    (heq : stranded b = stranded b') {r : Int}
    (hvalid : b'.pending r ≠ [] → 0 ≤ r ∧ r < maxTasks) (hr : ¬Receives r) :
    b'.pending r = b.pending r := by
  rcases eq_or_ne (b'.pending r) [] with hnil | hne
  · have hpre := h r hr
    rw [hnil] at hpre
    rw [hnil, List.prefix_nil.mp hpre]
  · obtain ⟨h0, hlt⟩ := hvalid hne
    have hmem : r.toNat ∈ Finset.range maxTasks.toNat := by
      rw [Finset.mem_range]
      omega
    have hterms := (Finset.sum_eq_sum_iff_of_le fun t _ => ?_).mp heq r.toNat hmem
    · rw [Int.toNat_of_nonneg h0, if_neg hr, if_neg hr] at hterms
      exact ((h r hr).eq_of_length hterms).symm
    · split
      · exact le_rfl
      · exact (h t ‹_›).length_le

lemma stranded_le_sum (b : Booted) :
    stranded b ≤ ∑ t ∈ Finset.range maxTasks.toNat, (b.pending t).length := by
  refine Finset.sum_le_sum fun t _ => ?_
  split
  · exact Nat.zero_le _
  · exact le_rfl

lemma stranded_le (hnd : slots.Nodup) (h : Up {p | p ∈ slots} b) : stranded b ≤ slots.length := by
  obtain ⟨_, _, free, box, hrep⟩ := h
  have hlen := hrep.length_eq hnd
  have hle := stranded_le_sum b
  unfold Booted.pending at hle
  rw [hrep.pending_eq] at hle
  omega

/-- When all slots are stranded, there is no free slot, and no message for a task that takes
them. -/
lemma exhausted (hnd : slots.Nodup) (h : Up {p | p ∈ slots} b) (hall : stranded b = slots.length) :
    (∀ r, Receives r → b.pending r = []) ∧ ∃ box, Rep {p | p ∈ slots} b.system.ipc [] box := by
  obtain ⟨_, _, free, box, hrep⟩ := h
  have hlen := hrep.length_eq hnd
  have hle := stranded_le_sum b
  have hpending : b.pending = box := hrep.pending_eq
  rw [hpending] at hle
  have hsum : stranded b = ∑ t ∈ Finset.range maxTasks.toNat, (b.pending t).length := by
    rw [hpending]
    omega
  refine ⟨fun r hr => ?_, box, ?_⟩
  · by_contra hne
    rw [hpending] at hne
    obtain ⟨h0, hlt⟩ := hrep.valid r hne
    have hmem : r.toNat ∈ Finset.range maxTasks.toNat := by
      rw [Finset.mem_range]
      omega
    have hless : stranded b < ∑ t ∈ Finset.range maxTasks.toNat, (b.pending t).length := by
      refine Finset.sum_lt_sum (fun t _ => ?_) ⟨r.toNat, hmem, ?_⟩
      · split
        · exact Nat.zero_le _
        · exact le_rfl
      · rw [Int.toNat_of_nonneg h0, if_pos hr, hpending]
        exact List.length_pos_of_ne_nil hne
    omega
  · have hfree : free = [] := List.length_eq_zero_iff.mp (by omega)
    exact hfree ▸ hrep

end Stranded

/-- A message for a task that takes none holds its slot for good. When all slots are lost in this
way, nothing is ever sent, received or answered again. -/
theorem stranded_slots {n : Nat} {s₀ : IpcState} (h₀ : Initial n s₀) (img : Image) (regs : Regs)
    (bulletServerMain netServerMain : UInt64) (netBuffer bulletBuffer : Mem) (is js : List Input)
    (b b' : Booted)
    (hrun : turns (boot img regs bulletServerMain netServerMain s₀ netBuffer bulletBuffer) is =
      some b) (hrun' : turns b js = some b') :
    (∀ r, ¬Receives r → b.pending r <+: b'.pending r) ∧
    stranded b ≤ stranded b' ∧ stranded b' ≤ n ∧
    (stranded b = n → b'.pending = b.pending ∧
      (∀ t r data size, sendMessage b'.system.ipc t r data size = (-1, b'.system.ipc)) ∧
      ∀ t stack (c : ClientCall), (c.exec b'.system.ipc t stack).ret = -1 ∧
        (c.exec b'.system.ipc t stack).state = b'.system.ipc) := by
  obtain ⟨slots, rfl, hnd, hup⟩ := up_of_turns h₀ hrun
  have hgrow : ∀ r, ¬Receives r → b.pending r <+: b'.pending r :=
    fun r hr => turns_grow hup hrun' hr
  have hup' : Up {p | p ∈ slots} b' := Run.inv_of_run (fun b i h => by
    obtain ⟨b₁, e, h₁, _⟩ := turn_cases h i
    exact ⟨b₁, e, h₁⟩) hrun' hup
  have hmono := stranded_mono hgrow
  have hle := stranded_le hnd hup'
  refine ⟨hgrow, hmono, hle, fun hall => ?_⟩
  have hall' : stranded b' = slots.length := by omega
  obtain ⟨hnil, _⟩ := exhausted hnd hup hall
  obtain ⟨hnil', box, hrep⟩ := exhausted hnd hup' hall'
  refine ⟨funext fun r => ?_, fun t r data size => sendMessage_empty hrep t r data size,
    fun t stack c => ?_⟩
  · by_cases hr : Receives r
    · rw [hnil r hr, hnil' r hr]
    · exact pending_eq_of_stranded hgrow (hall.trans hall'.symm) (by
        rw [Booted.pending, hrep.pending_eq]
        exact hrep.valid r) hr
  · obtain ⟨cmdData, e⟩ := c.exec_eq b'.system.ipc t stack
    rw [e]
    rcases clientCall_cases hrep t c.server_valid c.size_le cmdData with
      ⟨e', _⟩ | ⟨f, free', _, _, _, hcons, _⟩
    · rw [e']
      exact ⟨rfl, rfl⟩
    · cases hcons

/-- A turn in which the kernel loop sends a message to the idle task 1. -/
def idleInput : Input := ⟨[.send 1 (some fun _ => 0) 20], fun _ => 0, none⟩

/-- Two rounds of the kernel loop that send to an idle task. -/
def twoRounds : List Input := idleInput :: List.replicate 4 noInput ++ [idleInput]

lemma bootPool_stranded :
    ((turns bootPool twoRounds).bind fun b => (turns b [idleInput]).map fun _ => stranded b) =
      some 2 := by
  decide +kernel

theorem stranded_slots_two :
    ∃ b b', turns bootPool twoRounds = some b ∧ turns b [idleInput] = some b' ∧
      b'.pending = b.pending := by
  obtain ⟨b, hrun, hrest⟩ := Option.bind_eq_some_iff.mp bootPool_stranded
  obtain ⟨b', hrun', hall⟩ := Option.map_eq_some_iff.mp hrest
  exact ⟨b, b', hrun, hrun', ((stranded_slots poolState_initial _ _ _ _ _ _ twoRounds [idleInput] b
    b' hrun hrun').2.2.2 hall).1⟩

end Hydra.Kernel
