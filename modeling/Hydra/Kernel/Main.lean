import Hydra.Apps.Demos
import Hydra.Kernel.Turns
import Hydra.Kernel.Uart
import Hydra.Net.Hooks

/-!
# kmain

The kernel from boot on, with the loop of `kernal/main.c` that obeys the keys of the console, the
servers and the idle tasks taking turns. What comes from outside is when bytes arrive at the UART,
and which.

Whatever is typed, the system does little. The keys for the servers send to the tasks 1 and 2, which
are idle tasks; so nobody takes any message, the servers never have any, and for the console the
whole message system is an `Outbox`. Every answer depends on the keys before it only
(`console_transcript`): the bullet server is said to respond until the slots are used up, no socket
is ever created, no packet is ever received, and the demos leave nothing behind but the slots they
use up.
-/

namespace Hydra.Kernel
open ByteMem Mailbox FirstFit Numeral Hydra.Ipc Hydra.Server Hydra.Apps Hydra.LibC Hydra.Mm
open Hydra.Net
open Hydra.Sched (Machine Image Regs taskYield)

/-! ## The code -/

/-- The commands of the main loop. -/
inductive Command where
  | send
  | stats
  | receive
  | bulletTest
  | netTest
  | libTest
  | apps
  | help
  deriving DecidableEq, Repr

/-- The command of a key. -/
def Command.ofChar (c : UInt8) : Command :=
  if c = chr 'n' then .send
  else if c = chr 's' then .stats
  else if c = chr 'r' then .receive
  else if c = chr 'b' then .bulletTest
  else if c = chr 't' then .netTest
  else if c = chr 'l' then .libTest
  else if c = chr '6' then .apps
  else .help

/-- What a command reports: the data of what it prints. -/
inductive Report where
  | sent
  | statistics (stats : NetStats)
  | packet (length : Option UInt16)
  | response (result : Int)
  | socket (result : Int)
  | tests
  | demos
  | commands

/-- The state of the kernel, with the keys that have been obeyed and what has been printed. -/
structure MainState where
  machine : Machine
  system : System
  uart : Uart
  driver : Driver
  heap : Heap
  sockets : LibNet.Table
  log : List (UInt8 × Report)

/-- What comes from outside in a turn: the bytes that the UART has received, and what the memory of
the frames holds. -/
structure Arrival where
  received : List UInt8
  stack : Mem
  packetBuffer : Mem

/-- The test data of the bullet test. -/
def migrationData : List UInt8 := ascii "Migration test data" ++ [0]

namespace MainState

/-- What the demos work on. -/
def world (k : MainState) : World := ⟨k.heap, k.sockets, k.system.ipc⟩

/-- The kernel when the demos have worked. -/
def withWorld (k : MainState) (w : World) : MainState :=
  { k with heap := w.heap, sockets := w.sockets, system := { k.system with ipc := w.ipc } }

/-- `handle_syscall(SYS_SEND_MSG, ..)` -/
def sendMsg (k : MainState) (receiver : Int) (data : Mem) (size : Int) : Int × MainState :=
  let result := sendMessage k.system.ipc k.machine.currentTask receiver (some data) size
  (result.1, { k with system := { k.system with ipc := result.2 } })

/-- Obey a command. -/
def execute (g : Setting) (stack : Mem) (k : MainState) : Command → Option (Report × MainState)
  | .send =>
    let stats := (netSend k.driver.stats 15).2
    some (.sent, { k with driver := { k.driver with stats := stats } })
  | .stats => some (.statistics k.driver.stats, k)
  | .receive =>
    let (pkt, d) := netReceive k.driver
    if pkt ≠ 0 then
      some (.packet (some (d.packetPool pkt).packet.length),
        { k with driver := netFreePacket d pkt })
    else some (.packet none, { k with driver := d })
  | .bulletTest =>
    let (result, k) := k.sendMsg 1 (paste migrationData fun _ => 0) migrationData.length
    some (.response result, k)
  | .netTest =>
    -- the data is the pointer 1
    let (sock, k) := k.sendMsg 1 stack 0
    some (.socket sock, k)
  | .libTest =>
    (phase5Test k.machine.currentTask stack k.world).map fun w => (.tests, k.withWorld w)
  | .apps =>
    (phase6Demo g k.machine.currentTask k.world).map fun w => (.demos, k.withWorld w)
  | .help => some (.commands, k)

/-- A round of the main loop up to its yield. -/
def mainRound (g : Setting) (stack : Mem) (k : MainState) : Option MainState :=
  let (c, uart) := k.uart.getc
  let k := { k with uart := uart }
  if c ≠ 0 then
    (k.execute g stack (.ofChar c)).map fun (report, k) => { k with log := k.log ++ [(c, report)] }
  else some k

/-- A round of the network server, which takes its packets from the driver and shares its
counters. -/
def netServerRound (packetBuffer : Mem) (k : MainState) : MainState :=
  let pkt := (nextPacket k.driver).map Prod.snd
  let system := { k.system with net := { k.system.net with stats := k.driver.stats } }
  let system := system.netServer packetBuffer pkt
  { k with system := system, driver := { consume k.driver with stats := system.net.stats } }

/-- The loop of the current task up to its yield. -/
def body (g : Setting) (i : Arrival) (k : MainState) : Option MainState :=
  let t := k.machine.currentTask
  if t = 0 then k.mainRound g i.stack
  else if t = bulletServerPid then some { k with system := k.system.bulletServer }
  else if t = netServerPid then some (k.netServerRound i.packetBuffer)
  else some k

/-- Bytes arrive, and the current task has its turn. -/
def turn (g : Setting) (k : MainState) (i : Arrival) : Option MainState :=
  let k := { k with uart := k.uart.interruptHandler i.received }
  (k.body g i).bind fun k => (taskYield k.machine).map fun machine => { k with machine := machine }

/-- The kernel before the tests that `kmain` runs. -/
def initial (img : Image) (regs : Regs) (bulletServerMain netServerMain : UInt64) (heap : Heap)
    (ipc : IpcState) (uart : Uart) (netBuffer bulletBuffer : Mem) : MainState where
  machine := bootMachine img regs bulletServerMain netServerMain
  system := .boot ipc netBuffer bulletBuffer
  uart := uart.init
  driver := netInit (bootDriver 0)
  heap := heap
  sockets := LibNet.bootTable
  log := []

/-- The tests at boot. -/
def bootTests (g : Setting) (stack : Mem) (k : MainState) : Option MainState := do
  let w ← phase5Test k.machine.currentTask stack k.world
  let w ← phase6UnitTests g w
  some (k.withWorld w)

/-- C `kmain`: the tests, and a number of turns. -/
def kmain (g : Setting) (stack : Mem) (k : MainState) (is : List Arrival) : Option MainState := do
  let k ← k.bootTests g stack
  Run.run (turn g) k is

end MainState

/-! ## The transcript -/

/-- What a command does to the outbox; `room` is whether the heap has room for the test pattern. -/
def Command.sends (room : Bool) (o : Outbox) : Command → Outbox
  | .bulletTest => o.send (1, migrationData)
  | .apps => if room then broadcastMessages.foldl Outbox.send o else o
  | _ => o

/-- The outbox after some commands, with `n` slots at the beginning. -/
def outboxAfter (n : Nat) (room : Bool) (cs : List Command) : Outbox :=
  cs.foldl (Command.sends room) ⟨n, []⟩

/-- The statistics after some commands. -/
def statsAfter (cs : List Command) : NetStats :=
  ⟨UInt32.ofNat (cs.count .send), 0, UInt32.ofNat (15 * cs.count .send), 0, 0, 0⟩

/-- What a command reports after some others. -/
def answer (n : Nat) (room : Bool) (before : List Command) : Command → Report
  | .send => .sent
  | .stats => .statistics (statsAfter before)
  | .receive => .packet none
  | .bulletTest => .response (if (outboxAfter n room before).free = 0 then -1 else 0)
  | .netTest => .socket (-1)
  | .libTest => .tests
  | .apps => .demos
  | .help => .commands

/-- The keys with the answers to them. -/
def transcript (n : Nat) (room : Bool) (before : List Command) : List UInt8 → List (UInt8 × Report)
  | [] => []
  | c :: cs => (c, answer n room before (.ofChar c)) :: transcript n room (before ++ [.ofChar c]) cs

lemma transcript_append (n : Nat) (room : Bool) (before : List Command) (cs : List UInt8)
    (c : UInt8) : transcript n room before (cs ++ [c]) = transcript n room before cs ++
      [(c, answer n room (before ++ cs.map .ofChar) (.ofChar c))] := by
  induction cs generalizing before with
  | nil => simp [transcript]
  | cons d cs ih =>
    rw [List.cons_append, transcript, transcript, ih, List.map_cons, List.append_assoc,
      List.singleton_append, List.cons_append]

lemma outboxAfter_append (n : Nat) (room : Bool) (cs : List Command) (c : Command) :
    outboxAfter n room (cs ++ [c]) = c.sends room (outboxAfter n room cs) := by
  unfold outboxAfter
  rw [List.foldl_append]
  rfl

/-- The receivers are the tasks 1 and 2. -/
lemma outboxAfter_receivers (n : Nat) (room : Bool) (cs : List Command) :
    ∀ message ∈ (outboxAfter n room cs).sent, message.1 = 1 ∨ message.1 = 2 := by
  induction cs using List.reverseRecOn with
  | nil => exact nofun
  | append_singleton cs c ih =>
    rw [outboxAfter_append]
    intro message hmem
    cases c with
    | bulletTest =>
      rcases Outbox.mem_send hmem with hold | rfl
      · exact ih message hold
      · exact .inl rfl
    | apps =>
      rw [Command.sends] at hmem
      split at hmem
      · rw [Outbox.sendAll] at hmem
        rcases List.mem_append.mp hmem with hold | hnew
        · exact ih message hold
        · right
          have hboth : ∀ x ∈ broadcastMessages, x.1 = 2 := by decide +kernel
          exact hboth message (List.mem_of_mem_take hnew)
      · exact ih message hmem
    | send | stats | receive | netTest | libTest | help => exact ih message hmem

lemma sentTo_other {n : Nat} {room : Bool} {cs : List Command} {t : Int} (h1 : t ≠ 1) (h2 : t ≠ 2) :
    (outboxAfter n room cs).sentTo t = [] := by
  unfold Outbox.sentTo
  rw [List.map_eq_nil_iff, List.filter_eq_nil_iff]
  intro message hmem
  rcases outboxAfter_receivers n room cs message hmem with h | h
  · simpa [h] using h1.symm
  · simpa [h] using h2.symm

lemma statsAfter_send (cs : List Command) :
    (netSend (statsAfter cs) 15).2 = statsAfter (cs ++ [.send]) := by
  have hlen : ¬(1514 : UInt16) < 15 := by decide
  unfold netSend statsAfter
  rw [if_neg hlen, List.count_append, List.count_singleton_self, Nat.mul_add]
  simp only [UInt32.ofNat_add]
  rfl

lemma statsAfter_other {cs : List Command} {c : Command} (hc : c ≠ .send) :
    statsAfter (cs ++ [c]) = statsAfter cs := by
  unfold statsAfter
  rw [List.count_append, List.count_singleton, if_neg (by simpa using hc), Nat.add_zero]

/-! ## A round -/

/-- After some commands: the heap is as it was, no socket is in use, no packet has come, and all
that has been sent is in the queues of the receivers. -/
structure Settled (S : Set Nat) (r : Region) (bs : List Block) (h₀ : Heap) (n : Nat) (room : Bool)
    (cs : List Command) (k : MainState) : Prop where
  heap : Kept r bs ∅ h₀ k.heap
  closed : ∀ i, (k.sockets i).state = .closed
  noPacket : k.driver.rxQueueHead = 0
  counted : k.driver.stats = statsAfter cs
  mail : Outgoing S (fun _ => []) 0 (outboxAfter n room cs) k.system.ipc

namespace Settled

variable {S : Set Nat} {r : Region} {bs : List Block} {h₀ : Heap} {n : Nat} {room : Bool}
  {cs : List Command} {k : MainState}

/-- A command that sends nothing. -/
lemma silent {k' : MainState} (h : Settled S r bs h₀ n room cs k) {c : Command} (hc : c ≠ .send)
    (hsends : c.sends room (outboxAfter n room cs) = outboxAfter n room cs)
    (hdriver : k'.driver = k.driver) (hheap : Kept r bs ∅ h₀ k'.heap)
    (hclosed : ∀ i, (k'.sockets i).state = .closed) (hipc : k'.system.ipc = k.system.ipc) :
    Settled S r bs h₀ n room (cs ++ [c]) k' := by
  refine ⟨hheap, hclosed, ?_, ?_, ?_⟩
  · rw [hdriver]
    exact h.noPacket
  · rw [hdriver, statsAfter_other hc]
    exact h.counted
  · rw [hipc, outboxAfter_append, hsends]
    exact h.mail

/-- Every command is obeyed, and answered as the commands before it say. -/
lemma execute {g : Setting} (hg : g.Total) (h : Settled S r bs h₀ n room cs k)
    (hroom : room = true ↔ Satisfiable h₀ testSize) (hcur : k.machine.currentTask = 0)
    (w₀ : WF r h₀ bs) (stack : Mem) (c : Command) :
    ∃ k', k.execute g stack c = some (answer n room cs c, k') ∧ k'.machine = k.machine ∧
      k'.uart = k.uart ∧ k'.log = k.log ∧ Settled S r bs h₀ n room (cs ++ [c]) k' := by
  cases c with
  | send =>
    refine ⟨_, rfl, rfl, rfl, rfl, h.heap, h.closed, h.noPacket, ?_, ?_⟩
    · rw [← statsAfter_send, ← h.counted]
    · rw [outboxAfter_append]
      exact h.mail
  | stats =>
    refine ⟨k, ?_, rfl, rfl, rfl, h.silent nofun rfl rfl h.heap h.closed rfl⟩
    rw [MainState.execute, h.counted]
    rfl
  | receive =>
    refine ⟨k, ?_, rfl, rfl, rfl, h.silent nofun rfl rfl h.heap h.closed rfl⟩
    unfold MainState.execute netReceive
    simp only [if_pos h.noPacket, ne_eq, not_true_eq_false, if_false]
    rfl
  | bulletTest =>
    have hlen : migrationData.length = 20 := by decide +kernel
    have hok : Sendable 1 (some (paste migrationData fun _ => 0)) migrationData.length :=
      ⟨by decide, by rw [hlen]; decide, rfl⟩
    obtain ⟨hmail, hret⟩ := h.mail.send hok
    have hbody : bytes (paste migrationData fun _ => 0) migrationData.length = migrationData := by
      rw [bytes_paste le_rfl, List.take_length]
    rw [Int.toNat_natCast, hbody] at hmail
    have hsend : k.execute g stack .bulletTest =
        some (answer n room cs .bulletTest, (k.sendMsg 1 (paste migrationData fun _ => 0)
          migrationData.length).2) := by
      rw [MainState.execute, MainState.sendMsg, hcur, answer, ← hret]
    refine ⟨_, hsend, rfl, rfl, rfl, h.heap, h.closed, h.noPacket, ?_, ?_⟩
    · exact h.counted.trans (statsAfter_other (by decide)).symm
    · rw [outboxAfter_append, MainState.sendMsg, hcur]
      exact hmail
  | netTest =>
    have hno : ¬Sendable 1 (some stack) 0 := fun hok => absurd hok.2.1.1 (by decide)
    refine ⟨k, ?_, rfl, rfl, rfl, h.silent nofun rfl rfl h.heap h.closed rfl⟩
    rw [MainState.execute, MainState.sendMsg, sendMessage_rejected _ hno]
    rfl
  | libTest =>
    obtain ⟨w', e, hclean, hipc⟩ :=
      phase5Test_clean (w := k.world) h.heap.wf h.closed k.machine.currentTask stack
    refine ⟨k.withWorld w', ?_, rfl, rfl, rfl,
      h.silent nofun rfl rfl (h.heap.trans hclean.heap) hclean.closed hipc⟩
    rw [MainState.execute, e]
    rfl
  | apps =>
    obtain ⟨w', e, hclean, hcases⟩ :=
      phase6Demo_cases (w := k.world) h.heap.wf h.closed hg k.machine.currentTask
    have hsame : Satisfiable k.heap testSize ↔ Satisfiable h₀ testSize := by
      rw [satisfiable_iff h.heap.wf, satisfiable_iff w₀]
    have hexec : k.execute g stack .apps = some (answer n room cs .apps, k.withWorld w') := by
      rw [MainState.execute, e]
      rfl
    refine ⟨k.withWorld w', hexec, rfl, rfl, rfl, ?_⟩
    rcases hcases with ⟨hno, hipc⟩ | ⟨hs, m, hm, hipc⟩
    · have hfalse : ¬room = true := fun ht => hno (hsame.mpr (hroom.mp ht))
      exact h.silent nofun (if_neg hfalse) rfl (h.heap.trans hclean.heap) hclean.closed hipc
    · have htrue : room = true := hroom.mpr (hsame.mp hs)
      refine ⟨h.heap.trans hclean.heap, hclean.closed, h.noPacket, ?_, ?_⟩
      · exact h.counted.trans (statsAfter_other (by decide)).symm
      · have hout := broadcast_outgoing h.mail hm
        rw [hcur] at hipc
        rw [outboxAfter_append, Command.sends, if_pos htrue]
        show Outgoing S _ 0 _ w'.ipc
        rw [hipc]
        exact hout
  | help => exact ⟨k, rfl, rfl, rfl, rfl, h.silent nofun rfl rfl h.heap h.closed rfl⟩

/-- The tasks whose loops take messages have none. -/
lemma receivers_empty (h : Settled S r bs h₀ n room cs k) :
    ∃ free box, Rep S k.system.ipc free box ∧ ∀ t, t ≠ 1 → t ≠ 2 → box t = [] := by
  obtain ⟨free, box, hrep, _, hsent⟩ := h.mail
  refine ⟨free, box, hrep, fun t h1 h2 => ?_⟩
  obtain ⟨letters, hbox, hletters⟩ := hsent t
  rw [sentTo_other h1 h2] at hletters
  rw [hbox, List.map_eq_nil_iff.mp hletters]
  rfl

/-- Without messages the bullet server leaves the message system as it is. -/
lemma bulletServer (h : Settled S r bs h₀ n room cs k) :
    Settled S r bs h₀ n room cs { k with system := k.system.bulletServer } := by
  obtain ⟨free, box, hrep, hnil⟩ := h.receivers_empty
  refine ⟨h.heap, h.closed, h.noPacket, h.counted, ?_⟩
  have hipc : k.system.bulletServer.ipc = k.system.ipc :=
    congrArg Served.ipc (serve_idle bulletHandleClientMessage _ k.system.bulletBuffer hrep
      (hnil bulletServerPid (by decide) (by decide)))
  rw [hipc]
  exact h.mail

/-- Without messages and packets the network server leaves the message system and the driver as
they are. -/
lemma netServerRound (h : Settled S r bs h₀ n room cs k) (packetBuffer : Mem) :
    Settled S r bs h₀ n room cs (k.netServerRound packetBuffer) := by
  obtain ⟨free, box, hrep, hnil⟩ := h.receivers_empty
  have hdriver : consume k.driver = k.driver := by
    unfold consume netReceive
    simp only [if_pos h.noPacket, if_true]
  have hidle : (k.netServerRound packetBuffer).system.ipc = k.system.ipc ∧
      (k.netServerRound packetBuffer).driver = k.driver := by
    unfold MainState.netServerRound System.netServer netServerBody
    simp only [hdriver]
    rw [serve_idle _ _ _ hrep (hnil netServerPid (by decide) (by decide))]
    refine ⟨rfl, ?_⟩
    split <;> rfl
  refine ⟨h.heap, h.closed, ?_, ?_, ?_⟩
  · rw [hidle.2]
    exact h.noPacket
  · rw [hidle.2]
    exact h.counted
  · rw [hidle.1]
    exact h.mail

end Settled

/-! ## Turns -/

/-- The kernel between two turns, with the bytes that have been received so far. -/
structure Running (S : Set Nat) (r : Region) (bs : List Block) (h₀ : Heap) (n : Nat) (room : Bool)
    (received : List UInt8) (k : MainState) : Prop where
  up : AllUp k.machine
  uart : k.uart.Ok
  typed : (k.log.map Prod.fst ++ k.uart.waiting).Sublist received
  log : k.log = transcript n room [] (k.log.map Prod.fst)
  settled : Settled S r bs h₀ n room ((k.log.map Prod.fst).map .ofChar) k

lemma accepted_sublist (u : Uart) (received : List UInt8) :
    (u.accepted received).Sublist received := by
  induction received generalizing u with
  | nil => exact .slnil
  | cons c received ih =>
    rw [Uart.accepted]
    split
    · exact (ih _).cons_cons c
    · exact (ih _).cons c

namespace Running

variable {S : Set Nat} {r : Region} {bs : List Block} {h₀ : Heap} {n : Nat} {room : Bool}
  {received : List UInt8} {k : MainState}

/-- Bytes arrive. -/
lemma arrive (h : Running S r bs h₀ n room received k) (bytes : List UInt8) :
    Running S r bs h₀ n room (received ++ bytes)
      { k with uart := k.uart.interruptHandler bytes } := by
  obtain ⟨hok, hwaiting⟩ := h.uart.interruptHandler bytes
  refine ⟨h.up, hok, ?_, h.log, h.settled.heap, h.settled.closed, h.settled.noPacket,
    h.settled.counted, h.settled.mail⟩
  rw [hwaiting, ← List.append_assoc]
  exact h.typed.append (accepted_sublist _ _)

/-- In a round of the main loop a key is obeyed, if there is one. -/
lemma mainRound {g : Setting} (hg : g.Total) (h : Running S r bs h₀ n room received k)
    (hroom : room = true ↔ Satisfiable h₀ testSize) (hcur : k.machine.currentTask = 0)
    (w₀ : WF r h₀ bs) (stack : Mem) :
    ∃ k', k.mainRound g stack = some k' ∧ Running S r bs h₀ n room received k' := by
  unfold MainState.mainRound
  cases hw : k.uart.waiting with
  | nil =>
    rw [h.uart.getc_nil hw]
    exact ⟨k, rfl, h⟩
  | cons c cs =>
    obtain ⟨u', hgetc, hok', hwaiting⟩ := h.uart.getc_cons hw
    rw [hgetc]
    by_cases hc : c = 0
    · refine ⟨{ k with uart := u' }, if_neg (not_not_intro hc), h.up, hok', ?_, h.log,
        h.settled.heap, h.settled.closed, h.settled.noPacket, h.settled.counted, h.settled.mail⟩
      refine .trans ?_ h.typed
      rw [hw, hwaiting]
      exact (List.Sublist.refl _).append (List.sublist_cons_self c cs)
    · have hsettled : Settled S r bs h₀ n room ((k.log.map Prod.fst).map .ofChar)
          { k with uart := u' } := ⟨h.settled.heap, h.settled.closed, h.settled.noPacket,
        h.settled.counted, h.settled.mail⟩
      obtain ⟨k', e, hmachine, huart, hlog, h'⟩ :=
        hsettled.execute hg hroom hcur w₀ stack (.ofChar c)
      have hkeys : (k.log ++
          [(c, answer n room ((k.log.map Prod.fst).map .ofChar) (.ofChar c))]).map Prod.fst =
          k.log.map Prod.fst ++ [c] := List.map_append
      refine ⟨{ k' with log := k'.log ++
          [(c, answer n room ((k.log.map Prod.fst).map .ofChar) (.ofChar c))] }, ?_, ?_, ?_, ?_, ?_,
        h'.heap, h'.closed, h'.noPacket, ?_, ?_⟩
      · simp only [if_pos hc, e, Option.map_some]
      · rw [hmachine]
        exact h.up
      · rw [huart]
        exact hok'
      · simp only [huart, hwaiting, hlog, hkeys]
        have htyped := h.typed
        rw [hw] at htyped
        rwa [List.append_assoc, List.singleton_append]
      · simp only [hlog, hkeys]
        rw [transcript_append, ← h.log, List.nil_append]
      · simp only [hlog, hkeys, List.map_append]
        exact h'.counted
      · simp only [hlog, hkeys, List.map_append]
        exact h'.mail

/-- Every turn ends, and moves on to the next task. -/
lemma turn {g : Setting} (hg : g.Total) (h : Running S r bs h₀ n room received k)
    (hroom : room = true ↔ Satisfiable h₀ testSize) (w₀ : WF r h₀ bs) (i : Arrival) :
    ∃ k', k.turn g i = some k' ∧ Running S r bs h₀ n room (received ++ i.received) k' := by
  have h₁ := h.arrive i.received
  have hbody : ∃ k₂, MainState.body g i { k with uart := k.uart.interruptHandler i.received } =
      some k₂ ∧ Running S r bs h₀ n room (received ++ i.received) k₂ := by
    unfold MainState.body
    simp only
    split_ifs with h0
    · exact h₁.mainRound hg hroom h0 w₀ i.stack
    · exact ⟨_, rfl, h₁.up, h₁.uart, h₁.typed, h₁.log, h₁.settled.bulletServer⟩
    · exact ⟨_, rfl, h₁.up, h₁.uart, h₁.typed, h₁.log, h₁.settled.netServerRound _⟩
    · exact ⟨_, rfl, h₁⟩
  obtain ⟨k₂, e, h₂⟩ := hbody
  obtain ⟨machine, e', hup, _⟩ := h₂.up.taskYield
  refine ⟨{ k₂ with machine := machine }, ?_, hup, h₂.uart, h₂.typed, h₂.log, h₂.settled.heap,
    h₂.settled.closed, h₂.settled.noPacket, h₂.settled.counted, h₂.settled.mail⟩
  simp only [MainState.turn, e, Option.bind_some, e', Option.map_some]

lemma turns {g : Setting} (hg : g.Total) (h : Running S r bs h₀ n room received k)
    (hroom : room = true ↔ Satisfiable h₀ testSize) (w₀ : WF r h₀ bs) (is : List Arrival) :
    ∃ k', Run.run (MainState.turn g) k is = some k' ∧
      Running S r bs h₀ n room (received ++ is.flatMap Arrival.received) k' := by
  induction is generalizing received k with
  | nil =>
    refine ⟨k, rfl, ?_⟩
    rw [List.flatMap_nil, List.append_nil]
    exact h
  | cons i is ih =>
    obtain ⟨k₁, e, h₁⟩ := h.turn hg hroom w₀ i
    obtain ⟨k', e', h'⟩ := ih h₁
    refine ⟨k', (Run.run_cons e).trans e', ?_⟩
    rw [List.flatMap_cons, ← List.append_assoc]
    exact h'

end Running

/-! ## From boot on -/

/-- The tests at boot come to their end, and nothing has been typed. -/
lemma bootTests_running {S : Set Nat} {r : Region} {heap : Heap} {bs : List Block} {s₀ : IpcState}
    {slots : List Nat} (wf : WF r heap bs) (hrep : Ipc.Rep S s₀ slots fun _ => []) {g : Setting}
    (hg : g.Total) (room : Bool) (img : Image) (regs : Regs)
    (bulletServerMain netServerMain : UInt64) (uart : Uart) (netBuffer bulletBuffer stack : Mem) :
    ∃ k, (MainState.initial img regs bulletServerMain netServerMain heap s₀ uart netBuffer
        bulletBuffer).bootTests g stack = some k ∧
      Running S r bs heap slots.length room [] k := by
  obtain ⟨w₁, e₁, hclean₁, hipc₁⟩ := phase5Test_clean (w := ⟨heap, LibNet.bootTable, s₀⟩) wf
    (fun _ => rfl) 0 stack
  obtain ⟨w₂, e₂, hclean₂, hipc₂⟩ := phase6UnitTests_clean (w := w₁) hclean₁.heap.wf
    hclean₁.closed hg
  obtain ⟨_, _, hup, _, hcur⟩ := bootMachine_spec img regs bulletServerMain netServerMain
  refine ⟨(MainState.initial img regs bulletServerMain netServerMain heap s₀ uart netBuffer
    bulletBuffer).withWorld w₂, ?_, hup, uart.init_ok, ?_, rfl, hclean₁.heap.trans hclean₂.heap,
    hclean₂.closed, rfl, rfl, ?_⟩
  · unfold MainState.bootTests MainState.initial MainState.world
    simp only [hcur, System.boot, Option.bind_eq_bind]
    rw [e₁, Option.bind_some, e₂]
    rfl
  · have hnil : uart.init.waiting = [] := uart.init_ok.waiting_eq_nil.mpr rfl
    show ([] ++ uart.init.waiting).Sublist []
    rw [hnil]
    exact .slnil
  · show Outgoing S _ 0 _ w₂.ipc
    rw [hipc₂, hipc₁]
    exact Outgoing.start hrep 0

/-- From boot on, every turn of the kernel comes to its end, whatever bytes arrive and when. The
keys that are obeyed are typed keys in their order; the answer to each depends on the keys before it
only; the heap is as it was, no socket is in use, and the servers have no messages: what the keys
have sent waits for the idle tasks 1 and 2. -/
theorem console_transcript (r : Region) (m : Mem) (ops : List HeapOp)
    (hok : Mm.History.Contract r m ops) (hist : Mm.History)
    (hrun : Mm.History.run r m ops = some hist) (n : Nat) (s₀ : IpcState) (h₀ : Initial n s₀)
    (g : Setting) (hg : g.Total) (img : Image) (regs : Regs)
    (bulletServerMain netServerMain : UInt64) (uart : Uart) (netBuffer bulletBuffer stack : Mem)
    (is : List Arrival) :
    ∃ room k, (room = true ↔ Satisfiable hist.heap testSize) ∧
      (MainState.initial img regs bulletServerMain netServerMain hist.heap s₀ uart netBuffer
        bulletBuffer).kmain g stack is = some k ∧
      (k.log.map Prod.fst).Sublist (is.flatMap Arrival.received) ∧
      k.log = transcript n room [] (k.log.map Prod.fst) ∧
      Undone r hist k.heap ∧ (∀ i, (k.sockets i).state = .closed) ∧
      (∀ pid, Receives pid → k.system.ipc.pending pid = []) ∧
      ∀ pid, (k.system.ipc.pending pid).map (fun a => (a.sender, a.body)) =
        ((outboxAfter n room ((k.log.map Prod.fst).map .ofChar)).sentTo pid).map (0, ·) := by
  classical
  obtain ⟨bs, wf, hlive⟩ := Mm.History.inv_of_run hok hrun
  obtain ⟨slots, rfl, hrep⟩ := h₀.rep
  have hroom : decide (Satisfiable hist.heap testSize) = true ↔ Satisfiable hist.heap testSize :=
    decide_eq_true_iff
  obtain ⟨k₁, e₁, h₁⟩ := bootTests_running wf hrep hg (decide (Satisfiable hist.heap testSize)) img
    regs bulletServerMain netServerMain uart netBuffer bulletBuffer stack
  obtain ⟨k, e, h⟩ := h₁.turns hg hroom wf is
  refine ⟨_, k, hroom, ?_, ?_, h.log, h.settled.heap.undone wf hlive, h.settled.closed,
    fun pid hpid => ?_, fun pid => ?_⟩
  · unfold MainState.kmain
    rw [e₁]
    exact e
  · exact (List.sublist_append_left _ _).trans h.typed
  · obtain ⟨free, box, hrep', hnil⟩ := h.settled.receivers_empty
    rw [hrep'.pending_eq]
    apply hnil
    · rintro rfl
      exact absurd hpid (by decide)
    · rintro rfl
      exact absurd hpid (by decide)
  · obtain ⟨letters, hpending, hletters⟩ := h.settled.mail.pending pid
    rw [hpending, ← hletters]
    rfl

/-- A quotient by zero on RISC-V. -/
def allBitsSet (_ : Int32) : Int64 := Int64.ofInt (-1)

/-- The default scene on RISC-V. -/
def riscvSetting : Setting :=
  ⟨⟨fun _ => [], fun _ => 0⟩, 0, 0, .onMachine allBitsSet _ Raytracer.setupDefaultScene,
    .onMachine allBitsSet _ Raytracer.setupDefaultScene⟩

/-- The keys `b` and `s` arrive. -/
def twoKeys : List Arrival := [⟨[chr 'b', chr 's'], fun _ => 0, fun _ => 0⟩]

theorem console_transcript_riscv :
    ∃ hist room k, Mm.History.run Raytracer.demoRegion (fun _ => 0) [] = some hist ∧
      (MainState.initial ⟨0, 4096, 8192, 12288⟩ (fun _ => 0) 16384 20480 hist.heap poolState
        ⟨fun _ => 0, 0, 0, 0⟩ (fun _ => 0) fun _ => 0).kmain riscvSetting (fun _ => 0) twoKeys =
          some k ∧
      k.log = transcript 2 room [] (k.log.map Prod.fst) := by
  obtain ⟨room, k, _, hkmain, _, hlog, _⟩ := console_transcript Raytracer.demoRegion (fun _ => 0) []
    (by decide) _ rfl 2 poolState poolState_initial riscvSetting
    ⟨Raytracer.Renderer.onMachine_draw _ _ _, Raytracer.Renderer.onMachine_draw _ _ _⟩
    ⟨0, 4096, 8192, 12288⟩ (fun _ => 0) 16384 20480 ⟨fun _ => 0, 0, 0, 0⟩ (fun _ => 0) (fun _ => 0)
    (fun _ => 0) twoKeys
  exact ⟨_, room, k, rfl, hkmain, hlog⟩

end Hydra.Kernel
