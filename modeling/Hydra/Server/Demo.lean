import Hydra.Ipc.Status
import Hydra.Kernel.Turns

/-!
# The demonstration of the servers

`server/server_mgmt.c`: `start_servers`, and `server_demo`, which calls the client functions one
after the other and goes on with what they return. No call waits for the server, so what a call
returns is the oldest letter that was there before, whoever it is from. To its calls, the message
system is the number of free slots and the letters that wait for the task (`Mail`), and the demo as
a whole reads the letters that waited when it began (`server_demo_past`). A task to which nobody has
written yet is told -1 three times, and never comes to bind its socket.
-/

namespace Hydra.Server
open ByteMem Mailbox Hydra.Ipc Hydra.LibHydra
open Hydra.Sched (Machine Image Inv createTask)
open Run (Agree)

/-! ## The code -/

/-- The static variables of `server_mgmt.c`. -/
structure ServerPids where
  gBulletServerPid : Int
  gNetServerPid : Int
  deriving DecidableEq, Repr

/-- C `start_servers`. -/
def startServers (img : Image) (s : Machine) (pids : ServerPids)
    (bulletServerMain netServerMain : UInt64) : ServerPids × Machine :=
  let (bulletPid, s) := createTask img s bulletServerMain
  let pids := if 0 ≤ bulletPid then { pids with gBulletServerPid := bulletPid } else pids
  let (netPid, s) := createTask img s netServerMain
  let pids := if 0 ≤ netPid then { pids with gNetServerPid := netPid } else pids
  (pids, s)

/-- What `server_demo` prints. -/
structure DemoReport where
  reqId : Int
  status : Int
  sock : Int
  bindResult : Option Int
  sendResult : Option Int
  deriving DecidableEq, Repr

/-- `server_demo`, given what its calls do. -/
def demo {m : Type → Type} [Monad m] (call : Nat → ClientCall → m Int) (msg : Mem) :
    m DemoReport := do
  let reqId ← call 0 (.bulletMigrateProcess 2 18)
  let status ← call 1 (.bulletCheckMigrationStatus reqId)
  let sock ← call 2 (.netSocket sockTcp)
  if 0 < sock then
    -- 127.0.0.1:8080
    let bindResult ← call 3 (.netBind sock 0x7F000001 8080)
    if 0 ≤ bindResult then
      let sendResult ← call 4 (.netSocketSend sock msg 16)
      return ⟨reqId, status, sock, some bindResult, some sendResult⟩
    else return ⟨reqId, status, sock, some bindResult, none⟩
  else return ⟨reqId, status, sock, none, none⟩

/-- A client function, called by the task `t`. -/
def callBy (t : Int) (stack : Mem) (c : ClientCall) : StateM IpcState Int := fun s =>
  ((c.exec s t stack).ret, (c.exec s t stack).state)

/-- C `server_demo` and `test_client_main`, as the task `t`: the calls find anything in their local
arrays, and `msg` is the text that is sent. -/
def serverDemo (t : Int) (stack : Nat → Mem) (msg : Mem) : StateM IpcState DemoReport :=
  demo (fun i => callBy t (stack i)) msg

/-! ## Starting the servers -/

/-- `start_servers` gives the servers the pids that their clients assume exactly if there are the
three idle tasks before. -/
lemma startServers_pids (img : Image) {s : Machine} (h : Inv s)
    (bulletServerMain netServerMain : UInt64) :
    (startServers img s ⟨-1, -1⟩ bulletServerMain netServerMain).1 =
      ⟨bulletServerPid, netServerPid⟩ ↔ s.numTasks = 3 := by
  have hpos : 0 ≤ s.numTasks := h.current_nonneg.trans h.current_lt.le
  have hle := h.num_le
  unfold startServers createTask bulletServerPid netServerPid
  rw [ServerPids.mk.injEq]
  unfold maxTasks at *
  have hneg : ¬(0 : Int) ≤ -1 := by decide
  by_cases hfull : 8 ≤ s.numTasks
  · simp only [if_pos hfull, if_neg hneg]
    omega
  · simp only [if_neg hfull, if_pos hpos]
    by_cases hlast : 8 ≤ s.numTasks + 1
    · simp only [if_pos hlast, if_neg hneg]
      omega
    · have hsucc : 0 ≤ s.numTasks + 1 := by omega
      simp only [if_neg hlast, if_pos hsucc]
      omega

/-! ## What the calls see -/

/-- The number of free slots, and what the letters say that wait for a task. -/
structure Mail where
  free : Nat
  waiting : List Int

/-- A call takes a slot for its request, and gives back that of the letter it finds. -/
def Mail.call : StateM Mail Int := fun m =>
  match m.free, m.waiting with
  | 0, _ => (-1, m)
  | n + 1, [] => (-1, ⟨n, []⟩)
  | n + 1, v :: vs => (v, ⟨n + 1, vs⟩)

/-- What a client function reads from a letter. -/
def reading (a : Letter) : Int := arg (paste (a.body.take 4) (intBytes (-1))) 0

/-- The message system as a task sees it; the queues of others than the task and the servers are
those of `box₀`. -/
def Sees (S : Set Nat) (box₀ : Int → List Letter) (t : Int) (m : Mail) (s : IpcState) : Prop :=
  ∃ free box, Rep S s free box ∧ m = ⟨free.length, (box t).map reading⟩ ∧
    ∀ q, q ≠ t → box₀ q <+: box q ∧ (q ≠ bulletServerPid → q ≠ netServerPid → box q = box₀ q)

section Calls

variable {S : Set Nat} {s : IpcState} {free : List Nat} {box box₀ : Int → List Letter} {t : Int}
  {m : Mail}

/-- A call whose request is sent reads the oldest letter. -/
lemma clientCall_reads {f : Nat} (h : Rep S s (f :: free) box) (ht : 0 ≤ t ∧ t < maxTasks)
    {server size : Int} (hserver : 0 ≤ server ∧ server < maxTasks) (hne : t ≠ server)
    (hsize : 0 < size ∧ size ≤ maxMessageSize) (cmdData : Mem) :
    ∃ a, (box t = [] ∧ (clientCall s t server cmdData size).ret = -1 ∧
        Rep S (clientCall s t server cmdData size).state free (post box server a)) ∨
      ∃ b l, box t = b :: l ∧ (clientCall s t server cmdData size).ret = reading b ∧
        Rep S (clientCall s t server cmdData size).state (b.slot :: free)
          (take (post box server a) t) := by
  have hok : Sendable server (some cmdData) size := ⟨hserver, hsize, rfl⟩
  obtain ⟨s₁, e, h₁⟩ := sendMessage_post h t hok
  have hbox : post box server ⟨f, t, bytes cmdData size.toNat⟩ t = box t := post_of_ne _ hne _
  have hret : arg (intBytes (-1)) 0 = -1 := by decide
  refine ⟨⟨f, t, bytes cmdData size.toNat⟩, ?_⟩
  unfold clientCall syscallRecvMsg
  simp only [sendRetry_ok e]
  rw [if_neg (Nat.succ_ne_zero 2)]
  cases hb : box t with
  | nil =>
    rw [recvMessage_empty h₁ (hbox.trans hb)]
    simp only [Option.getD_some, hret]
    exact .inl ⟨trivial, trivial, h₁⟩
  | cons b l =>
    have hok : Receivable t (some (intBytes (-1))) 4 := ⟨rfl, by decide, ht⟩
    obtain ⟨s₂, e₂, h₂⟩ := recvMessage_take h₁ hok (hbox.trans hb) server
    rw [e₂]
    exact .inr ⟨b, l, rfl, rfl, h₂⟩

/-- The queues of the others, after a request and whatever the task has taken. -/
lemma others_kept {box' : Int → List Letter} {c : ClientCall} {a : Letter}
    (h : ∀ q, q ≠ t → box₀ q <+: box q ∧ (q ≠ bulletServerPid → q ≠ netServerPid → box q = box₀ q))
    (hbox : ∀ q, q ≠ t → box' q = post box c.server a q) :
    ∀ q, q ≠ t → box₀ q <+: box' q ∧
      (q ≠ bulletServerPid → q ≠ netServerPid → box' q = box₀ q) := by
  intro q hq
  rw [hbox q hq]
  rcases eq_or_ne q c.server with rfl | hne
  · rw [post_self]
    refine ⟨(h _ hq).1.trans (List.prefix_append _ _), fun hb hn => ?_⟩
    cases c with
    | netSocket | netBind | netSocketSend => exact absurd rfl hn
    | bulletMigrateProcess | bulletCheckMigrationStatus => exact absurd rfl hb
  · rw [post_of_ne _ hne]
    exact h q hq

/-- A client function does with the message system what `Mail.call` does with the mail. -/
lemma callBy_sees (h : Sees S box₀ t m s) (ht : 0 ≤ t ∧ t < maxTasks)
    (hclient : t ≠ bulletServerPid ∧ t ≠ netServerPid) (stack : Mem) {c : ClientCall}
    (hsize : 0 < c.size) :
    (callBy t stack c s).1 = (Mail.call m).1 ∧
      Sees S box₀ t (Mail.call m).2 (callBy t stack c s).2 := by
  obtain ⟨free, box, hrep, rfl, hothers⟩ := h
  have hne : t ≠ c.server := by
    cases c with
    | netSocket | netBind | netSocketSend => exact hclient.2
    | bulletMigrateProcess | bulletCheckMigrationStatus => exact hclient.1
  obtain ⟨cmdData, e⟩ := c.exec_eq s t stack
  unfold callBy
  rw [e]
  cases free with
  | nil =>
    have hcall : clientCall s t c.server cmdData c.size = ⟨-1, s, false, s, -1⟩ := by
      unfold clientCall
      simp only [sendRetry_fail (sendMessage_empty hrep t c.server (some cmdData) c.size), if_true]
    rw [hcall]
    exact ⟨rfl, [], box, hrep, rfl, hothers⟩
  | cons f free =>
    obtain ⟨a, ⟨hb, hret, h₁⟩ | ⟨b, l, hb, hret, h₁⟩⟩ :=
      clientCall_reads hrep ht c.server_valid hne ⟨hsize, c.size_le⟩ cmdData
    · rw [hb]
      refine ⟨hret, free, _, h₁, ?_, others_kept hothers fun q _ => rfl⟩
      rw [post_of_ne _ hne, hb]
      rfl
    · rw [hb]
      refine ⟨hret, b.slot :: free, _, h₁, ?_, others_kept hothers fun q hq => take_of_ne _ hq⟩
      rw [take_self, post_of_ne _ hne, hb]
      rfl

end Calls

section Agree

variable {σ τ : Type} {R : σ → τ → Prop}

/-- Demos whose calls agree come to the same report. -/
lemma demo_agree {call : Nat → ClientCall → StateM σ Int} {call' : Nat → ClientCall → StateM τ Int}
    (hcall : ∀ i c, 0 < c.size → Agree R (call i c) (call' i c)) (msg : Mem) :
    Agree R (demo call msg) (demo call' msg) := by
  have htwelve : (0 : Int) < 12 := by decide
  have hsixteen : (0 : Int) < 16 := by decide
  have hsend : (0 : Int) < 16 + 16 := by decide
  refine Run.Agree.bind (hcall _ _ hsixteen) fun reqId => ?_
  refine Run.Agree.bind (hcall _ _ htwelve) fun status => ?_
  refine Run.Agree.bind (hcall _ _ htwelve) fun sock => ?_
  split
  · refine Run.Agree.bind (hcall _ _ hsixteen) fun bindResult => ?_
    split
    · exact Run.Agree.bind (hcall _ _ hsend) fun sendResult => .pure _
    · exact .pure _
  · exact .pure _

end Agree

/-- The demo sees the mail of its task. -/
lemma serverDemo_agree (S : Set Nat) (box₀ : Int → List Letter) {t : Int}
    (ht : 0 ≤ t ∧ t < maxTasks) (hclient : t ≠ bulletServerPid ∧ t ≠ netServerPid)
    (stack : Nat → Mem) (msg : Mem) :
    Agree (fun s m => Sees S box₀ t m s) (serverDemo t stack msg)
      (demo (fun _ _ => Mail.call) msg) :=
  demo_agree (fun i _ hsize _ _ h => callBy_sees h ht hclient (stack i) hsize) msg

/-- Without mail the demo gets nothing. -/
lemma demo_nil (msg : Mem) (free : Nat) :
    (demo (fun _ _ => Mail.call) msg ⟨free, []⟩).1 = ⟨-1, -1, -1, none, none⟩ := by
  match free with
  | 0 => rfl
  | 1 => rfl
  | 2 => rfl
  | n + 3 => rfl

/-- In every reachable state of the message system, the calls of `server_demo` read the letters that
wait for the task already, one after the other, as long as there is a free slot, and -1 otherwise.
Nothing is taken from other queues, and only the servers get letters. -/
theorem server_demo_past (n : Nat) (s₀ : IpcState) (h₀ : Initial n s₀) (ops : List IpcOp)
    (s : Ipc.History) (hrun : Ipc.History.run s₀ ops = some s) {t : Int}
    (ht : 0 ≤ t ∧ t < maxTasks) (hclient : t ≠ bulletServerPid ∧ t ≠ netServerPid)
    (stack : Nat → Mem) (msg : Mem) :
    ∃ free : Nat, countFreeMessages s.ipc = some (free : Int) ∧
      let r := demo (fun _ _ => Mail.call) msg ⟨free, (s.ipc.pending t).map reading⟩
      let r' := serverDemo t stack msg s.ipc
      r'.1 = r.1 ∧ countFreeMessages r'.2 = some (r.2.free : Int) ∧
      (r'.2.pending t).map reading = r.2.waiting ∧
      (∀ q, q ≠ t → s.ipc.pending q <+: r'.2.pending q ∧
        (q ≠ bulletServerPid → q ≠ netServerPid → r'.2.pending q = s.ipc.pending q)) ∧
      (s.ipc.pending t = [] → r'.1 = ⟨-1, -1, -1, none, none⟩) := by
  obtain ⟨slots, s', rfl, hpool, hrun', free, box, hrep, _⟩ := Ipc.History.run_inv h₀ ops
  obtain rfl := Option.some.inj (hrun'.symm.trans hrun)
  have hcount : ∀ {s free box}, Rep {p | p ∈ slots} s free box →
      countFreeMessages s = some (free.length : Int) := fun h =>
    countFreeMessages_eq h hpool.nodup h₀.le
  have hsees : Sees {p | p ∈ slots} box t ⟨free.length, (box t).map reading⟩ s'.ipc :=
    ⟨free, box, hrep, rfl, fun q _ => ⟨List.prefix_rfl, fun _ _ => rfl⟩⟩
  obtain ⟨hreport, free', box', hrep', hmail, hothers⟩ :=
    serverDemo_agree _ _ ht hclient stack msg _ _ hsees
  rw [hrep.pending_eq]
  refine ⟨free.length, hcount hrep, hreport, ?_, ?_, ?_, fun hnil => ?_⟩
  · exact (hcount hrep').trans (by rw [hmail])
  · rw [hrep'.pending_eq, hmail]
  · rw [hrep'.pending_eq]
    exact hothers
  · rw [hreport, hnil]
    exact demo_nil msg free.length

/-- Another task has sent the number 7 to task 0, which takes it for the id of its request. -/
theorem server_demo_past_seven :
    ∃ s, Ipc.History.run poolState [.sendMessage 2 0 (some (intBytes 7)) 4] = some s ∧
      (serverDemo 0 (fun _ _ => 0) (fun _ => 0) s.ipc).1 = ⟨7, -1, -1, none, none⟩ := by
  have hmail : (Ipc.History.run poolState [.sendMessage 2 0 (some (intBytes 7)) 4]).map
      (fun s => (countFreeMessages s.ipc, (s.ipc.pending 0).map reading)) =
      some (some 1, [7]) := by decide +kernel
  obtain ⟨s, hrun, hs⟩ := Option.map_eq_some_iff.mp hmail
  obtain ⟨hfree, hwaiting⟩ := Prod.mk.inj hs
  obtain ⟨free, hcount, hreport, _⟩ := server_demo_past 2 poolState poolState_initial _ s hrun
    (t := 0) (by decide) (by decide) (fun _ _ => 0) fun _ => 0
  obtain rfl : free = 1 := by
    have := Option.some.inj (hfree.symm.trans hcount)
    omega
  refine ⟨s, hrun, ?_⟩
  rw [hreport, hwaiting]
  rfl

end Hydra.Server
