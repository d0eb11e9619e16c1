import Hydra.Server.Codec

/-!
# Migration requests

The runs of the bullet server: an iteration handles a message, if there is one, and then processes
the migrations. A history records the requests that were handed out and every state that the server
went through, with those between the writes of `process_migrations`. The table of the requests is a
log: from one state to the next a request keeps everything but its status, which moves from 0 to 1
and from 1 to 2 (`Advances`), and only the newest request is not completed (`TableOk`).

No request ever leaves the table. The server takes 16 of them and then refuses all others, although
nothing is left to be done (`queue_drains`).
-/

namespace Hydra.Server
open ByteMem Mailbox Hydra.Ipc Hydra.LibHydra

/-! ## The states of `process_migrations` -/

namespace BulletServer

def setStatus (srv : BulletServer) (i : Nat) (status : Int) : BulletServer :=
  { srv with requests := Function.update srv.requests i { srv.requests i with status := status } }

@[simp]
lemma setStatus_numRequests (srv : BulletServer) (i : Nat) (status : Int) :
    (srv.setStatus i status).numRequests = srv.numRequests := rfl

@[simp]
lemma setStatus_self (srv : BulletServer) (i : Nat) (status : Int) :
    (srv.setStatus i status).requests i = { srv.requests i with status := status } :=
  Function.update_self ..

@[simp]
lemma setStatus_of_ne (srv : BulletServer) {i j : Nat} (h : j ≠ i) (status : Int) :
    (srv.setStatus i status).requests j = srv.requests j :=
  Function.update_of_ne h ..

end BulletServer

/-- The states before each write of the loop of `process_migrations`. -/
def processPast : Nat → Nat → BulletServer → List BulletServer
  | 0, _, _ => []
  | n + 1, i, srv =>
    if (srv.requests i).status = 0 then
      srv :: srv.setStatus i 1 :: processPast n (i + 1) ((srv.setStatus i 1).setStatus i 2)
    else processPast n (i + 1) srv

lemma processFrom_succ (n i : Nat) (srv : BulletServer) :
    processFrom (n + 1) i srv =
      if (srv.requests i).status = 0 then
        processFrom n (i + 1) ((srv.setStatus i 1).setStatus i 2)
      else processFrom n (i + 1) srv := by
  rfl

/-- The loop completes the pending requests and leaves the others. -/
lemma processFrom_requests (n i : Nat) (srv : BulletServer) (j : Nat) :
    (processFrom n i srv).requests j =
      if (i ≤ j ∧ j < i + n) ∧ (srv.requests j).status = 0 then { srv.requests j with status := 2 }
      else srv.requests j := by
  induction n generalizing i srv with
  | zero =>
    rw [if_neg (by omega)]
    rfl
  | succ n ih =>
    rw [processFrom_succ]
    split
    · next hpending =>
      rw [ih]
      rcases eq_or_ne j i with rfl | hne
      · rw [if_neg (by omega), if_pos (by omega)]
        simp
      · rw [BulletServer.setStatus_of_ne _ hne, BulletServer.setStatus_of_ne _ hne]
        exact if_congr (and_congr_left fun _ => by omega) rfl rfl
    · next hdone =>
      rw [ih]
      rcases eq_or_ne j i with rfl | hne
      · rw [if_neg (by omega), if_neg (fun h => hdone h.2)]
      · exact if_congr (and_congr_left fun _ => by omega) rfl rfl

lemma processFrom_numRequests (n i : Nat) (srv : BulletServer) :
    (processFrom n i srv).numRequests = srv.numRequests := by
  induction n generalizing i srv with
  | zero => rfl
  | succ n ih =>
    rw [processFrom_succ]
    split
    · rw [ih]
      rfl
    · exact ih (i + 1) srv

/-! ## Requests over time -/

/-- From one state to the next the recorded requests keep everything but their status, which moves
from 0 to 1 or from 1 to 2 if at all, and a new request has status 0. -/
structure Advances (srv srv' : BulletServer) : Prop where
  count : srv.numRequests ≤ srv'.numRequests
  kept : ∀ i : Nat, i < srv.numRequests →
    srv'.requests i = { srv.requests i with status := (srv'.requests i).status }
  status : ∀ i : Nat, i < srv.numRequests →
    (srv'.requests i).status = (srv.requests i).status ∨
      (srv.requests i).status = 0 ∧ (srv'.requests i).status = 1 ∨
      (srv.requests i).status = 1 ∧ (srv'.requests i).status = 2
  fresh : ∀ i : Nat, srv.numRequests ≤ i → i < srv'.numRequests → (srv'.requests i).status = 0

/-- The table is within its bounds, and all requests but the newest are completed. -/
structure TableOk (srv : BulletServer) : Prop where
  nonneg : 0 ≤ srv.numRequests
  le : srv.numRequests ≤ maxMigrationRequests
  completed : ∀ i : Nat, i + 1 < srv.numRequests → (srv.requests i).status = 2

lemma Advances.refl (srv : BulletServer) : Advances srv srv :=
  ⟨le_rfl, fun _ _ => rfl, fun _ _ => .inl rfl, fun i hle hlt => by omega⟩

lemma advances_setStatus {srv : BulletServer} {i : Nat} {status : Int}
    (h : (srv.requests i).status = 0 ∧ status = 1 ∨ (srv.requests i).status = 1 ∧ status = 2) :
    Advances srv (srv.setStatus i status) := by
  refine ⟨le_rfl, fun j _ => ?_, fun j _ => ?_, fun j hle hlt => ?_⟩
  · rcases eq_or_ne j i with rfl | hne
    · simp
    · simp [hne]
  · rcases eq_or_ne j i with rfl | hne
    · right
      simpa using h
    · simp [hne]
  · simp only [BulletServer.setStatus_numRequests] at hlt
    omega

/-- A request that is not completed is the newest, so its status may be set. -/
lemma TableOk.setStatus {srv : BulletServer} (h : TableOk srv) {i : Nat}
    (hi : (srv.requests i).status ≠ 2) (status : Int) : TableOk (srv.setStatus i status) := by
  refine ⟨h.nonneg, h.le, fun j hj => ?_⟩
  have hdone := h.completed j hj
  rcases eq_or_ne j i with rfl | hne
  · exact absurd hdone hi
  · rw [BulletServer.setStatus_of_ne _ hne, hdone]

/-- The states of the loop continue those before it. -/
lemma processPast_chain (n i : Nat) (srv : BulletServer) (past : List BulletServer)
    (h : (past ++ [srv]).IsChain Advances) :
    (past ++ processPast n i srv ++ [processFrom n i srv]).IsChain Advances := by
  induction n generalizing i srv past with
  | zero => simpa [processPast, processFrom] using h
  | succ n ih =>
    rw [processFrom_succ]
    unfold processPast
    split
    · next hpending =>
      have hstart : Advances srv (srv.setStatus i 1) := advances_setStatus (.inl ⟨hpending, rfl⟩)
      have hcomplete : Advances (srv.setStatus i 1) ((srv.setStatus i 1).setStatus i 2) :=
        advances_setStatus (.inr ⟨by simp, rfl⟩)
      have hnext := ih (i + 1) ((srv.setStatus i 1).setStatus i 2)
        (past ++ [srv, srv.setStatus i 1]) (by simp [h, hstart, hcomplete])
      simpa using hnext
    · exact ih (i + 1) srv past h

/-- The states of the loop are in order. -/
lemma processPast_table (n i : Nat) {srv : BulletServer} (h : TableOk srv) :
    ∀ s ∈ processPast n i srv ++ [processFrom n i srv],
      TableOk s ∧ s.numRequests = srv.numRequests := by
  induction n generalizing i srv with
  | zero =>
    intro s hs
    obtain rfl := List.mem_singleton.mp hs
    exact ⟨h, rfl⟩
  | succ n ih =>
    rw [processFrom_succ]
    unfold processPast
    split
    · next hpending =>
      have hstart := h.setStatus (i := i) (by omega) 1
      have hcomplete := hstart.setStatus (i := i) (by simp) 2
      have hrest := List.forall_mem_cons.mpr ⟨⟨hstart, rfl⟩, ih (i + 1) hcomplete⟩
      exact List.forall_mem_cons.mpr ⟨⟨h, rfl⟩, hrest⟩
    · exact ih (i + 1) h

/-! ## The handler -/

/-- A request that was handed out, with the sender and the arguments of its message. -/
structure Issued where
  id : Int
  sourcePid : Int
  targetNode : Int
  processSize : Int
deriving DecidableEq

/-- The id has the sender and the arguments it was handed out for. -/
structure Issued.Recorded (x : Issued) (srv : BulletServer) : Prop where
  source : (srv.requests x.id.toNat).sourcePid = x.sourcePid
  node : (srv.requests x.id.toNat).targetNode = x.targetNode
  size : (srv.requests x.id.toNat).processSize = x.processSize

/-- The server with one more request, pending. Its data is in the message buffer. -/
def BulletServer.push (srv : BulletServer) (x : Issued) : BulletServer :=
  { srv with
    requests := Function.update srv.requests srv.numRequests.toNat
      ⟨x.sourcePid, x.targetNode, x.processSize, 4 + 12, 0⟩
    numRequests := srv.numRequests + 1 }

/-- The request that `bullet_handle_client_message` hands out for a message, if it does. -/
def issuedRequest (srv : BulletServer) (senderPid : Int) (msgData : Mem) (msgSize : Int) :
    Option Issued :=
  if 16 ≤ msgSize ∧ arg msgData 0 = 1 then
    let reqId :=
      (handleMigrationRequest srv senderPid (arg msgData 1) (4 + 12) (arg msgData 2)).1
    if reqId = -1 then none else some ⟨reqId, senderPid, arg msgData 1, arg msgData 2⟩
  else none

/-- The id of the next request, or -1 when the table is full. -/
def BulletServer.nextId (srv : BulletServer) : Int :=
  if srv.numRequests < maxMigrationRequests then srv.numRequests else -1

lemma handleMigrationRequest_id (srv : BulletServer) (sourcePid targetNode : Int)
    (processData : Nat) (size : Int) :
    (handleMigrationRequest srv sourcePid targetNode processData size).1 = srv.nextId := by
  unfold handleMigrationRequest BulletServer.nextId
  split
  · next hfull => rw [if_neg (by omega)]
  · next hroom =>
    rw [if_pos (by omega)]
    simp

/-- A complete migration request is answered with the next id. -/
lemma bulletHandle_request {msg : Mem} {size : Int} (hcmd : arg msg 0 = 1) (hsize : 16 ≤ size)
    (srv : BulletServer) (pid : Int) :
    (bulletHandleClientMessage srv pid msg size).1 = some (intReply srv.nextId) := by
  unfold bulletHandleClientMessage
  rw [if_neg (by omega), hcmd]
  simp only [if_pos hsize, handleMigrationRequest_id]

/-- A complete status query is answered with the status, or with -1. -/
lemma bulletHandle_query {msg : Mem} {size : Int} (hcmd : arg msg 0 = 2) (hsize : 8 ≤ size)
    (srv : BulletServer) (pid : Int) :
    bulletHandleClientMessage srv pid msg size =
      (some (intReply (if 0 ≤ arg msg 1 ∧ arg msg 1 < srv.numRequests then
        (srv.requests (arg msg 1).toNat).status else -1)), srv) := by
  unfold bulletHandleClientMessage
  rw [if_neg (by omega), hcmd]
  simp only [if_pos hsize]
  split <;> rfl

/-- A message hands out the next id of the table, or leaves the table as it is. -/
lemma bulletHandle_issues (srv : BulletServer) (h : 0 ≤ srv.numRequests) (pid : Int) (msg : Mem)
    (size : Int) :
    issuedRequest srv pid msg size = none ∧ (bulletHandleClientMessage srv pid msg size).2 = srv ∨
      ∃ x, issuedRequest srv pid msg size = some x ∧ x.id = srv.numRequests ∧
        srv.numRequests < maxMigrationRequests ∧
        (bulletHandleClientMessage srv pid msg size).2 = srv.push x := by
  by_cases hcmd : 16 ≤ size ∧ arg msg 0 = 1
  · have hhandle : (bulletHandleClientMessage srv pid msg size).2 =
        (handleMigrationRequest srv pid (arg msg 1) (4 + 12) (arg msg 2)).2 := by
      unfold bulletHandleClientMessage
      rw [if_neg (by omega), hcmd.2]
      simp only [if_pos hcmd.1]
    unfold issuedRequest
    rw [if_pos hcmd, hhandle]
    simp only [handleMigrationRequest_id]
    unfold BulletServer.nextId handleMigrationRequest
    by_cases hroom : srv.numRequests < maxMigrationRequests
    · right
      rw [if_pos hroom, if_neg (by omega), if_neg (by omega)]
      exact ⟨_, rfl, rfl, hroom, rfl⟩
    · left
      rw [if_neg hroom, if_pos rfl, if_pos (by omega)]
      exact ⟨rfl, rfl⟩
  · left
    refine ⟨if_neg hcmd, ?_⟩
    rcases bulletHandle_cases srv pid msg size with e | ⟨hc, _⟩
    · exact e
    · exact absurd ⟨hc.2, hc.1⟩ hcmd

/-! ## Histories -/

/-- The server with the requests it has handed out and the states before the present one. -/
structure BulletHistory where
  srv : BulletServer
  msgBuffer : Mem
  issued : List Issued
  past : List BulletServer

namespace BulletHistory

/-- The server after `bullet_init`, whatever the static variables and the buffer held before. -/
def start (srv : BulletServer) (currentTask : Int) (msgBuffer : Mem) : BulletHistory where
  srv := bulletInit srv currentTask
  msgBuffer := msgBuffer
  issued := []
  past := []

/-- All states, with the present one. -/
def states (h : BulletHistory) : List BulletServer := h.past ++ [h.srv]

def message (h : BulletHistory) (body : List UInt8) : BulletHistory :=
  let buf := deliver h.msgBuffer body
  { srv := (bulletHandleClientMessage h.srv (arg buf 0) (shift buf 4) (body.length - 4)).2
    msgBuffer := buf
    issued := h.issued ++
      (issuedRequest h.srv (arg buf 0) (shift buf 4) (body.length - 4)).toList
    past := h.states }

def process (h : BulletHistory) : BulletHistory :=
  { h with
    srv := processMigrations h.srv
    past := h.past ++ processPast h.srv.numRequests.toNat 0 h.srv }

/-- An iteration of the loop of `bullet_server_main`, with the message it receives, if any. -/
def step (h : BulletHistory) : Option (List UInt8) → Option BulletHistory
  | none => some h.process
  | some body => some (h.message body).process

/-- The run of the loop over a list of messages. -/
abbrev run (h : BulletHistory) (ops : List (Option (List UInt8))) : Option BulletHistory :=
  Run.run step h ops

end BulletHistory

/-! ## The invariant of the table -/

/-- No request is pending or in progress. -/
def Completed (srv : BulletServer) : Prop :=
  ∀ i : Nat, i < srv.numRequests → (srv.requests i).status = 2

namespace BulletServer

variable {srv : BulletServer} (hpos : 0 ≤ srv.numRequests) (x : Issued)
include hpos

lemma push_old {i : Nat} (hi : i < srv.numRequests) :
    (srv.push x).requests i = srv.requests i :=
  Function.update_of_ne (by omega) ..

lemma push_new {i : Nat} (hi : i = srv.numRequests) :
    (srv.push x).requests i = ⟨x.sourcePid, x.targetNode, x.processSize, 4 + 12, 0⟩ := by
  obtain rfl : i = srv.numRequests.toNat := by omega
  exact Function.update_self ..

lemma push_advances : Advances srv (srv.push x) := by
  refine ⟨?_, fun i hi => ?_, fun i hi => ?_, fun i hle hlt => ?_⟩
  · exact Int.le_add_one le_rfl
  · rw [push_old hpos x hi]
  · rw [push_old hpos x hi]
    exact .inl rfl
  · have hlast : (i : Int) < srv.numRequests + 1 := hlt
    rw [push_new hpos x (by omega)]

end BulletServer

lemma Completed.tableOk {srv : BulletServer} (h : Completed srv) (hpos : 0 ≤ srv.numRequests)
    (hle : srv.numRequests ≤ maxMigrationRequests) : TableOk srv :=
  ⟨hpos, hle, fun i hi => h i (by omega)⟩

lemma Completed.push_tableOk {srv : BulletServer} (h : Completed srv) (hpos : 0 ≤ srv.numRequests)
    (hroom : srv.numRequests < maxMigrationRequests) (x : Issued) : TableOk (srv.push x) := by
  refine ⟨?_, ?_, fun i hi => ?_⟩
  · exact Int.add_nonneg hpos (by decide)
  · exact hroom
  · have hold : (i : Int) + 1 < srv.numRequests + 1 := hi
    rw [srv.push_old hpos x (by omega)]
    exact h i (by omega)

/-- A request stays recorded while its fields are kept. -/
lemma Issued.Recorded.keep {x : Issued} {srv srv' : BulletServer} (h : x.Recorded srv)
    (hkept : srv'.requests x.id.toNat = { srv.requests x.id.toNat with
      status := (srv'.requests x.id.toNat).status }) : x.Recorded srv' := by
  constructor
  · rw [hkept]
    exact h.source
  · rw [hkept]
    exact h.node
  · rw [hkept]
    exact h.size

namespace BulletHistory

/-- The invariant of the history of the bullet server: the ids are 0, 1, 2, ... in this order, each
has what it was handed out for, and the states so far are in order. -/
structure Inv (h : BulletHistory) : Prop where
  count : h.srv.numRequests = h.issued.length
  ids : h.issued.map Issued.id = (List.range h.issued.length).map Nat.cast
  recorded : ∀ x ∈ h.issued, x.Recorded h.srv
  chain : h.states.IsChain Advances
  table : ∀ srv ∈ h.states, TableOk srv ∧ srv.numRequests ≤ h.issued.length

/-- A request was handed out if and only if its id is below the number of requests. -/
lemma Inv.issued_iff {h : BulletHistory} (hi : h.Inv) (id : Int) :
    (∃ x ∈ h.issued, x.id = id) ↔ 0 ≤ id ∧ id < h.srv.numRequests := by
  have hmem : (∃ x ∈ h.issued, x.id = id) ↔ id ∈ h.issued.map Issued.id := by
    rw [List.mem_map]
  rw [hmem, hi.ids, hi.count, List.mem_map]
  constructor
  · rintro ⟨j, hj, rfl⟩
    have := List.mem_range.mp hj
    omega
  · rintro ⟨hpos, hlt⟩
    exact ⟨id.toNat, List.mem_range.mpr (by omega), by omega⟩

/-- The present state is one of the states. -/
lemma srv_mem (h : BulletHistory) : h.srv ∈ h.states := by
  simp [states]

lemma start_inv (srv : BulletServer) (currentTask : Int) (msgBuffer : Mem) :
    (start srv currentTask msgBuffer).Inv ∧ Completed (start srv currentTask msgBuffer).srv := by
  have hdone : Completed (bulletInit srv currentTask) := by
    intro i hi
    have hneg : (i : Int) < 0 := hi
    omega
  refine ⟨⟨rfl, rfl, nofun, ?_, ?_⟩, hdone⟩
  · exact List.isChain_singleton _
  · intro s hs
    obtain rfl := List.mem_singleton.mp hs
    exact ⟨hdone.tableOk le_rfl (show (0 : Int) ≤ 16 by decide), le_rfl⟩

/-- The states go on with a next one. -/
lemma Inv.chain_next {h : BulletHistory} (hi : h.Inv) {srv : BulletServer}
    (hnext : Advances h.srv srv) : (h.states ++ [srv]).IsChain Advances := by
  have hchain := hi.chain
  unfold states at hchain ⊢
  rw [List.append_assoc]
  exact List.isChain_append_cons_cons.mpr ⟨hchain, hnext, List.isChain_singleton _⟩

/-- A message leaves the server as it is, or hands out the next id. -/
lemma message_cases {h : BulletHistory} (hi : h.Inv) (body : List UInt8) :
    h.message body = { h with msgBuffer := deliver h.msgBuffer body, past := h.states } ∨
      ∃ x, x.id = h.srv.numRequests ∧ h.srv.numRequests < maxMigrationRequests ∧
        h.message body = ⟨h.srv.push x, deliver h.msgBuffer body, h.issued ++ [x], h.states⟩ := by
  have htable := (hi.table _ h.srv_mem).1
  unfold message
  simp only
  rcases bulletHandle_issues h.srv htable.nonneg (arg (deliver h.msgBuffer body) 0)
      (shift (deliver h.msgBuffer body) 4) (body.length - 4) with
    ⟨hnone, e⟩ | ⟨x, hsome, hid, hroom, e⟩
  · left
    rw [hnone, e, Option.toList_none, List.append_nil]
  · right
    refine ⟨x, hid, hroom, ?_⟩
    rw [hsome, e, Option.toList_some]

lemma message_inv {h : BulletHistory} (hi : h.Inv) (hdone : Completed h.srv) (body : List UInt8) :
    (h.message body).Inv := by
  have hpos := (hi.table _ h.srv_mem).1.nonneg
  rcases message_cases hi body with e | ⟨x, hid, hroom, e⟩
  · rw [e]
    refine ⟨hi.count, hi.ids, hi.recorded, hi.chain_next (Advances.refl _), fun s hs => ?_⟩
    rcases List.mem_append.mp hs with hs | hs
    · exact hi.table s hs
    · obtain rfl := List.mem_singleton.mp hs
      exact hi.table _ h.srv_mem
  · rw [e]
    have hpush := h.srv.push_advances hpos x
    refine ⟨?_, ?_, fun y hy => ?_, hi.chain_next hpush, fun s hs => ?_⟩
    · simp [BulletServer.push, hi.count]
    · simp only [List.map_append, hi.ids, List.length_append, List.length_singleton,
        List.range_succ, List.map_singleton, hid, hi.count]
    · rcases List.mem_append.mp hy with hy | hy
      · have hlt := (hi.issued_iff y.id).mp ⟨y, hy, rfl⟩
        exact (hi.recorded y hy).keep (hpush.kept _ (by omega))
      · obtain rfl := List.mem_singleton.mp hy
        have hnew := h.srv.push_new hpos y (i := y.id.toNat) (by omega)
        constructor <;> rw [hnew]
    · simp only [List.length_append, List.length_singleton, Nat.cast_add, Nat.cast_one]
      rcases List.mem_append.mp hs with hs | hs
      · obtain ⟨hs, hle⟩ := hi.table s hs
        exact ⟨hs, by omega⟩
      · obtain rfl := List.mem_singleton.mp hs
        refine ⟨hdone.push_tableOk hpos hroom x, ?_⟩
        rw [← hi.count]
        exact le_rfl

/-- After a message every request is pending or completed. -/
lemma message_status {h : BulletHistory} (hi : h.Inv) (hdone : Completed h.srv) (body : List UInt8)
    (i : Nat) (hlt : i < (h.message body).srv.numRequests) :
    ((h.message body).srv.requests i).status = 0 ∨
      ((h.message body).srv.requests i).status = 2 := by
  have hpos := (hi.table _ h.srv_mem).1.nonneg
  rcases message_cases hi body with e | ⟨x, hid, _, e⟩
  · rw [e] at hlt ⊢
    exact .inr (hdone i hlt)
  · rw [e] at hlt ⊢
    have hlast : (i : Int) < h.srv.numRequests + 1 := hlt
    by_cases hold : (i : Int) < h.srv.numRequests
    · right
      rw [h.srv.push_old hpos x hold]
      exact hdone i hold
    · left
      rw [h.srv.push_new hpos x (by omega)]

lemma process_inv {h : BulletHistory} (hi : h.Inv) : h.process.Inv := by
  obtain ⟨htable, hle⟩ := hi.table _ h.srv_mem
  have hstates : h.process.states =
      h.past ++ (processPast h.srv.numRequests.toNat 0 h.srv ++ [processMigrations h.srv]) :=
    List.append_assoc ..
  refine ⟨?_, hi.ids, fun x hx => ?_, ?_, fun s hs => ?_⟩
  · exact (processFrom_numRequests _ _ _).trans hi.count
  · apply (hi.recorded x hx).keep
    unfold process processMigrations
    simp only [processFrom_requests]
    split <;> rfl
  · exact processPast_chain _ _ _ _ hi.chain
  · rw [hstates] at hs
    rcases List.mem_append.mp hs with hs | hs
    · exact hi.table s (List.mem_append_left _ hs)
    · obtain ⟨hs, e⟩ := processPast_table _ 0 htable s hs
      rw [e]
      exact ⟨hs, hle⟩

/-- The loop of `process_migrations` completes every pending request. -/
lemma process_completed {h : BulletHistory}
    (hstatus : ∀ i : Nat, i < h.srv.numRequests →
      (h.srv.requests i).status = 0 ∨ (h.srv.requests i).status = 2) :
    Completed h.process.srv := by
  intro i hi
  unfold process processMigrations at hi ⊢
  simp only [processFrom_numRequests, processFrom_requests] at hi ⊢
  rcases hstatus i hi with hpending | hdone
  · rw [if_pos ⟨by omega, hpending⟩]
  · rw [if_neg (fun h => by omega), hdone]

lemma step_inv (h : BulletHistory) (op : Option (List UInt8)) (hi : h.Inv ∧ Completed h.srv) :
    ∃ h', h.step op = some h' ∧ h'.Inv ∧ Completed h'.srv := by
  obtain ⟨hi, hdone⟩ := hi
  cases op with
  | none => exact ⟨_, rfl, process_inv hi, process_completed fun i hlt => .inr (hdone i hlt)⟩
  | some body =>
    exact ⟨_, rfl, process_inv (message_inv hi hdone body),
      process_completed (message_status hi hdone body)⟩

/-- The invariant holds in every reachable state, and after each iteration all requests are
completed. -/
lemma inv_of_run {srv : BulletServer} {currentTask : Int} {msgBuffer : Mem}
    {ops : List (Option (List UInt8))} {h : BulletHistory}
    (hrun : run (start srv currentTask msgBuffer) ops = some h) : h.Inv ∧ Completed h.srv :=
  Run.inv_of_run step_inv hrun (start_inv srv currentTask msgBuffer)

end BulletHistory

/-- An iteration of the bullet server is one of its history: with the letter it takes, or without
one. -/
theorem bulletServerBody_step {S : Set Nat} {s : IpcState} {free : List Nat}
    {box : Int → List Letter} (h : Rep S s free box) (t : Int) (hist : BulletHistory) :
    let r := bulletServerBody hist.srv s t hist.msgBuffer
    ∃ hist', hist.step ((box t).head?.map Letter.body) = some hist' ∧ r.world = hist'.srv ∧
      r.msgBuffer = hist'.msgBuffer := by
  unfold bulletServerBody
  cases hb : box t with
  | nil =>
    rw [serve_idle _ _ _ h hb]
    exact ⟨_, rfl, rfl, rfl⟩
  | cons a l =>
    obtain ⟨s₁, _, e⟩ := serve_letter bulletHandleClientMessage hist.srv hist.msgBuffer h hb
    rw [e]
    exact ⟨_, rfl, rfl, rfl⟩

/-! ## The table of the requests -/

/-- The answer to a status query: -1 if the id was not handed out, and else the status of the
request. -/
lemma query_answer {h : BulletHistory} (hi : h.Inv) (hdone : Completed h.srv) {msg : Mem}
    {size : Int} (hcmd : arg msg 0 = 2) (hsize : 8 ≤ size) (pid : Int) :
    ∃ v, bulletHandleClientMessage h.srv pid msg size = (some (intReply v), h.srv) ∧
      (v = -1 ↔ ∀ x ∈ h.issued, x.id ≠ arg msg 1) ∧
      ∀ x ∈ h.issued, x.id = arg msg 1 → v = (h.srv.requests x.id.toNat).status := by
  refine ⟨_, bulletHandle_query hcmd hsize h.srv pid, ?_⟩
  have hissued := hi.issued_iff (arg msg 1)
  split
  · next hid =>
    obtain ⟨x, hx, hxid⟩ := hissued.mpr hid
    refine ⟨?_, ?_⟩
    · have hstatus := hdone (arg msg 1).toNat (by omega)
      constructor
      · intro hv
        omega
      · intro hnone
        exact absurd hxid (hnone x hx)
    · rintro y _ hy
      rw [hy]
  · next hid =>
    have hnone : ∀ x ∈ h.issued, x.id ≠ arg msg 1 := fun x hx e => hid (hissued.mp ⟨x, hx, e⟩)
    exact ⟨iff_of_true rfl hnone, fun x hx e => absurd e (hnone x hx)⟩

/-- In every reachable state of the bullet server the ids handed out so far are 0, 1, 2, ..., at
most 16 of them, and a complete request gets the next one, or -1 when the table is full; a request
keeps what it was handed out for, and moves its status from 0 to 1 to 2; after each iteration all
are completed; and a status query is answered with -1 if the id was never handed out, and else with
the status of the request. -/
theorem migration_table (srv : BulletServer) (currentTask : Int) (msgBuffer : Mem)
    (ops : List (Option (List UInt8))) (h : BulletHistory)
    (hrun : BulletHistory.run (.start srv currentTask msgBuffer) ops = some h) :
    (h.issued.map Issued.id = (List.range h.issued.length).map Nat.cast ∧
      h.srv.numRequests = h.issued.length ∧
      ∀ s ∈ h.states, 0 ≤ s.numRequests ∧ s.numRequests ≤ maxMigrationRequests) ∧
    (∀ pid msg size, arg msg 0 = 1 → 16 ≤ size →
      (bulletHandleClientMessage h.srv pid msg size).1 =
        some (intReply (if h.issued.length < maxMigrationRequests then h.issued.length else -1))) ∧
    (∀ x ∈ h.issued, x.Recorded h.srv) ∧
    h.states.IsChain Advances ∧
    (∀ i : Nat, i < h.srv.numRequests → (h.srv.requests i).status = 2) ∧
    ∀ pid msg size, arg msg 0 = 2 → 8 ≤ size →
      ∃ v, bulletHandleClientMessage h.srv pid msg size = (some (intReply v), h.srv) ∧
        (v = -1 ↔ ∀ x ∈ h.issued, x.id ≠ arg msg 1) ∧
        ∀ x ∈ h.issued, x.id = arg msg 1 → v = (h.srv.requests x.id.toNat).status := by
  obtain ⟨hi, hdone⟩ := BulletHistory.inv_of_run hrun
  refine ⟨⟨hi.ids, hi.count, fun s hs => ?_⟩, fun pid msg size hcmd hsize => ?_, hi.recorded,
    hi.chain, hdone, fun pid msg size hcmd hsize => ?_⟩
  · exact ⟨(hi.table s hs).1.nonneg, (hi.table s hs).1.le⟩
  · rw [bulletHandle_request hcmd hsize, ← hi.count]
    rfl
  · exact query_answer hi hdone hcmd hsize pid

/-- The bytes of a complete migration request of task 1, and of a status query. -/
def migrateBody : List UInt8 := bytes (setWords (fun _ => 0) 0 [1, 1, 2, 4096, 0]) 20

def queryBody : List UInt8 := bytes (setWords (fun _ => 0) 0 [1, 2, 0]) 12

theorem migration_table_two :
    ∃ h, BulletHistory.run (.start startedBullet 3 fun _ => 0)
        [some migrateBody, some queryBody, none, some migrateBody] = some h ∧
      h.issued = [⟨0, 1, 2, 4096⟩, ⟨1, 1, 2, 4096⟩] ∧ h.states.IsChain Advances ∧
      ∀ i : Nat, i < h.srv.numRequests → (h.srv.requests i).status = 2 := by
  have hissued : (BulletHistory.run (.start startedBullet 3 fun _ => 0)
      [some migrateBody, some queryBody, none, some migrateBody]).map BulletHistory.issued =
      some [⟨0, 1, 2, 4096⟩, ⟨1, 1, 2, 4096⟩] := by decide +kernel
  obtain ⟨h, hrun, hissued⟩ := Option.map_eq_some_iff.mp hissued
  obtain ⟨_, _, _, hchain, hdone, _⟩ := migration_table startedBullet 3 _ _ h hrun
  exact ⟨h, hrun, hissued, hchain, hdone⟩

/-! ## Room for a request -/

/-- The number of requests that are pending or in progress. -/
def outstanding (srv : BulletServer) : Nat :=
  (List.range srv.numRequests.toNat).countP fun i =>
    (srv.requests i).status = 0 ∨ (srv.requests i).status = 1

/-- A request is accepted when none is outstanding, and refused only while all 16 are. -/
structure Drains (srv : BulletServer) : Prop where
  accepts : outstanding srv = 0 → ∀ sourcePid targetNode processData size,
    0 ≤ (handleMigrationRequest srv sourcePid targetNode processData size).1
  full : ∀ sourcePid targetNode processData size,
    (handleMigrationRequest srv sourcePid targetNode processData size).1 = -1 →
      outstanding srv = maxMigrationRequests

lemma outstanding_eq_zero {srv : BulletServer} (h : Completed srv) : outstanding srv = 0 := by
  unfold outstanding
  rw [List.countP_eq_zero]
  intro i hi
  have hdone := h i (by have := List.mem_range.mp hi; omega)
  simp [hdone]

/-- A table with 16 requests never has all of them outstanding. -/
lemma TableOk.outstanding_lt {srv : BulletServer} (h : TableOk srv)
    (hfull : srv.numRequests = maxMigrationRequests) : outstanding srv < maxMigrationRequests := by
  have hfirst : (srv.requests 0).status = 2 := by
    apply h.completed
    rw [hfull]
    decide
  have hlen : (List.range srv.numRequests.toNat).length = 16 := by
    rw [List.length_range, hfull]
    rfl
  have hne : outstanding srv ≠ (List.range srv.numRequests.toNat).length := by
    intro hall
    have hzero := List.countP_eq_length.mp hall 0 (by simp [hfull, maxMigrationRequests])
    simp [hfirst] at hzero
  have hle : outstanding srv ≤ (List.range srv.numRequests.toNat).length := List.countP_le_length
  unfold maxMigrationRequests
  omega

lemma drains_iff {srv : BulletServer} (h : TableOk srv) :
    Drains srv ↔ srv.numRequests < maxMigrationRequests := by
  constructor
  · intro hdrains
    by_contra hno
    have hlt := h.outstanding_lt (le_antisymm h.le (not_lt.mp hno))
    have hall := hdrains.full 0 0 0 0 (by rw [handleMigrationRequest_id]; exact if_neg hno)
    omega
  · intro hroom
    have hid : srv.nextId = srv.numRequests := if_pos hroom
    have hpos := h.nonneg
    refine ⟨fun _ _ _ _ _ => ?_, fun _ _ _ _ hrefused => ?_⟩
    · rw [handleMigrationRequest_id, hid]
      exact hpos
    · rw [handleMigrationRequest_id, hid] at hrefused
      omega

/-- In every reachable state of the bullet server the queue drains if and only if fewer than 16
requests were ever handed out; after each iteration none is outstanding in any case. So the queue
drains throughout a run exactly if it hands out fewer than 16. -/
theorem queue_drains (srv : BulletServer) (currentTask : Int) (msgBuffer : Mem)
    (ops : List (Option (List UInt8))) (h : BulletHistory)
    (hrun : BulletHistory.run (.start srv currentTask msgBuffer) ops = some h) :
    (∀ s ∈ h.states, Drains s ↔ s.numRequests < maxMigrationRequests) ∧
      outstanding h.srv = 0 ∧
      ((∀ s ∈ h.states, Drains s) ↔ h.issued.length < maxMigrationRequests) := by
  obtain ⟨hi, hdone⟩ := BulletHistory.inv_of_run hrun
  refine ⟨fun s hs => drains_iff (hi.table s hs).1, outstanding_eq_zero hdone, ?_⟩
  constructor
  · intro hall
    rw [← hi.count]
    exact (drains_iff (hi.table _ h.srv_mem).1).mp (hall _ h.srv_mem)
  · intro hroom s hs
    obtain ⟨htable, hle⟩ := hi.table s hs
    exact (drains_iff htable).mpr (hle.trans_lt hroom)

/-- After one request the queue drains. -/
theorem queue_drains_one :
    ∃ h, BulletHistory.run (.start startedBullet 3 fun _ => 0) [some migrateBody] = some h ∧
      ∀ s ∈ h.states, Drains s := by
  have hissued : (BulletHistory.run (.start startedBullet 3 fun _ => 0) [some migrateBody]).map
      BulletHistory.issued = some [⟨0, 1, 2, 4096⟩] := by decide +kernel
  obtain ⟨h, hrun, hissued⟩ := Option.map_eq_some_iff.mp hissued
  refine ⟨h, hrun, (queue_drains startedBullet 3 _ _ h hrun).2.2.mpr ?_⟩
  rw [hissued]
  decide

/-- After 16 requests, all of them completed, the next one is refused. -/
theorem queue_drains_fails :
    ∃ h, BulletHistory.run (.start startedBullet 3 fun _ => 0)
        (List.replicate 16 (some migrateBody)) = some h ∧
      outstanding h.srv = 0 ∧ (handleMigrationRequest h.srv 1 2 (4 + 12) 4096).1 = -1 ∧
      ¬Drains h.srv := by
  have hrefused : (BulletHistory.run (.start startedBullet 3 fun _ => 0)
      (List.replicate 16 (some migrateBody))).map (fun h =>
        (outstanding h.srv, (handleMigrationRequest h.srv 1 2 (4 + 12) 4096).1)) =
      some (0, -1) := by decide +kernel
  obtain ⟨h, hrun, hrefused⟩ := Option.map_eq_some_iff.mp hrefused
  obtain ⟨hnone, hid⟩ := Prod.mk.inj hrefused
  refine ⟨h, hrun, hnone, hid, fun hdrains => ?_⟩
  have hpos := hdrains.accepts hnone 1 2 (4 + 12) 4096
  rw [hid] at hpos
  exact absurd hpos (by decide)

end Hydra.Server
