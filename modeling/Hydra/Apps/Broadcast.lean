import Hydra.Apps.ImageSender
import Hydra.Ipc.Outbox
import Hydra.Ipc.Status
import Hydra.LibC.Scoped
import Hydra.LibNet.Address
import Hydra.Raytracer.Demo

/-!
# The UDP broadcast

`udp_image_broadcast_demo` of `apps/image_sender.c` makes a test pattern in a buffer from `malloc`,
and sends a header and the pattern in chunks of 64 bytes. Like `send_http_response` it counts what
`sendto` returns as bytes, but that is 0. So the loop ends with its first chunk, whatever has become
of it, and the demo reports that it has sent as many bytes as the header has
(`broadcast_first_chunk`).
-/

namespace Hydra.Apps
open ByteMem Mailbox FirstFit Hydra.Kernel Hydra.Ipc Hydra.LibC Hydra.LibNet Hydra.Mm
open Hydra.Raytracer

/-! ## The code -/

/-- What the demos work on. -/
structure World where
  heap : Heap
  sockets : Table
  ipc : IpcState

/-- `test_width`, `test_height` and `test_size`. -/
def testWidth : Nat := 16
def testHeight : Nat := 12
def testSize : Nat := testWidth * testHeight * 3

/-- One round of the inner loop of the test pattern, on `pixel_index` and the memory. -/
def patternPixel (testImage y : Nat) (s : Nat × Mem) (x : Nat) : Nat × Mem :=
  let (pixelIndex, m) := s
  let r := UInt8.ofNat (x * 255 / testWidth)
  let g := UInt8.ofNat (y * 255 / testHeight)
  let b := UInt8.ofNat ((x + y) * 255 / (testWidth + testHeight))
  let m := Function.update m (testImage + pixelIndex) r
  let m := Function.update m (testImage + (pixelIndex + 1)) g
  let m := Function.update m (testImage + (pixelIndex + 2)) b
  (pixelIndex + 3, m)

/-- One round of the outer loop. -/
def patternRow (testImage : Nat) (s : Nat × Mem) (y : Nat) : Nat × Mem :=
  (List.range testWidth).foldl (patternPixel testImage y) s

/-- Generate simple test pattern. -/
def testPattern (testImage : Nat) (m : Mem) : Mem :=
  ((List.range testHeight).foldl (patternRow testImage) (0, m)).2

/-- The loop that sends the pattern in chunks: the value of `sent` at its end. -/
def broadcastChunks (sockets : Table) (currentTask udpSock : Int) (testImage : Mem) (sent : Int)
    (s : IpcState) : Int × IpcState :=
  if sent < testSize then
    let currentChunk : Int := if 64 < testSize - sent then 64 else testSize - sent
    let result := sendto sockets s currentTask udpSock (shift testImage sent.toNat)
      currentChunk.toNat
    if result.1 ≤ 0 then (sent, result.2)
    else broadcastChunks sockets currentTask udpSock testImage (sent + result.1) result.2
  else (sent, s)
termination_by (testSize - sent).toNat
decreasing_by
  show (testSize - (sent + result.1)).toNat < (testSize - sent).toNat
  omega

/-- C `udp_image_broadcast_demo`: the number of bytes that it reports, if it comes that far. The
destination is not used by `sendto`. -/
def udpImageBroadcastDemo (mem : Memory) (currentTask : Int) (w : World) :
    Option (Option Int × World) := do
  let (udpSock, sockets) := socket w.sockets afInet sockDgram 0
  if udpSock < 0 then some (none, { w with sockets := sockets })
  else
    let (sent, heap) ← withBuffer (UInt64.ofNat testSize) w.heap fun testImage h =>
      let h := { h with mem := testPattern testImage h.mem }
      let (headerLen, header) := sprintf mem ppmFormat (ppmArgs testWidth testHeight)
      let s := (sendto sockets w.ipc currentTask udpSock (paste header fun _ => 0) headerLen).2
      let (sent, s) := broadcastChunks sockets currentTask udpSock (shift h.mem testImage) 0 s
      some ((sent + headerLen, s), h)
    let sockets := (closeUserSocket sockets udpSock).2
    match sent with
    | none => some (none, { w with heap := heap, sockets := sockets })
    | some (total, s) => some (some total, { heap := heap, sockets := sockets, ipc := s })

/-! ## The pattern -/

/-- The bytes of a pixel. -/
def patternBytes (y x : Nat) : List UInt8 :=
  [UInt8.ofNat (x * 255 / testWidth), UInt8.ofNat (y * 255 / testHeight),
    UInt8.ofNat ((x + y) * 255 / (testWidth + testHeight))]

/-- The pattern, row by row. -/
def pattern : List UInt8 :=
  (List.range testHeight).flatMap fun y => (List.range testWidth).flatMap (patternBytes y)

lemma pattern_length : pattern.length = testSize := by
  decide +kernel

/-- A loop whose rounds store one piece after the other stores all of them. -/
lemma storePieces {f : Nat × Mem → Nat → Nat × Mem} {piece : Nat → List UInt8} {a : Nat}
    (hf : ∀ i p m, f (p, m) i = (p + (piece i).length, storeBytes (a + p) (piece i) m))
    (l : List Nat) (p : Nat) (m : Mem) :
    l.foldl f (p, m) = (p + (l.flatMap piece).length, storeBytes (a + p) (l.flatMap piece) m) := by
  induction l generalizing p m with
  | nil => simp [storeBytes_nil]
  | cons i l ih =>
    rw [List.foldl_cons, hf, ih, List.flatMap_cons, List.length_append, ← storeBytes_append,
      Nat.add_assoc, Nat.add_assoc]

lemma patternPixel_eq (testImage y x p : Nat) (m : Mem) :
    patternPixel testImage y (p, m) x =
      (p + (patternBytes y x).length, storeBytes (testImage + p) (patternBytes y x) m) := by
  have hsplit : patternBytes y x = [UInt8.ofNat (x * 255 / testWidth)] ++
      ([UInt8.ofNat (y * 255 / testHeight)] ++
        [UInt8.ofNat ((x + y) * 255 / (testWidth + testHeight))]) := rfl
  unfold patternPixel
  rw [hsplit, ← storeBytes_append, ← storeBytes_append]
  simp only [update_eq_storeBytes, List.length_append, List.length_singleton, Nat.add_assoc]

lemma testPattern_eq (testImage : Nat) (m : Mem) :
    testPattern testImage m = storeBytes testImage pattern m := by
  unfold testPattern pattern
  rw [storePieces fun y p m => storePieces (patternPixel_eq testImage y) (List.range testWidth) p m]
  rfl

/-! ## What is sent -/

/-- The header of the pattern. -/
def testHeader : List UInt8 := ppmHeader testWidth testHeight

/-- What the demo sends as task `t`, whatever becomes of it. -/
def broadcast (s : IpcState) (t : Int) (m : Mem) : IpcState :=
  let s := (sendMessage s t LibNet.netServerPid (some (paste testHeader fun _ => 0))
    testHeader.length).2
  (sendMessage s t LibNet.netServerPid (some m) 64).2

section Sockets

variable {sockets : Table} {sockfd : Int} (hperm : PayloadCall.sendto.Permitted sockets sockfd)
include hperm

/-- The loop ends with its first chunk. -/
lemma broadcastChunks_eq (t : Int) (m : Mem) (s : IpcState) :
    broadcastChunks sockets t sockfd m 0 s =
      (0, (sendMessage s t LibNet.netServerPid (some m) 64).2) := by
  have hsend := PayloadCall.exec_permitted hperm s t m (show 64 ≤ 256 by decide)
  rw [PayloadCall.exec] at hsend
  have hstop := sendMessage_nonpos s t LibNet.netServerPid (some m) 64
  have hchunk : (if 64 < (testSize : Int) - 0 then 64 else (testSize : Int) - 0) = 64 := by decide
  have hlen : (64 : Int).toNat = 64 := rfl
  rw [broadcastChunks, if_pos (by decide)]
  simp only [hchunk, hlen, Int.toNat_zero, shift_zero, hsend]
  exact if_pos hstop

end Sockets

/-- The descriptor that the demo gets can be used, and is closed again. -/
lemma udp_socket {sockets : Table} (h : ∀ i, (sockets i).state = .closed) :
    ∃ table, socket sockets afInet sockDgram 0 = (1, table) ∧
      PayloadCall.sendto.Permitted table 1 ∧ ∀ i, (table i).state = .closed := by
  have hsocket := socket_closed h afInet sockDgram 0
  rw [if_pos ⟨rfl, .inr rfl⟩] at hsocket
  refine ⟨_, hsocket, ⟨0, rfl, ?_⟩, fun i => ?_⟩
  · simp only [Function.update_self]
  · have hcreated := created_closed h afInet sockDgram 0 i
    rwa [hsocket] at hcreated

section Demo

variable {r : Region} {bs : List Block} {w : World}

/-- The demo finds no room for the pattern, or sends the header and the first chunk. -/
lemma udpImageBroadcastDemo_cases (wf : WF r w.heap bs)
    (hclosed : ∀ i, (w.sockets i).state = .closed) (mem : Memory) (t : Int) :
    ∃ report w', udpImageBroadcastDemo mem t w = some (report, w') ∧ Kept r bs ∅ w.heap w'.heap ∧
      (∀ i, (w'.sockets i).state = .closed) ∧
      ((¬Satisfiable w.heap testSize ∧ report = none ∧ w'.ipc = w.ipc) ∨
        Satisfiable w.heap testSize ∧ report = some (testHeader.length : Int) ∧
          ∃ m, bytes m testSize = pattern ∧ w'.ipc = broadcast w.ipc t m) := by
  obtain ⟨table, hsocket, hperm, hclosed'⟩ := udp_socket hclosed
  have hclose := call_closed hclosed' (.closeUserSocket 1)
  have hprint := sprintf_ppm mem (show testWidth < 2 ^ 31 by decide)
    (show testHeight < 2 ^ 31 by decide)
  unfold udpImageBroadcastDemo
  rw [hsocket]
  simp only [if_neg (show ¬(1 : Int) < 0 by decide), hprint, broadcastChunks_eq hperm]
  rcases withBuffer_cases wf (UInt64.ofNat testSize) (by decide) _ with
    ⟨hno, e⟩ | ⟨testImage, bs₁, h₁, hs, o, _, hrun⟩
  · rw [e]
    exact ⟨none, _, rfl, .refl wf ∅, hclose, .inl ⟨hno, rfl, rfl⟩⟩
  · have hframe : AgreeOff testImage (testImage + testSize) h₁.mem
        (testPattern testImage h₁.mem) := by
      rw [testPattern_eq, ← pattern_length]
      exact storeBytes_frame testImage pattern h₁.mem
    obtain ⟨h₃, e, k⟩ := hrun ∅ _ _ rfl (o.write hframe)
    rw [e]
    refine ⟨_, _, rfl, k, hclose, .inr ⟨hs, ?_, shift (testPattern testImage h₁.mem) testImage, ?_,
      ?_⟩⟩
    · exact congrArg some (zero_add _)
    · rw [testPattern_eq, ← pattern_length]
      exact bytes_storeBytes testImage pattern h₁.mem
    · have hsend := PayloadCall.exec_permitted hperm w.ipc t (paste testHeader fun _ => 0)
        (show testHeader.length ≤ 256 by decide +kernel)
      unfold broadcast
      rw [← hsend]
      rfl

end Demo

/-- The messages of the demo. -/
def broadcastMessages : List (Int × List UInt8) :=
  [(LibNet.netServerPid, testHeader), (LibNet.netServerPid, pattern.take 64)]

lemma broadcast_outgoing {S : Set Nat} {box₀ : Int → List Letter} {t : Int} {o : Outbox}
    {s : IpcState} (h : Outgoing S box₀ t o s) {m : Mem} (hm : bytes m testSize = pattern) :
    Outgoing S box₀ t (broadcastMessages.foldl Outbox.send o) (broadcast s t m) := by
  have hheader : bytes (paste testHeader fun _ => 0) testHeader.length = testHeader := by
    rw [bytes_paste le_rfl, List.take_length]
  have hchunk : bytes m 64 = pattern.take 64 := by
    rw [← hm, bytes_take]
    rfl
  have hok : Sendable LibNet.netServerPid (some (paste testHeader fun _ => 0)) testHeader.length :=
    ⟨by decide, by decide +kernel, rfl⟩
  have hok' : Sendable LibNet.netServerPid (some m) 64 := ⟨by decide, by decide, rfl⟩
  obtain ⟨h₁, _⟩ := h.send hok
  obtain ⟨h₂, _⟩ := h₁.send hok'
  rw [Int.toNat_natCast, hheader] at h₂
  rw [show (64 : Int).toNat = 64 from rfl, hchunk] at h₂
  exact h₂

/-- In every reachable state of the heap, the sockets and the message system, the demo comes to its
end and leaves the heap as it was. If it has room for the pattern, it reports the length of the
header as the number of bytes sent; what it has sent, to a task that is not the network server, is
the header and the first chunk, as far as there are free slots. -/
theorem broadcast_first_chunk (r : Region) (m : Mem) (ops : List HeapOp)
    (hok : Mm.History.Contract r m ops) (hist : Mm.History)
    (hrun : Mm.History.run r m ops = some hist) (calls : List SocketOp) (table : SocketHistory)
    (hcalls : SocketHistory.run calls = some table) (n : Nat) (s₀ : IpcState) (h₀ : Initial n s₀)
    (messages : List IpcOp) (s : Ipc.History) (hmessages : Ipc.History.run s₀ messages = some s)
    (mem : Memory) (t : Int) :
    ∃ report w', udpImageBroadcastDemo mem t ⟨hist.heap, table.sockets, s.ipc⟩ = some (report, w') ∧
      Undone r hist w'.heap ∧ (∀ i, (w'.sockets i).state = .closed) ∧
      (¬Satisfiable hist.heap testSize → report = none ∧ w'.ipc = s.ipc) ∧
      (Satisfiable hist.heap testSize → report = some (testHeader.length : Int) ∧
        ∃ free : Nat, countFreeMessages s.ipc = some (free : Int) ∧
        ∀ pid, ∃ letters, w'.ipc.pending pid = s.ipc.pending pid ++ letters ∧
          letters.map (fun a => (a.sender, a.body)) =
            if pid = LibNet.netServerPid then
              ([testHeader, pattern.take 64].take free).map (t, ·)
            else []) := by
  obtain ⟨bs, wf, hlive⟩ := Mm.History.inv_of_run hok hrun
  obtain ⟨slots, s', rfl, hpool, hrun', free, box, hrep, _⟩ := Ipc.History.run_inv h₀ messages
  obtain rfl := Option.some.inj (hrun'.symm.trans hmessages)
  have hclosed := (SocketHistory.run_closed hcalls).closed
  obtain ⟨report, w', hdemo, k, hclosed', hcases⟩ :=
    udpImageBroadcastDemo_cases (w := ⟨hist.heap, table.sockets, s'.ipc⟩) wf hclosed mem t
  refine ⟨report, w', hdemo, k.undone wf hlive, hclosed', fun hno => ?_, fun hs => ?_⟩
  · exact (hcases.resolve_right fun h => hno h.1).2
  · obtain ⟨_, hreport, pat, hpat, hipc⟩ := hcases.resolve_left fun h => h.1 hs
    refine ⟨hreport, free.length, countFreeMessages_eq hrep hpool.nodup h₀.le, fun pid => ?_⟩
    have hout := broadcast_outgoing (Outgoing.start hrep t) hpat
    obtain ⟨letters, hletters, hbodies⟩ := hout.pending pid
    rw [hipc, hrep.pending_eq]
    refine ⟨letters, hletters, hbodies.trans ?_⟩
    rw [Outbox.sendAll]
    unfold Outbox.sentTo broadcastMessages
    rcases eq_or_ne pid LibNet.netServerPid with rfl | hne
    · rw [if_pos rfl]
      match free.length with
      | 0 => rfl
      | 1 => rfl
      | k + 2 => simp
    · rw [if_neg hne]
      match free.length with
      | 0 => rfl
      | 1 => simp [hne.symm]
      | k + 2 => simp [hne.symm]

/-- The boot flow sends two messages to task 2. -/
theorem broadcast_first_chunk_two :
    ∃ hist w', Mm.History.run demoRegion (fun _ => 0) [] = some hist ∧
      udpImageBroadcastDemo ⟨fun _ => [], fun _ => 0⟩ 0 ⟨hist.heap, bootTable, poolState⟩ =
        some (some (testHeader.length : Int), w') ∧ Undone demoRegion hist w'.heap ∧
      (w'.ipc.pending 2).map (fun a => (a.sender, a.body)) =
        [(0, testHeader), (0, pattern.take 64)] := by
  obtain ⟨report, w', hdemo, hundone, _, _, hsent⟩ :=
    broadcast_first_chunk demoRegion (fun _ => 0) [] (by decide) _ rfl [] .start rfl 2 poolState poolState_initial [] ⟨poolState, []⟩ rfl
    ⟨fun _ => [], fun _ => 0⟩ 0
  have w := mmInit_wf demoRegion (h := bootHeap fun _ => 0) rfl
  have hs : Satisfiable (Mm.History.init demoRegion fun _ => 0).heap testSize :=
    ⟨_, w.blocks, _, List.mem_singleton_self _, rfl, by decide⟩
  obtain ⟨rfl, free, hfree, hletters⟩ := hsent hs
  obtain ⟨letters, hpending, hbodies⟩ := hletters 2
  have htwo : countFreeMessages poolState = some 2 := by decide +kernel
  have hempty : poolState.pending 2 = [] := by decide +kernel
  obtain rfl : free = 2 := by
    have hcount := Option.some.inj (hfree.symm.trans htwo)
    omega
  rw [hempty, List.nil_append] at hpending
  exact ⟨_, w', rfl, hdemo, hundone, by rw [hpending]; exact hbodies⟩

end Hydra.Apps
