import Hydra.Apps.Broadcast

/-!
# The demos and the tests of the kernel

What `kmain` runs at boot and on a key: `phase5_test` of `apps/library_test.c`, `phase6_unit_tests`
of `apps/phase6_test.c` and `phase6_demo` of `apps/image_sender.c`. All that matters of them here is
what they leave behind: nothing in the heap and in the socket table, and of the message system only
what `udp_image_broadcast_demo` sends. No test message is ever sent, and the image server stops when
it cannot bind its socket.

What they print, and what they compute on the stack for that purpose, is left out.
-/

namespace Hydra.Apps
open ByteMem FirstFit Hydra.Kernel Hydra.Ipc Hydra.LibHydra Hydra.LibC Hydra.LibNet Hydra.Mm
open Hydra.Raytracer

/-! ## The code -/

/-- The size of the picture of `test_raytracer_standalone`. -/
def testImageSize : Size := ⟨8, 6, by decide, by decide⟩

/-- What the demos are given from outside: the strings in memory, the address of the content type,
the time that the image server has for its clients, and what becomes of the loops that render. -/
structure Setting where
  mem : Memory
  contentType : UInt64
  fuel : Nat
  renderer : Renderer imageSize
  testRenderer : Renderer testImageSize

/-- The loop of the image server, which serves three connections. -/
def acceptLoop (g : Setting) (currentTask serverSock : Int) (ppmBuffer : Mem) (ppmSize : Int) :
    Nat → Nat → Table → IpcState → Option (Table × IpcState)
  | 0, _, _, _ => none
  | fuel + 1, connectionCount, sockets, s =>
    if connectionCount < 3 then
      let (clientSock, sockets) := accept sockets serverSock
      if clientSock < 0 then
        acceptLoop g currentTask serverSock ppmBuffer ppmSize fuel connectionCount sockets s
      else
        -- the request is not parsed
        let s := (LibNet.recv sockets s currentTask clientSock (fun _ => 0) 511).state
        let s := (sendHttpResponse g.mem sockets s currentTask clientSock g.contentType ppmBuffer
          ppmSize).2
        let sockets := (closeUserSocket sockets clientSock).2
        acceptLoop g currentTask serverSock ppmBuffer ppmSize fuel (connectionCount + 1) sockets s
    else some (sockets, s)

/-- `image_server_demo` behind `listen`. -/
def serveImage (g : Setting) (currentTask serverSock : Int) (w : World) : Option World := do
  let closed := (closeUserSocket w.sockets serverSock).2
  let (imageBuffer, heap) ← malloc w.heap (UInt64.ofNat imageSize.bytes)
  if imageBuffer = 0 then some { w with heap := heap, sockets := closed }
  else
    let m ← g.renderer.draw heap.mem imageBuffer
    let (ppmBuffer, heap) ← malloc { heap with mem := m } (UInt64.ofNat (imageSize.bytes + 256))
    if ppmBuffer = 0 then
      let heap ← free heap imageBuffer
      some { w with heap := heap, sockets := closed }
    else
      let (ppmSize, m) := convertToPpm g.mem heap.mem imageBuffer ppmBuffer
      let heap ← free { heap with mem := m } imageBuffer
      let (sockets, s) ← acceptLoop g currentTask serverSock (shift heap.mem ppmBuffer) ppmSize
        g.fuel 0 w.sockets w.ipc
      let heap ← free heap ppmBuffer
      some ⟨heap, (closeUserSocket sockets serverSock).2, s⟩

/-- C `image_server_demo`. -/
def imageServerDemo (g : Setting) (currentTask : Int) (w : World) : Option World :=
  let (serverSock, sockets) := socket w.sockets afInet sockStream 0
  if serverSock < 0 then some { w with sockets := sockets }
  else
    let (bound, sockets) := LibNet.bind sockets serverSock ⟨2, htons 8080, 0⟩
    if bound < 0 then some { w with sockets := (closeUserSocket sockets serverSock).2 }
    else
      let (listening, sockets) := listen sockets serverSock 5
      if listening < 0 then some { w with sockets := (closeUserSocket sockets serverSock).2 }
      else serveImage g currentTask serverSock { w with sockets := sockets }

/-- C `image_sender_demo`. -/
def imageSenderDemo (g : Setting) (currentTask : Int) (w : World) : Option World := do
  let w ← imageServerDemo g currentTask w
  let (_, w) ← udpImageBroadcastDemo g.mem currentTask w
  some w

/-- C `phase6_demo`. -/
def phase6Demo (g : Setting) (currentTask : Int) (w : World) : Option World := do
  let (_, heap) ← raytracerDemo g.mem g.renderer w.heap
  imageSenderDemo g currentTask { w with heap := heap }

/-- What `test_libc` does to the heap. -/
def testLibc (h : Heap) : Option Heap := do
  let (_, h) ← withBuffer 100 h fun buffer h =>
    some ((), { h with mem := storeBytes buffer (ascii "Dynamic memory test" ++ [0]) h.mem })
  some h

/-- `MSG_TYPE_DATA`. -/
def msgTypeData : Int := 1

/-- C `test_ipc`; `stack` is what the memory of the frames holds before. -/
def testIpc (currentTask : Int) (stack : Mem) (s : IpcState) : IpcState :=
  let myPid := syscallGetPid currentTask
  let testMsg := ascii "Hello IPC" ++ [0]
  let result := ipcSendMessage s currentTask stack myPid msgTypeData (paste testMsg fun _ => 0)
    testMsg.length
  if 0 ≤ result.1 then
    (ipcReceiveMessage result.2 currentTask stack myPid (fun _ => 0) 64).state
  else result.2

/-- Test socket creation. -/
def testStream (sockets : Table) : Table :=
  let (sock, sockets) := socket sockets afInet sockStream 0
  if 0 ≤ sock then
    let (bound, sockets) := LibNet.bind sockets sock ⟨2, htons 8080, inetAddr (ascii "127.0.0.1")⟩
    let sockets := if bound = 0 then (listen sockets sock 5).2 else sockets
    (closeUserSocket sockets sock).2
  else sockets

/-- Test UDP socket. -/
def testDgram (sockets : Table) : Table :=
  let (udpSock, sockets) := socket sockets afInet sockDgram 0
  if 0 ≤ udpSock then (closeUserSocket sockets udpSock).2 else sockets

/-- C `test_networking`. -/
def testNetworking (sockets : Table) : Table := testDgram (testStream sockets)

/-- C `phase5_test`. -/
def phase5Test (currentTask : Int) (stack : Mem) (w : World) : Option World := do
  let heap ← testLibc w.heap
  some ⟨heap, testNetworking w.sockets, testIpc currentTask stack w.ipc⟩

/-- What `test_raytracer_standalone` does to the heap. -/
def testRaytracerStandalone (g : Setting) (h : Heap) : Option Heap := do
  let (_, h) ← withBuffer (UInt64.ofNat (8 * 6 * 3)) h fun testBuffer h => do
    let m ← g.testRenderer.draw h.mem testBuffer
    some ((), { h with mem := m })
  some h

/-- C `phase6_unit_tests`; the other test works on the stack only. -/
def phase6UnitTests (g : Setting) (w : World) : Option World := do
  let heap ← testRaytracerStandalone g w.heap
  some { w with heap := heap }

/-! ## What they leave behind -/

/-- The loops that render come to their end. -/
structure Setting.Total (g : Setting) : Prop where
  draws : ∀ m imageBuffer, g.renderer.draw m imageBuffer ≠ none
  testDraws : ∀ m testBuffer, g.testRenderer.draw m testBuffer ≠ none

/-- The heap is as it was, and no socket is in use. -/
structure Clean (r : Region) (bs : List Block) (w w' : World) : Prop where
  heap : Kept r bs ∅ w.heap w'.heap
  closed : ∀ i, (w'.sockets i).state = .closed

section Runs

variable {r : Region} {bs : List Block} {w : World} {g : Setting}
  (wf : WF r w.heap bs) (hclosed : ∀ i, (w.sockets i).state = .closed)

include hclosed in
/-- The socket of the image server is not bound. -/
lemma imageServerDemo_closed (g : Setting) (t : Int) :
    ∃ table, imageServerDemo g t w = some { w with sockets := table } ∧
      ∀ i, (table i).state = .closed := by
  have hsocket := socket_closed hclosed afInet sockStream 0
  rw [if_pos ⟨rfl, .inl rfl⟩] at hsocket
  have hcreated := created_closed hclosed afInet sockStream 0
  rw [hsocket] at hcreated
  unfold imageServerDemo
  rw [hsocket]
  simp only [if_neg (show ¬(1 : Int) < 0 by decide), bind_closed hcreated,
    if_pos (show (-1 : Int) < 0 by decide)]
  exact ⟨_, rfl, call_closed hcreated (.closeUserSocket 1)⟩

include wf hclosed in
/-- The demo comes to its end, and has broadcast if there was room for the pattern. -/
lemma phase6Demo_cases (hg : g.Total) (t : Int) :
    ∃ w', phase6Demo g t w = some w' ∧ Clean r bs w w' ∧
      ((¬Satisfiable w.heap testSize ∧ w'.ipc = w.ipc) ∨
        Satisfiable w.heap testSize ∧ ∃ m, bytes m testSize = pattern ∧
          w'.ipc = broadcast w.ipc t m) := by
  have hdemo : ∃ file h', raytracerDemo g.mem g.renderer w.heap = some (file, h') ∧
      Kept r bs ∅ w.heap h' := by
    rcases raytracerDemo_cases wf g.mem g.renderer with
      ⟨_, e⟩ | ⟨imageBuffer, h₁, _, _, ⟨hdraw, _⟩ | ⟨_, file, h', _, e, k, _⟩⟩
    · exact ⟨none, w.heap, e, .refl wf ∅⟩
    · exact absurd hdraw (hg.draws h₁.mem imageBuffer)
    · exact ⟨file, h', e, k⟩
  obtain ⟨file, h₁, e₁, k₁⟩ := hdemo
  obtain ⟨table, e₂, hclosed₂⟩ := imageServerDemo_closed (w := { w with heap := h₁ }) hclosed g t
  obtain ⟨report, w', e₃, k₃, hclosed₃, hcases⟩ := udpImageBroadcastDemo_cases
    (w := { w with heap := h₁, sockets := table }) k₁.wf hclosed₂ g.mem t
  have hroom : Satisfiable h₁ testSize ↔ Satisfiable w.heap testSize := by
    rw [satisfiable_iff k₁.wf, satisfiable_iff wf]
  refine ⟨w', ?_, ⟨k₁.trans k₃, hclosed₃⟩, ?_⟩
  · unfold phase6Demo imageSenderDemo
    rw [e₁]
    simp only [Option.bind_eq_bind, Option.bind_some]
    rw [e₂]
    simp only [Option.bind_some, e₃]
  · rw [← hroom]
    rcases hcases with ⟨hno, _, hipc⟩ | ⟨hs, _, hsent⟩
    · exact .inl ⟨hno, hipc⟩
    · exact .inr ⟨hs, hsent⟩

include wf in
lemma testLibc_kept : ∃ h', testLibc w.heap = some h' ∧ Kept r bs ∅ w.heap h' := by
  unfold testLibc
  rcases withBuffer_cases wf 100 (by decide) _ with ⟨_, e⟩ | ⟨buffer, bs₁, h₁, _, o, _, hrun⟩
  · rw [e]
    exact ⟨_, rfl, .refl wf ∅⟩
  · have hframe := storeBytes_frame buffer (ascii "Dynamic memory test" ++ [0]) h₁.mem
    have hlen : (ascii "Dynamic memory test" ++ [0]).length ≤ 100 := by decide +kernel
    obtain ⟨h₃, e, k⟩ := hrun ∅ () _ rfl (o.write (hframe.mono le_rfl (Nat.add_le_add_left hlen _)))
    rw [e]
    exact ⟨h₃, rfl, k⟩

/-- The test message is too long for the kernel. -/
lemma testIpc_eq (t : Int) (stack : Mem) (s : IpcState) : testIpc t stack s = s := by
  unfold testIpc
  simp only [ipcSendMessage_fails]
  exact if_neg (by decide)

include hclosed in
lemma testNetworking_closed (i : Nat) : (testNetworking w.sockets i).state = .closed := by
  have hstream : ∀ i, (testStream w.sockets i).state = .closed := by
    intro i
    have hcreated := created_closed hclosed afInet sockStream 0
    unfold testStream
    simp only [bind_closed hcreated, if_neg (show ¬(-1 : Int) = 0 by decide)]
    split
    · exact call_closed hcreated (.closeUserSocket _) i
    · exact hcreated i
  have hcreated := created_closed hstream afInet sockDgram 0
  unfold testNetworking testDgram
  simp only
  split
  · exact call_closed hcreated (.closeUserSocket _) i
  · exact hcreated i

include wf hclosed in
lemma phase5Test_clean (t : Int) (stack : Mem) :
    ∃ w', phase5Test t stack w = some w' ∧ Clean r bs w w' ∧ w'.ipc = w.ipc := by
  obtain ⟨h', e, k⟩ := testLibc_kept wf
  refine ⟨⟨h', testNetworking w.sockets, testIpc t stack w.ipc⟩, ?_, ⟨k,
    testNetworking_closed hclosed⟩, testIpc_eq t stack w.ipc⟩
  unfold phase5Test
  rw [e]
  rfl

include wf hclosed in
lemma phase6UnitTests_clean (hg : g.Total) :
    ∃ w', phase6UnitTests g w = some w' ∧ Clean r bs w w' ∧ w'.ipc = w.ipc := by
  unfold phase6UnitTests testRaytracerStandalone
  rcases withBuffer_cases wf (UInt64.ofNat (8 * 6 * 3)) (by decide) _ with
    ⟨_, e⟩ | ⟨testBuffer, bs₁, h₁, _, o, _, hrun⟩
  · rw [e]
    exact ⟨_, rfl, ⟨.refl wf ∅, hclosed⟩, rfl⟩
  · obtain ⟨m, hdraw⟩ := Option.ne_none_iff_exists'.mp (hg.testDraws h₁.mem testBuffer)
    have hframe := g.testRenderer.frame _ _ _ hdraw
    obtain ⟨h₃, e, k⟩ := hrun ∅ () { h₁ with mem := m } (by simp [hdraw]) (o.write hframe)
    rw [e]
    exact ⟨_, rfl, ⟨k, hclosed⟩, rfl⟩

end Runs

end Hydra.Apps
