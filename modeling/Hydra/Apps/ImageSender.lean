import Hydra.LibC.Stdio
import Hydra.LibNet.Payload

/-!
# The image server

`send_http_response` of `apps/image_sender.c` formats a header, sends it, and sends the data in
chunks of 512 bytes. It counts what `send` returns as the number of bytes sent. But `send` returns 0
when the message was sent, and the kernel takes no message of more than 256 bytes. So the loop stops
after its first chunk, and only a response without data is sent whole (`response_whole`).

What `printf` shows meanwhile is left out.
-/

namespace Hydra.Apps
open ByteMem Mailbox Numeral Hydra.Kernel Hydra.Ipc Hydra.LibHydra Hydra.LibC Hydra.LibNet

/-! ## The code -/

/-- `CHUNK_SIZE`. -/
def sizeofChunk : Int := 512

/-- The bytes of an ASCII text. -/
def ascii (text : String) : List UInt8 := text.toList.map chr

/-- The format of the header. -/
def headerFormat : List UInt8 :=
  ascii "HTTP/1.1 200 OK\r\nContent-Type: %s\r\nContent-Length: %d\r\nConnection: close\r\n\r\n"

/-- The loop that sends the data in chunks: the value of `sent` at its end. -/
def sendChunks (sockets : Table) (currentTask clientSock : Int) (data : Mem) (dataSize : Int)
    (sent : Int) (s : IpcState) : Int × IpcState :=
  if sent < dataSize then
    let chunkSize := if sizeofChunk < dataSize - sent then sizeofChunk else dataSize - sent
    let result := LibNet.send sockets s currentTask clientSock (shift data sent.toNat) chunkSize.toNat
    if result.1 ≤ 0 then (sent, result.2)
    else sendChunks sockets currentTask clientSock data dataSize (sent + result.1) result.2
  else (sent, s)
termination_by (dataSize - sent).toNat
decreasing_by
  show (dataSize - (sent + result.1)).toNat < (dataSize - sent).toNat
  omega

/-- The arguments of the header. -/
def headerArgs (contentType : UInt64) (dataSize : Int) : VaList := fun i =>
  match i with
  | 0 => contentType
  | _ => UInt64.ofNat (ofInt32 dataSize)

/-- C `send_http_response`: the value of `sent` at the end. -/
def sendHttpResponse (mem : Memory) (sockets : Table) (s : IpcState) (currentTask clientSock : Int)
    (contentType : UInt64) (data : Mem) (dataSize : Int) : Int × IpcState :=
  let (headerLen, header) := sprintf mem headerFormat (headerArgs contentType dataSize)
  let s := (LibNet.send sockets s currentTask clientSock (paste header fun _ => 0) headerLen).2
  sendChunks sockets currentTask clientSock data dataSize 0 s

/-! ## The header -/

/-- The header of a response. -/
def httpHeader (contentType : List UInt8) (dataSize : Int) : List UInt8 :=
  ascii "HTTP/1.1 200 OK\r\nContent-Type: " ++ (contentType ++
    (ascii "\r\nContent-Length: " ++ (signed 10 dataSize ++
      ascii "\r\nConnection: close\r\n\r\n")))

/-- The pieces of the format. -/
def headerPieces : List Piece :=
  plain (ascii "HTTP/1.1 200 OK\r\nContent-Type: ") (by decide +kernel) ++
    .s :: (plain (ascii "\r\nContent-Length: ") (by decide +kernel) ++
      .d :: (plain (ascii "\r\nConnection: close\r\n\r\n") (by decide +kernel) ++ []))

lemma formatOf_headerPieces : formatOf headerPieces = headerFormat := by
  decide +kernel

/-- A number is written without a zero byte. -/
lemma zero_notin_signed (i : Int) : 0 ∉ signed 10 i := by
  have hdigit : ∀ d < 10, digitChar d ≠ 0 := by decide
  have hnumeral : ∀ n, 0 ∉ numeral 10 n := by
    intro n hmem
    unfold numeral at hmem
    split at hmem
    · exact hdigit 0 (by decide) (List.mem_singleton.mp hmem).symm
    · obtain ⟨d, hd, h0⟩ := List.mem_map.mp (List.mem_reverse.mp hmem)
      exact hdigit d (Nat.digits_lt_base (by decide) hd) h0
  unfold signed
  split
  · rw [List.mem_cons, not_or]
    exact ⟨by decide, hnumeral _⟩
  · exact hnumeral _

section Header

variable {mem : Memory} {contentType : UInt64} {dataSize : Int}
  (hsize : 0 ≤ dataSize ∧ dataSize < 2 ^ 31)
include hsize

lemma intArg_dataSize : intArg ((headerArgs contentType dataSize).rest 0) = dataSize := by
  show toInt32 ((UInt64.ofNat (ofInt32 dataSize)).toNat % 2 ^ 32) = dataSize
  have hlt := ofInt32_lt dataSize
  rw [UInt64.toNat_ofNat', Nat.mod_mod_of_dvd _ (by decide), Nat.mod_eq_of_lt (by omega)]
  exact toInt32_ofInt32 (by omega) (by omega)

lemma formatted_header (htype : contentType ≠ 0) :
    formatted mem headerPieces (headerArgs contentType dataSize) =
      httpHeader (mem.string contentType) dataSize := by
  have h0 : headerArgs contentType dataSize 0 = contentType := rfl
  unfold headerPieces httpHeader
  simp only [formatted_plain, formatted, Piece.text, Piece.next, h0, if_neg htype,
    intArg_dataSize hsize]
  rw [List.append_nil]

lemma allWritable_header :
    AllWritable headerPieces (headerArgs contentType dataSize) := by
  unfold headerPieces
  simp only [allWritable_plain, AllWritable, Piece.Writable, Piece.next, intArg_dataSize hsize,
    true_and, and_true]
  omega

omit hsize in
lemma zero_notin_header {text : List UInt8} (h : 0 ∉ text) : 0 ∉ httpHeader text dataSize := by
  unfold httpHeader
  simp only [List.mem_append, not_or]
  exact ⟨by decide +kernel, h, by decide +kernel, zero_notin_signed dataSize, by decide +kernel⟩

/-- The header that `sprintf` writes. -/
lemma sprintf_header (htype : contentType ≠ 0) (hnul : 0 ∉ mem.string contentType) :
    sprintf mem headerFormat (headerArgs contentType dataSize) =
      ((httpHeader (mem.string contentType) dataSize).length,
        httpHeader (mem.string contentType) dataSize) := by
  have htext : formatted mem headerPieces (headerArgs contentType dataSize) =
      httpHeader (mem.string contentType) dataSize := formatted_header hsize htype
  rw [← formatOf_headerPieces, ← htext]
  apply sprintf_formats
  · exact allWritable_header hsize
  · rw [htext]
    exact zero_notin_header hnul

end Header

/-! ## The response -/

/-- The response arrives in the queue of the network server, header and data, and the loop has
counted all bytes of the data. -/
structure SentWhole (s : IpcState) (t : Int) (header : List UInt8) (data : Mem) (dataSize : Int)
    (r : Int × IpcState) : Prop where
  sent : r.1 = dataSize
  payloads : ∃ letters, r.2.pending LibNet.netServerPid = s.pending LibNet.netServerPid ++ letters ∧
    (∀ a ∈ letters, a.sender = t) ∧
    letters.flatMap Letter.body = header ++ bytes data dataSize.toNat

/-- No send returns a positive number. -/
lemma sendMessage_nonpos (s : IpcState) (t r : Int) (data : Option Mem) (size : Int) :
    (sendMessage s t r data size).1 ≤ 0 := by
  have hfail : (-1 : Int) ≤ 0 := by decide
  unfold sendMessage
  split_ifs
  · exact hfail
  · exact hfail
  · exact hfail
  · cases data with
    | none => exact hfail
    | some src =>
      simp only
      split
      · exact hfail
      · exact le_rfl

lemma send_nonpos (sockets : Table) (s : IpcState) (t sockfd : Int) (buf : Mem) (len : Nat) :
    (LibNet.send sockets s t sockfd buf len).1 ≤ 0 := by
  have hfail : (-1 : Int) ≤ 0 := by decide
  unfold LibNet.send
  split
  · exact hfail
  · split
    · exact hfail
    · exact sendMessage_nonpos s t _ _ _

/-- The loop ends with its first chunk, if there is one. -/
lemma sendChunks_fst (sockets : Table) (t clientSock : Int) (data : Mem) (dataSize : Int)
    (s : IpcState) : (sendChunks sockets t clientSock data dataSize 0 s).1 = 0 := by
  rw [sendChunks]
  split
  · simp only [if_pos (send_nonpos _ _ _ _ _ _)]
  · rfl

lemma sendChunks_none (sockets : Table) (t clientSock : Int) (data : Mem) (s : IpcState) :
    sendChunks sockets t clientSock data 0 0 s = (0, s) := by
  rw [sendChunks, if_neg (lt_irrefl 0)]

section Response

variable {S : Set Nat} {s : IpcState} {free : List Nat} {box : Int → List Letter}

/-- A header that fits a message is posted, if there is a free slot. -/
lemma send_header (h : Rep S s free box) (hfree : s.freeMessages ≠ 0) {sockets : Table} {sockfd : Int}
    (hconn : PayloadCall.send.Permitted sockets sockfd) (t : Int) {header : List UInt8}
    (hpos : 0 < header.length) (hlen : header.length ≤ 255) :
    ∃ slot, (LibNet.send sockets s t sockfd (paste header fun _ => 0) header.length).2.pending =
      post s.pending LibNet.netServerPid ⟨slot, t, header⟩ := by
  have hmax : header.length ≤ 256 := by omega
  have hsend := PayloadCall.exec_permitted hconn s t (paste header fun _ => 0) hmax
  have hok : Sendable LibNet.netServerPid (some (paste header fun _ => 0)) header.length := by
    refine ⟨by decide, ⟨by omega, ?_⟩, rfl⟩
    unfold maxMessageSize
    omega
  rcases sendMessage_cases h t LibNet.netServerPid (some (paste header fun _ => 0)) header.length with
    ⟨_, hno | hnil⟩ | ⟨f, free', src, s', _, hsrc, _, e, h'⟩
  · exact absurd hok hno
  · exact absurd (h.pool.head_eq_zero.mpr hnil) hfree
  · obtain rfl := Option.some.inj hsrc
    have hbody : bytes (paste header fun _ => 0) header.length = header := by
      rw [bytes_paste le_rfl, List.take_length]
    refine ⟨f, ?_⟩
    show (PayloadCall.send.exec sockets s t sockfd (paste header fun _ => 0) header.length).2.pending =
      _
    rw [hsend, e, h'.pending_eq, h.pending_eq, Int.toNat_natCast, hbody]

lemma httpHeader_pos (text : List UInt8) (dataSize : Int) : 0 < (httpHeader text dataSize).length := by
  have hpos : 0 < (ascii "HTTP/1.1 200 OK\r\nContent-Type: ").length := by decide +kernel
  unfold httpHeader
  rw [List.length_append]
  omega

end Response

/-- In every reachable state of the message system with a free slot, `send_http_response` sends the
response whole to the network server exactly if it has no data. -/
theorem response_whole (n : Nat) (s₀ : IpcState) (h₀ : Initial n s₀) (ops : List IpcOp) (s : History)
    (hrun : History.run s₀ ops = some s) (hfree : s.ipc.freeMessages ≠ 0) (mem : Memory)
    (sockets : Table) (clientSock : Int) (hconn : PayloadCall.send.Permitted sockets clientSock)
    (t : Int) (contentType : UInt64) (htype : contentType ≠ 0) (hnul : 0 ∉ mem.string contentType)
    (data : Mem) (dataSize : Int) (hsize : 0 ≤ dataSize ∧ dataSize < 2 ^ 31)
    (hshort : (httpHeader (mem.string contentType) dataSize).length ≤ 255) :
    (sprintf mem headerFormat (headerArgs contentType dataSize)).2 =
        httpHeader (mem.string contentType) dataSize ∧
      (SentWhole s.ipc t (httpHeader (mem.string contentType) dataSize) data dataSize
          (sendHttpResponse mem sockets s.ipc t clientSock contentType data dataSize) ↔
        dataSize = 0) := by
  obtain ⟨slots, free, box, hrep, _⟩ := History.inv_of_run h₀ hrun
  have hheader := sprintf_header hsize htype hnul
  refine ⟨congrArg Prod.snd hheader, ?_⟩
  unfold sendHttpResponse
  simp only [hheader]
  constructor
  · intro hwhole
    rw [← hwhole.sent, sendChunks_fst]
  · rintro rfl
    obtain ⟨slot, hpost⟩ := send_header hrep hfree hconn t (httpHeader_pos _ _) hshort
    rw [sendChunks_none]
    refine ⟨rfl, [⟨slot, t, httpHeader (mem.string contentType) 0⟩], ?_, ?_, ?_⟩
    · simp only [hpost, post_self]
    · intro a ha
      rw [List.mem_singleton.mp ha]
    · simp [bytes]

/-- A memory with the string `text/plain` at the address 1. -/
def typeMemory : Memory := ⟨fun p => if p = 1 then ascii "text/plain" else [], fun _ => 0⟩

/-- A table whose sockets are connected. -/
def connectedTable : Table := fun _ => ⟨sockStream, .connected, 0, 0, 0, 0⟩

lemma connectedTable_permitted : PayloadCall.send.Permitted connectedTable 1 := ⟨0, rfl, rfl⟩

theorem response_whole_empty :
    SentWhole poolState 1 (httpHeader (ascii "text/plain") 0) (fun _ => 0) 0
      (sendHttpResponse typeMemory connectedTable poolState 1 1 1 (fun _ => 0) 0) :=
  (response_whole 2 poolState poolState_initial [] ⟨poolState, []⟩ rfl (by decide +kernel) typeMemory
    connectedTable 1 connectedTable_permitted 1 1 (by decide) (by decide +kernel) (fun _ => 0) 0
    (by decide) (by decide +kernel)).2.mpr rfl

/-- Of three bytes of data the loop counts none. -/
theorem response_whole_fails :
    Initial 2 poolState ∧ poolState.freeMessages ≠ 0 ∧
      PayloadCall.send.Permitted connectedTable 1 ∧
      (httpHeader (ascii "text/plain") 3).length ≤ 255 ∧
      ¬SentWhole poolState 1 (httpHeader (ascii "text/plain") 3) (fun _ => 7) 3
        (sendHttpResponse typeMemory connectedTable poolState 1 1 1 (fun _ => 7) 3) := by
  refine ⟨poolState_initial, by decide +kernel, connectedTable_permitted, by decide +kernel, ?_⟩
  intro hwhole
  have hsent := hwhole.sent
  unfold sendHttpResponse at hsent
  simp only [sendChunks_fst] at hsent
  exact absurd hsent (by decide)

end Hydra.Apps
