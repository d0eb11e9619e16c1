import Hydra.LibHydra.Ipc

/-!
# Serving messages

What `server/net_srv.c` and `server/bullet.c` have in common: the words of a message are read from
its bytes, and the loop body takes a message from any sender, hands it to the server's handler with
the first word as the sender, and sends the handler's reply there. The message buffer keeps its
contents from one iteration to the next. Each path of the two handlers sends at most one reply, as
its last action, so a handler gives the reply and `serve` sends it.

What an iteration makes of the letter it takes depends on the bytes of the letter and on the handler
only (`serve_result`).
-/

namespace Hydra.Server
open ByteMem Mailbox Hydra.Ipc Hydra.LibHydra

/-- The 32-bit word number `i` of a message. -/
def word (msg : Mem) (i : Nat) : Nat := load msg (4 * i) 4

/-- The word read as an `int`. -/
def arg (msg : Mem) (i : Nat) : Int := toInt32 (word msg i)

/-- A word is read as a 32-bit value. -/
lemma arg_range (msg : Mem) (i : Nat) : -2 ^ 31 ≤ arg msg i ∧ arg msg i < 2 ^ 31 := by
  have hlt : word msg i < 2 ^ 32 := load_lt msg (4 * i) 4
  unfold arg toInt32
  split <;> omega

/-- The words of a message without its first word. -/
lemma arg_shift (msg : Mem) (i : Nat) : arg (shift msg 4) i = arg msg (i + 1) := by
  unfold arg word
  rw [load_shift, Nat.mul_add_one, Nat.add_comm]

/-- The bytes of an `int`, as the pointer to a local variable gives them. -/
def intBytes (v : Int) : Mem := store (fun _ => 0) 0 4 (ofInt32 v)

/-- The reply to a command: its bytes and size. -/
abbrev Reply := Mem × Int

/-- The reply that carries an `int`. -/
def intReply (v : Int) : Reply := (intBytes v, 4)

/-- The result of serving: the server, the message system and the message buffer afterwards, and,
for the record, the slot the message was taken from and the slot the reply was put into. -/
structure Served (W : Type) where
  world : W
  ipc : IpcState
  msgBuffer : Mem
  taken : Option Nat
  replied : Option Nat

/-- Send the reply, if there is one; a failure is ignored. -/
def sendReply (ipc : IpcState) (currentTask receiver : Int) : Option Reply → Option Nat × IpcState
  | none => (none, ipc)
  | some (data, size) =>
    let result := syscallSendMsg ipc currentTask receiver (some data) size
    (if result.1 < 0 then none else some ipc.freeMessages, result.2)

/-- Check for an incoming message and handle it. -/
def serve {W : Type} (handle : W → Int → Mem → Int → Option Reply × W) (world : W) (ipc : IpcState)
    (currentTask : Int) (msgBuffer : Mem) : Served W :=
  let result := syscallRecvMsg ipc currentTask (-1) (some msgBuffer) 256
  let msgBuffer := result.buffer.getD msgBuffer
  if 0 < result.ret then
    -- the first int is the sender's pid
    let senderPid := arg msgBuffer 0
    let (reply, world) := handle world senderPid (shift msgBuffer 4) (result.ret - 4)
    let (replied, state) := sendReply result.state currentTask senderPid reply
    ⟨world, state, msgBuffer, some (ipc.messageQueues currentTask).head, replied⟩
  else ⟨world, result.state, msgBuffer, none, none⟩

/-- The message buffer after a receive: the kernel copies at most 256 bytes. -/
def deliver (msgBuffer : Mem) (body : List UInt8) : Mem := paste (body.take 256) msgBuffer

/-! ## Serving a letter -/

section Serve

variable {S : Set Nat} {s : IpcState} {free : List Nat} {box : Int → List Letter}

/-- There is no reply to send, or the kernel refuses it, or it is posted to the receiver. -/
lemma sendReply_cases (h : Rep S s free box) (t r : Int) (reply : Option Reply) :
    (sendReply s t r reply = (none, s) ∧
      ∀ x, reply = some x → ¬Sendable r (some x.1) x.2 ∨ free = []) ∨
    ∃ f free' x s', free = f :: free' ∧ reply = some x ∧ Sendable r (some x.1) x.2 ∧
      sendReply s t r reply = (some f, s') ∧
      Rep S s' free' (post box r ⟨f, t, bytes x.1 x.2.toNat⟩) := by
  cases reply with
  | none => exact .inl ⟨rfl, nofun⟩
  | some x =>
    obtain ⟨data, size⟩ := x
    rcases sendMessage_cases h t r (some data) size with
      ⟨e, hno⟩ | ⟨f, free', src, s', hfree, hsrc, hok, e, h'⟩
    · left
      refine ⟨?_, ?_⟩
      · unfold sendReply syscallSendMsg
        simp only [e]
        rfl
      · rintro _ ⟨⟩
        exact hno
    · right
      obtain rfl : data = src := Option.some.inj hsrc
      have hhead : s.freeMessages = f := (hfree ▸ h.pool).1
      refine ⟨f, free', (data, size), s', hfree, rfl, hok, ?_, h'⟩
      unfold sendReply syscallSendMsg
      simp only [e, hhead]
      rfl

variable {W : Type} (handle : W → Int → Mem → Int → Option Reply × W) (world : W) (msgBuffer : Mem)

/-- The server takes the oldest letter of its box, hands it to its handler with the first word as
the sender, and sends the reply there; the slot of the letter is free by then. -/
lemma serve_letter (h : Rep S s free box) {t : Int} {a : Letter} {l : List Letter}
    (hb : box t = a :: l) :
    ∃ s₁, Rep S s₁ (a.slot :: free) (take box t) ∧
      serve handle world s t msgBuffer =
        let buf := deliver msgBuffer a.body
        let out := handle world (arg buf 0) (shift buf 4) (a.body.length - 4)
        let sent := sendReply s₁ t (arg buf 0) out.1
        ⟨out.2, sent.2, buf, some a.slot, sent.1⟩ := by
  have ht := h.valid t (by simp [hb])
  have hpos := (h.holds t a (by simp [hb])).pos
  have hok : Receivable t (some msgBuffer) 256 := ⟨rfl, by decide, ht⟩
  obtain ⟨s₁, e, h₁⟩ := recvMessage_take h hok hb (-1)
  refine ⟨s₁, h₁, ?_⟩
  have hret : (0 : Int) < a.body.length := by exact_mod_cast hpos
  unfold serve syscallRecvMsg
  simp only [e, if_pos hret, h.head_eq hb]
  rfl

lemma serve_idle (h : Rep S s free box) {t : Int} (hb : box t = []) :
    serve handle world s t msgBuffer = ⟨world, s, msgBuffer, none, none⟩ := by
  unfold serve syscallRecvMsg
  rw [recvMessage_empty h hb]
  rfl

/-- With the outcome of the handler: the server afterwards, and the reply posted to the first word
unless the kernel refuses it. -/
lemma serve_result (h : Rep S s free box) {t : Int} {a : Letter} {l : List Letter}
    (hb : box t = a :: l) {reply : Option Reply} {world' : W}
    (hout : handle world (arg (deliver msgBuffer a.body) 0) (shift (deliver msgBuffer a.body) 4)
      (a.body.length - 4) = (reply, world')) :
    (serve handle world s t msgBuffer).world = world' ∧
    (((serve handle world s t msgBuffer).ipc.pending = take s.pending t ∧
        ∀ x, reply = some x → ¬Sendable (arg (deliver msgBuffer a.body) 0) (some x.1) x.2) ∨
      ∃ x, reply = some x ∧ Sendable (arg (deliver msgBuffer a.body) 0) (some x.1) x.2 ∧
        (serve handle world s t msgBuffer).ipc.pending =
          post (take s.pending t) (arg (deliver msgBuffer a.body) 0)
            ⟨a.slot, t, bytes x.1 x.2.toNat⟩) := by
  obtain ⟨s₁, h₁, e⟩ := serve_letter handle world msgBuffer h hb
  simp only [hout] at e
  rw [e, h.pending_eq]
  refine ⟨rfl, ?_⟩
  rcases sendReply_cases h₁ t (arg (deliver msgBuffer a.body) 0) reply with
    ⟨e', hno⟩ | ⟨f, free', x, s₂, hfree, hx, hok, e', h₂⟩
  · left
    simp only [e']
    refine ⟨h₁.pending_eq, fun x hx => (hno x hx).resolve_right ?_⟩
    exact List.cons_ne_nil _ _
  · right
    obtain ⟨rfl, _⟩ := List.cons.inj hfree
    simp only [e']
    exact ⟨x, hx, hok, h₂.pending_eq⟩

end Serve

end Hydra.Server
