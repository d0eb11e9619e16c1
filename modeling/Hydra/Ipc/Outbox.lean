import Hydra.Ipc.Delivery

/-!
# Messages that nobody takes

A task sends messages, and no task takes any. Then the message system is no more than an `Outbox`:
each message that passes the checks uses up a slot, and when no slot is left, nothing is sent any
more (`Outgoing.send`). Of a list of messages, as many arrive as there are free slots
(`Outbox.sendAll`).
-/

namespace Hydra.Ipc
open ByteMem Mailbox

/-- The number of free slots, and what has been sent, with the receivers. -/
structure Outbox where
  free : Nat
  sent : List (Int × List UInt8)
  deriving DecidableEq, Repr

namespace Outbox

/-- Send a message, if a slot is left. -/
def send (o : Outbox) (message : Int × List UInt8) : Outbox :=
  if o.free = 0 then o else ⟨o.free - 1, o.sent ++ [message]⟩

/-- What has been sent to a task. -/
def sentTo (o : Outbox) (r : Int) : List (List UInt8) :=
  (o.sent.filter fun message => message.1 = r).map Prod.snd

lemma mem_send {o : Outbox} {message x : Int × List UInt8} (h : x ∈ (o.send message).sent) :
    x ∈ o.sent ∨ x = message := by
  unfold send at h
  split at h
  · exact .inl h
  · exact (List.mem_append.mp h).imp_right List.mem_singleton.mp

lemma sendAll (o : Outbox) (messages : List (Int × List UInt8)) :
    messages.foldl send o = ⟨o.free - messages.length, o.sent ++ messages.take o.free⟩ := by
  induction messages generalizing o with
  | nil => simp
  | cons message messages ih =>
    rw [List.foldl_cons, ih]
    unfold send
    obtain ⟨free, sent⟩ := o
    cases free with
    | zero => simp
    | succ free => simp

end Outbox

/-- Since the queues were `box₀`, the task `t` has sent the messages of the outbox, and no message
has been taken. -/
def Outgoing (S : Set Nat) (box₀ : Int → List Letter) (t : Int) (o : Outbox) (s : IpcState) :
    Prop :=
  ∃ free box, Rep S s free box ∧ free.length = o.free ∧ ∀ r, ∃ letters, box r = box₀ r ++ letters ∧
    letters.map (fun a => (a.sender, a.body)) = (o.sentTo r).map (t, ·)

namespace Outgoing

variable {S : Set Nat} {s : IpcState} {free : List Nat} {box box₀ : Int → List Letter} {t : Int}
  {o : Outbox}

/-- Nothing has been sent yet. -/
lemma start (h : Rep S s free box) (t : Int) : Outgoing S box t ⟨free.length, []⟩ s :=
  ⟨free, box, h, rfl, fun _ => ⟨[], (List.append_nil _).symm, rfl⟩⟩

/-- A send that passes the checks is one at the outbox; it fails exactly if no slot is left. -/
lemma send (h : Outgoing S box₀ t o s) {r size : Int} {src : Mem}
    (hok : Sendable r (some src) size) :
    Outgoing S box₀ t (o.send (r, bytes src size.toNat)) (sendMessage s t r (some src) size).2 ∧
      (sendMessage s t r (some src) size).1 = if o.free = 0 then -1 else 0 := by
  obtain ⟨free, box, hrep, hfree, hsent⟩ := h
  unfold Outbox.send
  rcases sendMessage_cases hrep t r (some src) size with
    ⟨e, hno | rfl⟩ | ⟨f, free', src', s', rfl, hsrc, _, e, hrep'⟩
  · exact absurd hok hno
  · rw [List.length_nil] at hfree
    rw [e, ← hfree, if_pos rfl, if_pos rfl]
    exact ⟨⟨[], box, hrep, hfree, hsent⟩, rfl⟩
  · obtain rfl := Option.some.inj hsrc
    rw [List.length_cons] at hfree
    rw [e, if_neg (by omega), if_neg (by omega)]
    refine ⟨⟨free', _, hrep', by simp only; omega, fun r' => ?_⟩, rfl⟩
    obtain ⟨letters, hbox, hletters⟩ := hsent r'
    rcases eq_or_ne r' r with rfl | hne
    · refine ⟨letters ++ [⟨f, t, bytes src size.toNat⟩], ?_, ?_⟩
      · rw [post_self, hbox, List.append_assoc]
      · unfold Outbox.sentTo at hletters ⊢
        simp [hletters]
    · refine ⟨letters, ?_, ?_⟩
      · rw [post_of_ne box hne, hbox]
      · unfold Outbox.sentTo at hletters ⊢
        simp [hletters, hne.symm]

/-- What the queues hold. -/
lemma pending (h : Outgoing S box₀ t o s) (r : Int) : ∃ letters, s.pending r = box₀ r ++ letters ∧
    letters.map (fun a => (a.sender, a.body)) = (o.sentTo r).map (t, ·) := by
  obtain ⟨free, box, hrep, _, hsent⟩ := h
  rw [hrep.pending_eq]
  exact hsent r

end Outgoing

end Hydra.Ipc
