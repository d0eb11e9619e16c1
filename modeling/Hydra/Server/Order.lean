import Hydra.Lib.Pipeline
import Hydra.Server.Request

/-!
# Replies in order

A client call never finds the reply to its own request (`reply_correlation`). What the calls do find
is in order all the same: the clients, the servers and their boxes are a pipeline of requests
(`Follows`), so the calls of a task find the replies of a server in the order of the requests, each
of them once, and only replies to requests of their own task (`replies_in_order`). The two servers
are not in step with each other, and replies may get lost.
-/

namespace Hydra.Server
open ByteMem Mailbox Hydra.Ipc Hydra.LibHydra Hydra.Net
open Pipeline (Item)

/-- The client calls of a run, with their tasks. -/
def callsOf (ops : List SystemOp) : List (Int × ClientCall) :=
  ops.filterMap fun op => match op with
    | .call t _ c => some (t, c)
    | _ => none

/-- A letter as an item of the pipelines. -/
def itemOf (tag : Nat → Tag) (a : Letter) : Item Int :=
  match tag a.slot with
  | .request call => .request a.sender call
  | .reply server call => .reply server call
  | .other => .other

/-- The boxes as those of the pipelines. -/
def itemBoxes (tag : Nat → Tag) (box : Int → List Letter) : Int → List (Item Int) := fun t =>
  (box t).map (itemOf tag)

/-- The tag of an item. -/
def tagOf : Item Int → Tag
  | .request _ call => .request call
  | .reply server call => .reply server call
  | .other => .other

/-- The system as pipelines of requests. -/
structure Follows (w : System) (p : Pipeline.State Int) : Prop where
  rep : ∃ S free, Rep S w.ipc free w.ipc.pending
  box : p.box = itemBoxes w.tag w.ipc.pending
  calls : p.made.length = w.calls
  found : p.found.map (Option.map tagOf) = w.log.map CallRecord.received
  clients : ∀ t a call, a ∈ w.ipc.pending t → w.tag a.slot = .request call → FromClient a

/-! ## Boxes of items -/

section Boxes

variable {S : Set Nat} {s : IpcState} {free : List Nat} {box : Int → List Letter}
  {tag : Nat → Tag} {a : Letter}

lemma tagOf_itemOf (tag : Nat → Tag) (a : Letter) : tagOf (itemOf tag a) = tag a.slot := by
  unfold itemOf
  cases tag a.slot with
  | request | reply | other => rfl

lemma itemBoxes_post (box : Int → List Letter) (t : Int) (a : Letter) :
    itemBoxes tag (post box t a) = post (itemBoxes tag box) t (itemOf tag a) := by
  funext r
  unfold itemBoxes
  rcases eq_or_ne r t with rfl | hne
  · rw [post_self, post_self, List.map_append, List.map_singleton]
  · rw [post_of_ne _ hne, post_of_ne _ hne]

lemma itemBoxes_take (box : Int → List Letter) (t : Int) :
    itemBoxes tag (take box t) = take (itemBoxes tag box) t := by
  funext r
  unfold itemBoxes
  rcases eq_or_ne r t with rfl | hne
  · rw [take_self, take_self, List.map_tail]
  · rw [take_of_ne _ hne, take_of_ne _ hne]

/-- The tag of a free slot is not that of a letter. -/
lemma itemBoxes_update {f : Nat} (h : Rep S s (f :: free) box) (x : Tag) :
    itemBoxes (Function.update tag f x) box = itemBoxes tag box := by
  funext r
  refine List.map_congr_left fun a ha => ?_
  have hne : a.slot ≠ f := fun e => h.unpooled r a ha (e ▸ List.mem_cons_self)
  unfold itemOf
  rw [Function.update_of_ne hne]

/-- A letter that is posted in a free slot gets the tag of the slot. -/
lemma itemBoxes_posted (tag : Nat → Tag) {f : Nat} (h : Rep S s (f :: free) box) (ha : a.slot = f)
    (t : Int) (x : Tag) : itemBoxes (Function.update tag f x) (post box t a) =
      post (itemBoxes tag box) t (itemOf (fun _ => x) a) := by
  rw [itemBoxes_post, itemBoxes_update h]
  congr 1
  unfold itemOf
  rw [ha, Function.update_self]

/-- The requests in the boxes after a letter has been posted. -/
lemma clients_posted {f : Nat} (h : Rep S s (f :: free) box) (ha : a.slot = f) {t : Int} {x : Tag}
    (hold : ∀ r b call, b ∈ box r → tag b.slot = .request call → FromClient b)
    (hnew : ∀ call, x = .request call → FromClient a) :
    ∀ r b call, b ∈ post box t a r → Function.update tag f x b.slot = .request call →
      FromClient b := by
  intro r b call hb htag
  rcases mem_post.mp hb with hmem | ⟨_, rfl⟩
  · have hne : b.slot ≠ f := fun e => h.unpooled r b hmem (e ▸ List.mem_cons_self)
    rw [Function.update_of_ne hne] at htag
    exact hold r b call hmem htag
  · rw [ha, Function.update_self] at htag
    exact hnew call htag

end Boxes

/-! ## Steps -/

variable {w : System} {p : Pipeline.State Int}

namespace Follows

/-- A call is one of the pipelines. -/
lemma call (h : Follows w p) {t : Int} (ht : 0 ≤ t ∧ t < maxTasks) (stack : Mem) (c : ClientCall) :
    ∃ sends looks, Follows (w.call t stack c) (p.step (.call t c.server sends looks)) := by
  obtain ⟨S, free, hrep⟩ := h.rep
  have hclient : ∀ f, FromClient (c.letter t stack f) := fun f => by
    unfold maxTasks at ht
    exact ⟨⟨by show -2 ^ 31 ≤ t; omega, by show t < 2 ^ 31; omega⟩, c, stack, rfl⟩
  have hmade : (p.made ++ [(t, c.server)]).length = w.calls + 1 := by
    rw [List.length_append, h.calls]
    rfl
  have hfound : ∀ {x : Option (Item Int)} {y : CallRecord}, x.map tagOf = y.received →
      (p.found ++ [x]).map (Option.map tagOf) = (w.log ++ [y]).map CallRecord.received :=
    fun hxy => by
      rw [List.map_append, List.map_append, h.found, List.map_singleton, List.map_singleton, hxy]
  unfold System.call
  rw [c.exec_request]
  rcases clientCall_cases hrep t c.server_valid c.size_le (c.request t stack) with
    ⟨e, _⟩ | ⟨f, free', a, s₁, r, rfl, rfl, _, e, hsent, hafter, h₁, hrest⟩
  · rw [e]
    exact ⟨false, false, h.rep, h.box, hmade, hfound rfl, h.clients⟩
  · rw [e]
    change Rep S s₁ free' (post w.ipc.pending c.server (c.letter t stack f)) at h₁
    have hslot : w.ipc.freeMessages = f := hrep.pool.1
    have htag : w.tagRequest r = Function.update w.tag f (.request w.calls) := by
      unfold System.tagRequest
      rw [if_pos hsent, hslot]
    have hitem : itemOf (fun _ => .request w.calls) (c.letter t stack f) =
        .request t p.made.length := by
      rw [h.calls]
      rfl
    have hbox : itemBoxes (Function.update w.tag f (.request w.calls))
        (post w.ipc.pending c.server (c.letter t stack f)) =
        post p.box c.server (.request t p.made.length) := by
      rw [itemBoxes_posted w.tag hrep rfl, ← h.box, hitem]
    have hclients := clients_posted hrep (a := c.letter t stack f) (t := c.server) rfl h.clients
      (x := .request w.calls) fun _ _ => hclient f
    rcases hrest with ⟨hret, hstate, _⟩ | ⟨b, l, hb, _, hret, h₂⟩
    · refine ⟨true, false, ?_⟩
      have hnone : w.received t r = none := by
        unfold System.received
        rw [hret, if_neg (by decide)]
      rw [← h₁.pending_eq] at hbox hclients
      simp only [hnone, htag, hstate]
      exact ⟨⟨S, free', h₁.pending_eq ▸ h₁⟩, hbox.symm, hmade, hfound rfl, hclients⟩
    · refine ⟨true, true, ?_⟩
      change post w.ipc.pending c.server (c.letter t stack f) t = b :: l at hb
      have hafter₂ : r.state.pending = take (post w.ipc.pending c.server (c.letter t stack f)) t :=
        h₂.pending_eq
      have hhead : (r.afterSend.messageQueues t).head = b.slot := by
        rw [hafter]
        exact h₁.head_eq hb
      have hsome : w.received t r =
          some (Function.update w.tag f (.request w.calls) b.slot) := by
        unfold System.received
        rw [if_pos hret, hhead, htag]
      simp only [hsome, htag]
      refine ⟨⟨S, _, h₂.pending_eq ▸ h₂⟩, ?_, hmade, ?_, fun r' x call hx => ?_⟩
      · show take (post p.box c.server _) t = _
        rw [hafter₂, itemBoxes_take]
        exact (congrArg (take · t) hbox).symm
      · show ((p.ask t c.server true).look t).found.map _ = _
        rw [Pipeline.State.look_found]
        refine hfound ?_
        show ((post p.box c.server _) t).head?.map tagOf = _
        rw [← hbox]
        unfold itemBoxes
        rw [hb, List.map_cons, List.head?_cons, Option.map_some, tagOf_itemOf]
      · rw [hafter₂] at hx
        exact hclients r' x call (mem_of_mem_take hx)

/-- What a server takes is dropped, or answered if it is a request. -/
lemma serve {W : Type} {handle : W → Int → Mem → Int → Option Reply × W} {world : W} {t : Int}
    {msgBuffer : Mem} {w' : System} (h : Follows w p)
    (hreplies : ∀ a l, w.ipc.pending t = a :: l → FromClient a →
      (serve handle world w.ipc t msgBuffer).ipc.pending = take w.ipc.pending t ∨
      ∃ b, (serve handle world w.ipc t msgBuffer).ipc.pending =
        post (take w.ipc.pending t) a.sender b)
    (hipc : w'.ipc = (serve handle world w.ipc t msgBuffer).ipc)
    (htag : w'.tag = w.tagReply t (serve handle world w.ipc t msgBuffer).taken
      (serve handle world w.ipc t msgBuffer).replied)
    (hcalls : w'.calls = w.calls) (hlog : w'.log = w.log) :
    ∃ p', Follows w' p' ∧ (p.Inv → p'.Inv) ∧ p'.made = p.made := by
  obtain ⟨S, free, hrep⟩ := h.rep
  have hmade : p.made.length = w'.calls := h.calls.trans hcalls.symm
  have hfound : p.found.map (Option.map tagOf) = w'.log.map CallRecord.received :=
    h.found.trans (hlog ▸ rfl)
  cases hb : w.ipc.pending t with
  | nil =>
    rw [serve_idle handle world msgBuffer hrep hb] at hipc htag
    refine ⟨p, ⟨?_, ?_, hmade, hfound, ?_⟩, id, rfl⟩
    · rw [hipc]
      exact h.rep
    · rw [hipc, htag]
      exact h.box
    · rw [hipc, htag]
      exact h.clients
  | cons a l =>
    have hreply := hreplies a l hb
    obtain ⟨s₁, h₁, e⟩ := serve_letter handle world msgBuffer hrep hb
    have htaken : ∀ r b call, b ∈ take w.ipc.pending t r → w.tag b.slot = .request call →
        FromClient b := fun r b call hmem => h.clients r b call (mem_of_mem_take hmem)
    rw [e] at hipc htag hreply
    rcases sendReply_cases h₁ t (arg (deliver msgBuffer a.body) 0)
      (handle world (arg (deliver msgBuffer a.body) 0) (shift (deliver msgBuffer a.body) 4)
        (a.body.length - 4)).1 with ⟨e', _⟩ | ⟨f, free', x, s₂, hfree, _, _, e', h₂⟩
    · simp only [e'] at hipc htag
      refine ⟨p.step (.drop t), ⟨?_, ?_, hmade, hfound, ?_⟩, fun hp => hp.step _, rfl⟩
      · rw [hipc, h₁.pending_eq]
        exact ⟨S, _, h₁⟩
      · rw [hipc, htag, h₁.pending_eq]
        show take p.box t = itemBoxes w.tag _
        rw [itemBoxes_take, h.box]
      · rw [hipc, htag, h₁.pending_eq]
        exact htaken
    · simp only [e', h₂.pending_eq] at hipc htag hreply
      obtain ⟨rfl, rfl⟩ := List.cons.inj hfree
      have htag' : w'.tag = Function.update w.tag a.slot (replyTag t (w.tag a.slot)) := htag
      have hrep' : ∃ S free, Rep S w'.ipc free w'.ipc.pending := by
        rw [hipc, h₂.pending_eq]
        exact ⟨S, _, h₂⟩
      have hno : ∀ call, replyTag t (w.tag a.slot) ≠ .request call := fun call => by
        unfold replyTag
        split <;> exact Tag.noConfusion
      have hposted := clients_posted (a := ⟨a.slot, t, bytes x.1 x.2.toNat⟩)
        (t := arg (deliver msgBuffer a.body) 0) h₁ rfl htaken fun call e => absurd e (hno call)
      have hclients : ∀ r b call, b ∈ w'.ipc.pending r → w'.tag b.slot = .request call →
          FromClient b := by
        rw [hipc, htag', h₂.pending_eq]
        exact hposted
      have hbox : itemBoxes w'.tag w'.ipc.pending = post (take p.box t)
          (arg (deliver msgBuffer a.body) 0)
          (itemOf (fun _ => replyTag t (w.tag a.slot)) ⟨a.slot, t, bytes x.1 x.2.toNat⟩) := by
        rw [hipc, htag', h₂.pending_eq,
          itemBoxes_posted _ (a := ⟨a.slot, t, bytes x.1 x.2.toNat⟩) h₁ rfl, itemBoxes_take, h.box]
      cases hrequest : w.tag a.slot with
      | request call =>
        have hmem : a ∈ w.ipc.pending t := by
          rw [hb]
          exact List.mem_cons_self
        have hfrom : FromClient a := h.clients t a call hmem hrequest
        have hsender : arg (deliver msgBuffer a.body) 0 = a.sender := by
          rcases hreply hfrom with hnone | ⟨b, hpost⟩
          · exact absurd hnone (post_ne _ _ _)
          · exact (post_inj hpost).1
        have hhead : p.box t = .request a.sender call :: l.map (itemOf w.tag) := by
          rw [h.box]
          unfold itemBoxes
          rw [hb, List.map_cons]
          congr 1
          unfold itemOf
          rw [hrequest]
        refine ⟨p.step (.answer t), ⟨hrep', ?_, ?_, ?_, hclients⟩, fun hp => hp.step _, ?_⟩
        · rw [hbox, hsender, hrequest]
          unfold Pipeline.State.step
          simp only [hhead]
          rfl
        · unfold Pipeline.State.step
          simp only [hhead]
          exact hmade
        · unfold Pipeline.State.step
          simp only [hhead]
          exact hfound
        · unfold Pipeline.State.step
          simp only [hhead]
      | reply | other =>
        refine ⟨(p.step (.drop t)).step (.post (arg (deliver msgBuffer a.body) 0)),
          ⟨hrep', ?_, hmade, hfound, hclients⟩, fun hp => (hp.step _).step _, rfl⟩
        rw [hbox, hrequest]
        rfl

/-- Any other send posts something else. -/
lemma send (h : Follows w p) (t receiver : Int) (data : Option Mem) (size : Int) :
    ∃ p', Follows (w.send t receiver data size) p' ∧ (p.Inv → p'.Inv) ∧ p'.made = p.made := by
  obtain ⟨S, free, hrep⟩ := h.rep
  unfold System.send syscallSendMsg
  rcases sendMessage_cases hrep t receiver data size with
    ⟨e, _⟩ | ⟨f, free', src, s₁, rfl, rfl, _, e, h₁⟩
  · rw [e]
    exact ⟨p, ⟨h.rep, h.box, h.calls, h.found, h.clients⟩, id, rfl⟩
  · have hslot : w.ipc.freeMessages = f := hrep.pool.1
    simp only [e, if_true, hslot]
    have hbox := itemBoxes_posted w.tag (a := ⟨f, t, bytes src size.toNat⟩) hrep rfl receiver
      .other
    have hclients := clients_posted (a := ⟨f, t, bytes src size.toNat⟩) (t := receiver)
      (x := .other) hrep rfl h.clients fun call hcall => by cases hcall
    refine ⟨p.step (.post receiver), ⟨?_, ?_, h.calls, h.found, ?_⟩, fun hp => hp.step _, rfl⟩
    · rw [h₁.pending_eq]
      exact ⟨S, _, h₁⟩
    · rw [h₁.pending_eq, hbox, ← h.box]
      rfl
    · rw [h₁.pending_eq]
      exact hclients

/-- Any other receive drops what it takes. -/
lemma recv (h : Follows w p) (t sender : Int) (buffer : Option Mem) (maxSize : Int) :
    ∃ p', Follows (w.recv t sender buffer maxSize) p' ∧ (p.Inv → p'.Inv) ∧ p'.made = p.made := by
  obtain ⟨S, free, hrep⟩ := h.rep
  unfold System.recv syscallRecvMsg
  rcases recvMessage_cases hrep t sender buffer maxSize with
    ⟨e, _⟩ | ⟨a, l, dst, s₁, _, _, _, e, h₁⟩
  · rw [e]
    exact ⟨p, ⟨h.rep, h.box, h.calls, h.found, h.clients⟩, id, rfl⟩
  · rw [e]
    refine ⟨p.step (.drop t), ⟨?_, ?_, h.calls, h.found, fun r b call hb => ?_⟩,
      fun hp => hp.step _, rfl⟩
    · rw [h₁.pending_eq]
      exact ⟨S, _, h₁⟩
    · rw [h₁.pending_eq, itemBoxes_take, ← h.box]
      rfl
    · rw [h₁.pending_eq] at hb
      exact h.clients r b call (mem_of_mem_take hb)

/-- Every step of the system is one of the pipelines. -/
lemma step (h : Follows w p) (hp : p.Inv) {op : SystemOp}
    (hop : ∀ x ∈ callsOf [op], 0 ≤ x.1 ∧ x.1 < maxTasks) {w' : System}
    (hstep : System.step w op = some w') :
    ∃ p', Follows w' p' ∧ p'.Inv ∧
      p'.made = p.made ++ (callsOf [op]).map fun x => (x.1, x.2.server) := by
  obtain ⟨S, free, hrep⟩ := h.rep
  have hsame : ∀ {w'}, (∃ p', Follows w' p' ∧ (p.Inv → p'.Inv) ∧ p'.made = p.made) →
      ∃ p', Follows w' p' ∧ p'.Inv ∧ p'.made = p.made ++ [] := by
    rintro w' ⟨p', h', hinv, hmade⟩
    exact ⟨p', h', hinv hp, by rw [hmade, List.append_nil]⟩
  cases op with
  | call t stack c =>
    obtain rfl : w.call t stack c = w' := Option.some.inj hstep
    obtain ⟨sends, looks, h'⟩ := h.call (hop (t, c) (List.mem_singleton_self _)) stack c
    refine ⟨_, h', hp.step _, ?_⟩
    cases looks with
    | true | false => rfl
  | netServer packetBuffer pkt =>
    obtain rfl : w.netServer packetBuffer pkt = w' := Option.some.inj hstep
    refine hsame (h.serve (fun a l hb hfrom => ?_) rfl rfl rfl rfl)
    refine (serve_client netHandle_records netHandle_short hrep hb _ w.netBuffer
      hfrom).replies.imp_right fun ⟨b, _, e⟩ => ⟨b, e⟩
  | bulletServer =>
    obtain rfl : w.bulletServer = w' := Option.some.inj hstep
    refine hsame (h.serve (fun a l hb hfrom => ?_) rfl rfl rfl rfl)
    exact (serve_client bulletHandle_records bulletHandle_short hrep hb _ w.bulletBuffer
      hfrom).replies.imp_right fun ⟨b, _, e⟩ => ⟨b, e⟩
  | send t receiver data size =>
    obtain rfl : w.send t receiver data size = w' := Option.some.inj hstep
    exact hsame (h.send t receiver data size)
  | recv t sender buffer maxSize =>
    obtain rfl : w.recv t sender buffer maxSize = w' := Option.some.inj hstep
    exact hsame (h.recv t sender buffer maxSize)

end Follows

lemma boot_follows {n : Nat} {s₀ : IpcState} (h₀ : Initial n s₀) (netBuffer bulletBuffer : Mem) :
    Follows (System.boot s₀ netBuffer bulletBuffer) .start := by
  obtain ⟨slots, _, hrep⟩ := h₀.rep
  have hpending : (System.boot s₀ netBuffer bulletBuffer).ipc.pending = fun _ => [] :=
    hrep.pending_eq
  refine ⟨⟨_, _, hpending ▸ hrep⟩, ?_, rfl, rfl, fun t a call ha => ?_⟩
  · rw [hpending]
    rfl
  · rw [hpending] at ha
    cases ha

lemma run_follows (h : Follows w p) (hp : p.Inv) {ops : List SystemOp}
    (hops : ∀ x ∈ callsOf ops, 0 ≤ x.1 ∧ x.1 < maxTasks) {w' : System}
    (hrun : System.run w ops = some w') :
    ∃ p', Follows w' p' ∧ p'.Inv ∧
      p'.made = p.made ++ (callsOf ops).map fun x => (x.1, x.2.server) := by
  induction ops generalizing w p with
  | nil =>
    obtain rfl : w = w' := Option.some.inj hrun
    exact ⟨p, h, hp, (List.append_nil _).symm⟩
  | cons op ops ih =>
    have hcons : callsOf (op :: ops) = callsOf [op] ++ callsOf ops := by
      unfold callsOf
      rw [← List.filterMap_append, List.singleton_append]
    rw [hcons, List.forall_mem_append] at hops
    obtain ⟨w₁, hstep, hrun⟩ := Option.bind_eq_some_iff.mp hrun
    obtain ⟨p₁, h₁, hp₁, hmade₁⟩ := h.step hp hops.1 hstep
    obtain ⟨p₂, h₂, hp₂, hmade₂⟩ := ih h₁ hp₁ hops.2 hrun
    refine ⟨p₂, h₂, hp₂, ?_⟩
    rw [hmade₂, hmade₁, hcons, List.map_append, List.append_assoc]

/-- In every run, each reply that a call finds is to an earlier request of the same task, by the
server that the request was for; and the calls of a task find the replies of a server in the order
of the requests, so none is found twice. -/
theorem replies_in_order {n : Nat} {s₀ : IpcState} (h₀ : Initial n s₀)
    (netBuffer bulletBuffer : Mem) (ops : List SystemOp)
    (hops : ∀ x ∈ callsOf ops, 0 ≤ x.1 ∧ x.1 < maxTasks) (w : System)
    (hrun : System.run (System.boot s₀ netBuffer bulletBuffer) ops = some w) {j : Nat}
    {r : CallRecord} {server : Int} {l : Nat} (hr : w.log[j]? = some r)
    (hl : r.received = some (.reply server l)) :
    l < j ∧ ∃ t c d, (callsOf ops)[j]? = some (t, d) ∧ (callsOf ops)[l]? = some (t, c) ∧
      c.server = server ∧
      ∀ i b q k, i < j → (callsOf ops)[i]? = some (t, b) → w.log[i]? = some q →
        q.received = some (.reply server k) → k < l := by
  obtain ⟨p, h, hp, hmade⟩ :=
    run_follows (boot_follows h₀ netBuffer bulletBuffer) Pipeline.State.start_inv hops hrun
  have hcalls : ∀ i : Nat, p.made[i]? =
      (callsOf ops)[i]?.map fun x : Int × ClientCall => (x.1, x.2.server) := fun i => by
    rw [hmade]
    exact List.getElem?_map
  have hfound : ∀ {i : Nat} {q : CallRecord} {k : Nat}, w.log[i]? = some q →
      q.received = some (.reply server k) → p.found[i]? = some (some (.reply server k)) := by
    intro i q k hq hk
    have e : (p.found.map (Option.map tagOf))[i]? = some (some (.reply server k)) := by
      rw [h.found, List.getElem?_map, hq, Option.map_some, hk]
    rw [List.getElem?_map, Option.map_eq_some_iff] at e
    obtain ⟨x, hx, hxt⟩ := e
    obtain ⟨item, rfl, hitem⟩ := Option.map_eq_some_iff.mp hxt
    cases item with
    | reply => cases hitem; exact hx
    | request | other => cases hitem
  obtain ⟨hlt, t, server', hj, hk⟩ := hp.late j server l (hfound hr hl)
  rw [hcalls] at hj hk
  obtain ⟨⟨t₁, d⟩, hd, ed⟩ := Option.map_eq_some_iff.mp hj
  obtain ⟨⟨t₂, c⟩, hc, ec⟩ := Option.map_eq_some_iff.mp hk
  obtain ⟨rfl, hserver⟩ := Prod.mk.inj ec
  obtain rfl : t₁ = t₂ := (Prod.mk.inj ed).1
  refine ⟨hlt, t₁, c, d, hd, hc, hserver, fun i b q k hij hb hq hk => ?_⟩
  have hmi : p.made[i]? = some (t₁, b.server) := by
    rw [hcalls, hb]
    rfl
  have hmj : p.made[j]? = some (t₁, d.server) := by
    rw [hcalls, hd]
    rfl
  exact hp.in_order hij hmi hmj (hfound hq hk) (hfound hr hl)

/-- Another iteration of the server, and a third call. -/
def threeSockets : List SystemOp :=
  twoSockets ++ [.netServer (fun _ => 0) none, .call 0 (fun _ => 0) (.netSocket 2)]

/-- The third call finds the reply to the second. -/
theorem replies_in_order_three :
    ∃ w, System.run (System.boot poolState (fun _ => 0) (fun _ => 0)) threeSockets = some w ∧
      ∃ r, w.log[2]? = some r ∧ r.received = some (.reply 4 1) ∧ 1 < 2 ∧
      ∃ t c d, (callsOf threeSockets)[2]? = some (t, d) ∧ (callsOf threeSockets)[1]? = some (t, c) ∧
        c.server = 4 ∧
        ∀ i b q k, i < 2 → (callsOf threeSockets)[i]? = some (t, b) → w.log[i]? = some q →
          q.received = some (.reply 4 k) → k < 1 := by
  have hlog : (System.run (System.boot poolState (fun _ => 0) (fun _ => 0)) threeSockets).map
      (fun w => w.log[2]?) = some (some ⟨2, 4, some (.reply 4 1)⟩) := by decide +kernel
  obtain ⟨w, hrun, hr⟩ := Option.map_eq_some_iff.mp hlog
  refine ⟨w, hrun, _, hr, rfl, ?_⟩
  exact replies_in_order poolState_initial _ _ threeSockets (by decide) w hrun hr rfl

end Hydra.Server
