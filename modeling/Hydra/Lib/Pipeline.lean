import Hydra.Lib.Mailbox

/-!
# Pipelines of requests

Clients that send requests to servers over first-in first-out mailboxes and do not wait for them: a
call sends its request and looks once into the box of its client. A server takes the oldest item of
its box and answers it, if it is a request, in the box of the client. Everything may get lost: a
request need not be sent, a request that is taken need not be answered, and what waits in a box may
be dropped.

The calls are numbered. The numbers of the replies that the calls of a client have found, of those
that wait for it, and of its requests that wait at the server follow each other
(`State.Inv.sorted`). So the replies of a server are found in the order of the requests, and none is
found twice (`State.Inv.in_order`); a call never finds the reply to its own request
(`State.Inv.late`).
-/

namespace Pipeline
open Mailbox

variable {ι : Type*}

/-- A request of a client, with the number of the call; the reply of a server to a request; or
something else. -/
inductive Item (ι : Type*) where
  | request (client : ι) (call : ℕ)
  | reply (server : ι) (call : ℕ)
  | other

/-- The boxes; and for each call its client and its server, and what it found. -/
structure State (ι : Type*) where
  box : ι → List (Item ι)
  made : List (ι × ι)
  found : List (Option (Item ι))

/-- What happens next: a call of a client that may send its request, and may look into its box; an
answer; something else that is posted; an item that is dropped. -/
inductive Op (ι : Type*) where
  | call (client server : ι) (sends looks : Bool)
  | answer (server : ι)
  | post (i : ι)
  | drop (i : ι)

/-- Nothing has happened. -/
def State.start : State ι := ⟨fun _ => [], [], []⟩

variable [DecidableEq ι]

/-- The call that the server replies to. -/
def Item.replyOf (server : ι) : Item ι → Option ℕ
  | .reply i call => if i = server then some call else none
  | _ => none

/-- The call of the client that makes the request. -/
def Item.requestOf (client : ι) : Item ι → Option ℕ
  | .request i call => if i = client then some call else none
  | _ => none

lemma Item.replyOf_eq_some {server : ι} {item : Item ι} {call : ℕ} :
    item.replyOf server = some call ↔ item = .reply server call := by
  cases item with
  | reply i k =>
    unfold replyOf
    rw [Option.ite_none_right_eq_some, Option.some.injEq, Item.reply.injEq]
  | request | other => exact iff_of_false nofun nofun

lemma Item.requestOf_eq_some {client : ι} {item : Item ι} {call : ℕ} :
    item.requestOf client = some call ↔ item = .request client call := by
  cases item with
  | request i k =>
    unfold requestOf
    rw [Option.ite_none_right_eq_some, Option.some.injEq, Item.request.injEq]
  | reply | other => exact iff_of_false nofun nofun

namespace State

/-- A new call that has not looked into the box. -/
def ask (s : State ι) (client server : ι) (sends : Bool) : State ι where
  box := if sends then post s.box server (.request client s.made.length) else s.box
  made := s.made ++ [(client, server)]
  found := s.found ++ [none]

/-- The last call takes what it finds. -/
def look (s : State ι) (client : ι) : State ι where
  box := take s.box client
  made := s.made
  found := s.found.dropLast ++ [(s.box client).head?]

/-- One step. -/
def step (s : State ι) : Op ι → State ι
  | .call client server sends looks =>
    let s := s.ask client server sends
    if looks then s.look client else s
  | .answer server =>
    match s.box server with
    | .request client call :: _ =>
      { s with box := post (take s.box server) client (.reply server call) }
    | _ => s
  | .post i => { s with box := post s.box i .other }
  | .drop i => { s with box := take s.box i }

/-- The calls of the client that found replies of the server: the calls replied to. -/
def got (s : State ι) (client server : ι) : List ℕ :=
  (s.made.zip s.found).filterMap fun x =>
    if x.1.1 = client then x.2.bind (Item.replyOf server) else none

/-- The calls of the client to the server, as far as they are not lost: found, replied to, and
waiting. -/
def pipe (s : State ι) (client server : ι) : List ℕ :=
  s.got client server ++ (s.box client).filterMap (Item.replyOf server) ++
    (s.box server).filterMap (Item.requestOf client)

/-- The items are those of the calls that were made, a reply is found by a later call of the client,
and the calls follow each other. -/
structure Inv (s : State ι) : Prop where
  length : s.found.length = s.made.length
  request : ∀ i client call, .request client call ∈ s.box i → s.made[call]? = some (client, i)
  reply : ∀ i server call, .reply server call ∈ s.box i → s.made[call]? = some (i, server)
  late : ∀ j server call, s.found[j]? = some (some (Item.reply server call)) → call < j ∧
    ∃ client server', s.made[j]? = some (client, server') ∧ s.made[call]? = some (client, server)
  sorted : ∀ client server, (s.pipe client server).Pairwise (· < ·)

variable {s : State ι}

lemma start_inv : Inv (start : State ι) where
  length := rfl
  request _ _ _ h := nomatch h
  reply _ _ _ h := nomatch h
  late _ _ _ h := nomatch h
  sorted _ _ := .nil

/-! ## Boxes -/

omit [DecidableEq ι] in
lemma filterMap_cons_toList {α β : Type*} (f : α → Option β) (x : α) (l : List α) :
    (x :: l).filterMap f = (f x).toList ++ l.filterMap f := by
  rw [List.filterMap_cons]
  cases f x with
  | none => rfl
  | some y => rfl

omit [DecidableEq ι] in
lemma head_append_tail {α β : Type*} (f : α → Option β) (l : List α) :
    (l.head?.bind f).toList ++ l.tail.filterMap f = l.filterMap f := by
  cases l with
  | nil => rfl
  | cons x l => exact (filterMap_cons_toList f x l).symm

lemma take_sublist {α : Type*} (b : ι → List α) (i j : ι) : (take b i j).Sublist (b j) := by
  rcases eq_or_ne j i with rfl | hne
  · rw [take_self]
    exact List.tail_sublist _
  · rw [take_of_ne b hne]

lemma filterMap_post {α β : Type*} (b : ι → List α) (i j : ι) (a : α) (f : α → Option β) :
    (post b i a j).filterMap f = (b j).filterMap f ++ if j = i then (f a).toList else [] := by
  rcases eq_or_ne j i with rfl | hne
  · rw [post_self, List.filterMap_append, if_pos rfl, filterMap_cons_toList, List.filterMap_nil,
      List.append_nil]
  · rw [post_of_ne b hne, if_neg hne, List.append_nil]

/-! ## The pipelines -/

lemma mem_got {client server : ι} {k : ℕ} (hk : k ∈ s.got client server) :
    ∃ (j : ℕ) (server' : ι), s.made[j]? = some (client, server') ∧
      s.found[j]? = some (some (Item.reply server k)) := by
  obtain ⟨⟨⟨c, server'⟩, x⟩, hmem, hx⟩ := List.mem_filterMap.mp hk
  obtain ⟨j, hj⟩ := List.mem_iff_getElem?.mp hmem
  obtain ⟨hmade, hfound⟩ := List.getElem?_zip_eq_some.mp hj
  rw [Option.ite_none_right_eq_some] at hx
  obtain ⟨rfl, hbind⟩ := hx
  obtain ⟨item, rfl, hitem⟩ := Option.bind_eq_some_iff.mp hbind
  obtain rfl := Item.replyOf_eq_some.mp hitem
  exact ⟨j, server', hmade, hfound⟩

lemma look_found (s : State ι) (client server : ι) (sends : Bool) :
    ((s.ask client server sends).look client).found =
      s.found ++ [((s.ask client server sends).box client).head?] := by
  simp [look, ask]

namespace Inv

/-- Items may get lost. -/
lemma shrink (h : Inv s) {box : ι → List (Item ι)} (hbox : ∀ i, (box i).Sublist (s.box i)) :
    Inv { s with box := box } where
  length := h.length
  request i client call hmem := h.request i client call ((hbox i).subset hmem)
  reply i server call hmem := h.reply i server call ((hbox i).subset hmem)
  late := h.late
  sorted client server := (h.sorted client server).sublist
    (.append (.append (.refl _) ((hbox _).filterMap _)) ((hbox _).filterMap _))

/-- Other items do not count. -/
lemma post_other (h : Inv s) (i : ι) : Inv { s with box := post s.box i .other } where
  length := h.length
  request j client call hmem := by
    rcases mem_post.mp hmem with hold | ⟨_, hnew⟩
    · exact h.request j client call hold
    · cases hnew
  reply j server call hmem := by
    rcases mem_post.mp hmem with hold | ⟨_, hnew⟩
    · exact h.reply j server call hold
    · cases hnew
  late := h.late
  sorted client server := by
    have e : pipe { s with box := post s.box i .other } client server =
        s.pipe client server := by
      unfold pipe
      simp only [filterMap_post, Item.replyOf, Item.requestOf, Option.toList_none, ite_self,
        List.append_nil]
      rfl
    rw [e]
    exact h.sorted client server

/-- A request turns into its reply, at the same place of the pipeline. -/
lemma answer (h : Inv s) {server client : ι} {call : ℕ} {l : List (Item ι)}
    (hb : s.box server = .request client call :: l) :
    Inv { s with box := post (take s.box server) client (.reply server call) } := by
  have hmade := h.request server client call (by rw [hb]; exact List.mem_cons_self)
  refine ⟨h.length, fun i client' call' hmem => ?_, fun i server' call' hmem => ?_, h.late,
    fun client' server' => ?_⟩
  · rcases mem_post.mp hmem with hold | ⟨_, hnew⟩
    · exact h.request i client' call' (mem_of_mem_take hold)
    · cases hnew
  · rcases mem_post.mp hmem with hold | ⟨rfl, hnew⟩
    · exact h.reply i server' call' (mem_of_mem_take hold)
    · obtain ⟨rfl, rfl⟩ := Item.reply.inj hnew
      exact hmade
  · have hreplies : (take s.box server client').filterMap (Item.replyOf server') =
        (s.box client').filterMap (Item.replyOf server') := by
      rcases eq_or_ne client' server with rfl | hne
      · rw [take_self, hb, filterMap_cons_toList]
        rfl
      · rw [take_of_ne _ hne]
    have hrequests : (s.box server').filterMap (Item.requestOf client') =
        (if client' = client ∧ server' = server then [call] else []) ++
          (take s.box server server').filterMap (Item.requestOf client') := by
      rcases eq_or_ne server' server with rfl | hne
      · rw [take_self, hb, filterMap_cons_toList]
        congr 1
        by_cases hc : client' = client
        · simp [Item.requestOf, hc]
        · simp [Item.requestOf, hc, Ne.symm hc]
      · rw [take_of_ne _ hne, if_neg fun e => hne e.2]
        rfl
    have hnew : (if client' = client then (Item.replyOf server' (.reply server call)).toList
        else []) = if client' = client ∧ server' = server then [call] else [] := by
      by_cases hs : server' = server
      · simp [Item.replyOf, hs]
      · simp [Item.replyOf, hs, Ne.symm hs]
    have e : pipe { s with box := post (take s.box server) client (.reply server call) }
        client' server' = s.pipe client' server' := by
      unfold pipe
      simp only [filterMap_post, hreplies, hrequests, hnew, Item.requestOf, Option.toList_none,
        ite_self, List.append_nil, List.append_assoc]
      rfl
    rw [e]
    exact h.sorted client' server'

/-- The pipelines hold calls that were made. -/
lemma pipe_lt (h : Inv s) {client server : ι} {k : ℕ} (hk : k ∈ s.pipe client server) :
    k < s.made.length := by
  have hmade : ∀ {x}, s.made[k]? = some x → k < s.made.length := fun hx =>
    (List.getElem?_eq_some_iff.mp hx).1
  rcases List.mem_append.mp hk with hk | hk
  · rcases List.mem_append.mp hk with hk | hk
    · obtain ⟨j, _, _, hj⟩ := mem_got hk
      obtain ⟨_, _, _, _, hx⟩ := h.late _ _ _ hj
      exact hmade hx
    · obtain ⟨item, hmem, hitem⟩ := List.mem_filterMap.mp hk
      obtain rfl := Item.replyOf_eq_some.mp hitem
      exact hmade (h.reply _ _ _ hmem)
  · obtain ⟨item, hmem, hitem⟩ := List.mem_filterMap.mp hk
    obtain rfl := Item.requestOf_eq_some.mp hitem
    exact hmade (h.request _ _ _ hmem)

lemma ask_got (h : Inv s) (client server : ι) (sends : Bool) (client' server' : ι) :
    (s.ask client server sends).got client' server' = s.got client' server' := by
  unfold got State.ask
  simp only
  rw [List.zip_append h.length.symm, List.filterMap_append]
  simp

/-- A new call is the last one of its pipeline. -/
lemma ask (h : Inv s) (client server : ι) (sends : Bool) : Inv (s.ask client server sends) := by
  have hlast : (s.made ++ [(client, server)])[s.made.length]? = some (client, server) :=
    List.getElem?_concat_length
  have hold : ∀ {k x}, s.made[k]? = some x → (s.made ++ [(client, server)])[k]? = some x :=
    fun {k x} hx => by
      obtain ⟨hlt, _⟩ := List.getElem?_eq_some_iff.mp hx
      rwa [List.getElem?_append_left hlt]
  refine ⟨?_, fun i client' call hmem => ?_, fun i server' call hmem => ?_,
    fun j server' call hj => ?_, fun client' server' => ?_⟩
  · simp [State.ask, h.length]
  · simp only [State.ask] at hmem ⊢
    split at hmem
    · rcases mem_post.mp hmem with hmem | ⟨rfl, hnew⟩
      · exact hold (h.request i client' call hmem)
      · obtain ⟨rfl, rfl⟩ := Item.request.inj hnew
        exact hlast
    · exact hold (h.request i client' call hmem)
  · simp only [State.ask] at hmem ⊢
    split at hmem
    · rcases mem_post.mp hmem with hmem | ⟨_, hnew⟩
      · exact hold (h.reply i server' call hmem)
      · cases hnew
    · exact hold (h.reply i server' call hmem)
  · have hfound : s.found[j]? = some (some (Item.reply server' call)) := by
      rcases lt_or_ge j s.found.length with hlt | hge
      · exact (List.getElem?_append_left hlt).symm.trans hj
      · have hj' := (List.getElem?_append_right hge).symm.trans hj
        rw [List.getElem?_singleton] at hj'
        split at hj' <;> cases hj'
    obtain ⟨hlt, c, s', hc, hk⟩ := h.late j server' call hfound
    exact ⟨hlt, c, s', hold hc, hold hk⟩
  · have e : (s.ask client server sends).pipe client' server' = s.pipe client' server' ++
        if sends ∧ client' = client ∧ server' = server then [s.made.length] else [] := by
      unfold pipe
      rw [h.ask_got]
      unfold State.ask
      cases sends with
      | false => simp
      | true =>
        by_cases hc : client = client'
        · simp [filterMap_post, Item.replyOf, Item.requestOf, hc]
        · simp [filterMap_post, Item.replyOf, Item.requestOf, hc, Ne.symm hc]
    rw [e, List.pairwise_append]
    refine ⟨h.sorted client' server', by split <;> simp, fun k hk n hn => ?_⟩
    split at hn
    · rw [List.mem_singleton.mp hn]
      exact h.pipe_lt hk
    · cases hn

/-- What a call finds moves on in its pipeline. -/
lemma look (h : Inv s) (client server : ι) (sends : Bool) :
    Inv ((s.ask client server sends).look client) := by
  have h₁ := h.ask client server sends
  have hbox : ∀ i, (((s.ask client server sends).look client).box i).Sublist
      ((s.ask client server sends).box i) := fun i => take_sublist _ client i
  have hfound := look_found s client server sends
  have hreplies : ∀ i server' call, .reply server' call ∈ (s.ask client server sends).box i →
      call < s.made.length := by
    intro i server' call hmem
    have hold : .reply server' call ∈ s.box i := by
      simp only [State.ask] at hmem
      split at hmem
      · rcases mem_post.mp hmem with hold | ⟨_, hnew⟩
        · exact hold
        · cases hnew
      · exact hmem
    exact (List.getElem?_eq_some_iff.mp (h.reply i server' call hold)).1
  refine ⟨?_, fun i client' call hmem => h₁.request i client' call ((hbox i).subset hmem),
    fun i server' call hmem => h₁.reply i server' call ((hbox i).subset hmem),
    fun j server' call hj => ?_, fun client' server' => ?_⟩
  · rw [hfound]
    simp [State.look, State.ask, h.length]
  · rw [hfound] at hj
    rcases lt_or_ge j s.found.length with hlt | hge
    · refine h₁.late j server' call ?_
      rw [List.getElem?_append_left hlt] at hj
      exact (List.getElem?_append_left hlt).trans hj
    · rw [List.getElem?_append_right hge, List.getElem?_singleton] at hj
      split at hj
      · next hj0 =>
        obtain rfl : j = s.made.length := by
          rw [← h.length]
          omega
        have hmem := List.mem_of_mem_head? (Option.some.inj hj)
        exact ⟨hreplies _ _ _ hmem, client, server, List.getElem?_concat_length,
          h₁.reply _ _ _ hmem⟩
      · cases hj
  · refine (h₁.sorted client' server').sublist (.append ?_ ((hbox _).filterMap _))
    have hgot : ((s.ask client server sends).look client).got client' server' =
        s.got client' server' ++ if client' = client then
          (((s.ask client server sends).box client).head?.bind (Item.replyOf server')).toList
          else [] := by
      unfold got
      rw [hfound]
      simp only [State.look, State.ask]
      rw [List.zip_append h.length.symm, List.filterMap_append]
      by_cases hc : client = client'
      · simp [hc, filterMap_cons_toList]
      · simp [hc, Ne.symm hc]
    have hmoved : ((s.ask client server sends).look client).got client' server' ++
        (((s.ask client server sends).look client).box client').filterMap (Item.replyOf server') =
        (s.ask client server sends).got client' server' ++
          ((s.ask client server sends).box client').filterMap (Item.replyOf server') := by
      rw [hgot, h.ask_got, List.append_assoc]
      congr 1
      simp only [State.look]
      by_cases hc : client' = client
      · rw [if_pos hc, hc, take_self, head_append_tail]
      · rw [if_neg hc, take_of_ne _ hc, List.nil_append]
    rw [hmoved]

/-- Every step keeps the calls in order. -/
lemma step (h : Inv s) (op : Op ι) : Inv (s.step op) := by
  cases op with
  | call client server sends looks =>
    cases looks with
    | true => exact h.look client server sends
    | false => exact h.ask client server sends
  | answer server =>
    unfold State.step
    simp only
    split
    · next hb => exact h.answer hb
    · exact h
  | post i => exact h.post_other i
  | drop i => exact h.shrink fun j => take_sublist _ i j

/-- The replies of a server are found in the order of the requests. -/
theorem in_order (h : Inv s) {i j : ℕ} (hij : i < j) {client server server₁ server₂ : ι} {k l : ℕ}
    (hmi : s.made[i]? = some (client, server₁)) (hmj : s.made[j]? = some (client, server₂))
    (hi : s.found[i]? = some (some (.reply server k)))
    (hj : s.found[j]? = some (some (.reply server l))) : k < l := by
  have hgot := (List.pairwise_append.mp (List.pairwise_append.mp (h.sorted client server)).1).1
  have hsorted := List.pairwise_iff_getElem.mp (List.pairwise_filterMap.mp hgot)
  have hzip : ∀ {m x y}, s.made[m]? = some x → s.found[m]? = some y →
      (s.made.zip s.found)[m]? = some (x, y) := fun hx hy =>
    List.getElem?_zip_eq_some.mpr ⟨hx, hy⟩
  obtain ⟨hlti, ei⟩ := List.getElem?_eq_some_iff.mp (hzip hmi hi)
  obtain ⟨hltj, ej⟩ := List.getElem?_eq_some_iff.mp (hzip hmj hj)
  refine hsorted i j hlti hltj hij k ?_ l ?_
  · rw [ei]
    simp [Item.replyOf]
  · rw [ej]
    simp [Item.replyOf]

end Inv

end State

end Pipeline
