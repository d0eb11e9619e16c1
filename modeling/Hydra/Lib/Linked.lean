import Mathlib

/-!
# Singly linked lists

Linked lists over an arbitrary pointer type whose null pointer is `0`. The links are a function
`next`, so the same rules serve lists whose links are bytes of a memory and lists of records.
`Seg next p l q` says that following the links from `p` passes exactly the nodes `l` and arrives
at `q`; `Chain next p l` is the null-terminated case. A chain is determined by its head
(`Chain.unique`) and so never passes a node twice (`Chain.nodup`).

`walk` is the loop `while (p && !stop(p)) p = p->next;` with a bound on its number of tests. On a
chain it ends and finds the first node that satisfies `stop` (`walk_chain`). The next sections
read a list off its links, and link a node in front of the first one or behind the last.

A `Queue` is a chain with a pointer to its last node. Nodes are linked behind the last one
(`Queue.concat`) and taken off at the front (`Queue.uncons`).
-/

namespace Linked

variable {α : Type*} [Zero α]

/-- Following `next` from `p` passes exactly the nodes `l` and arrives at `q`. -/
def Seg (next : α → α) : α → List α → α → Prop
  | p, [], q => p = q
  | p, a :: l, q => p = a ∧ a ≠ 0 ∧ Seg next (next a) l q

/-- A null-terminated segment. -/
def Chain (next : α → α) (p : α) (l : List α) : Prop := Seg next p l 0

/-! ## Segments -/

/-- A segment of a concatenation is a segment of each part, meeting at some pointer. -/
lemma seg_append {next : α → α} {p q : α} {l₁ l₂ : List α} :
    Seg next p (l₁ ++ l₂) q ↔ ∃ r, Seg next p l₁ r ∧ Seg next r l₂ q := by
  induction l₁ generalizing p with
  | nil => simp [Seg]
  | cons a l₁ ih => simp [Seg, ih, and_assoc]

lemma Seg.congr {next next' : α → α} {p q : α} {l : List α} (h : Seg next p l q)
    (e : ∀ a ∈ l, next' a = next a) : Seg next' p l q := by
  induction l generalizing p with
  | nil => exact h
  | cons a l ih =>
    obtain ⟨hp, ha, hl⟩ := h
    refine ⟨hp, ha, ?_⟩
    rw [e a (by simp)]
    exact ih hl (fun b hb => e b (by simp [hb]))

lemma Seg.ne_zero {next : α → α} {p q : α} {l : List α} (h : Seg next p l q) {a : α}
    (ha : a ∈ l) : a ≠ 0 := by
  induction l generalizing p with
  | nil => cases ha
  | cons b l ih =>
    obtain ⟨_, hb, hl⟩ := h
    cases ha with
    | head => exact hb
    | tail _ ha => exact ih hl ha

/-! ## Chains -/

namespace Chain

variable {next : α → α} {p : α} {l : List α}

@[simp] lemma nil_iff : Chain next p [] ↔ p = 0 := Iff.rfl

@[simp] lemma cons_iff {a : α} : Chain next p (a :: l) ↔ p = a ∧ a ≠ 0 ∧ Chain next (next a) l :=
  Iff.rfl

lemma congr {next' : α → α} (h : Chain next p l) (e : ∀ a ∈ l, next' a = next a) :
    Chain next' p l := Seg.congr h e

lemma ne_zero (h : Chain next p l) {a : α} (ha : a ∈ l) : a ≠ 0 := Seg.ne_zero h ha

lemma head_eq_zero (h : Chain next p l) : p = 0 ↔ l = [] := by
  cases l with
  | nil => simpa using h
  | cons a l =>
    obtain ⟨hp, ha, _⟩ := h
    simp [hp, ha]

lemma unique {l' : List α} (h : Chain next p l) (h' : Chain next p l') : l = l' := by
  induction l generalizing p l' with
  | nil => exact (h'.head_eq_zero.mp h).symm
  | cons a l ih =>
    obtain ⟨hp, ha, hl⟩ := h
    cases l' with
    | nil => exact absurd (hp.symm.trans h') ha
    | cons a' l' =>
      obtain ⟨hp', _, hl'⟩ := h'
      have e : a = a' := hp.symm.trans hp'
      subst e
      rw [ih hl hl']

/-- A null-terminated chain passes no node twice. -/
lemma nodup (h : Chain next p l) : l.Nodup := by
  induction l generalizing p with
  | nil => exact List.nodup_nil
  | cons a l ih =>
    obtain ⟨hp, ha, hl⟩ := h
    refine List.nodup_cons.mpr ⟨fun hmem => ?_, ih hl⟩
    -- a second visit to `a` would start a shorter chain from the same pointer
    obtain ⟨s, t, rfl⟩ := List.append_of_mem hmem
    obtain ⟨r, _, hr⟩ := seg_append.mp hl
    obtain ⟨rfl, hrest⟩ := hr
    have hshort : Chain next r (r :: t) := ⟨rfl, hrest⟩
    have hlong : Chain next r (r :: (s ++ r :: t)) := ⟨rfl, ha, hl⟩
    have e := hshort.unique hlong
    have hlen := congrArg List.length e
    simp at hlen
    omega

lemma next_eq {a : α} {s t : List α} (h : Chain next p (s ++ a :: t)) : next a = t.headD 0 := by
  obtain ⟨r, _, hr⟩ := seg_append.mp h
  obtain ⟨rfl, _, ht⟩ := hr
  cases t with
  | nil => exact ht
  | cons b t => exact ht.1

lemma next_ne_head {c a : α} {t : List α} (h : Chain next p (c :: t)) (ha : a ∈ c :: t) :
    next a ≠ c := by
  have hnd := List.nodup_cons.mp h.nodup
  have hc : c ≠ 0 := h.ne_zero (by simp)
  obtain ⟨s, u, e⟩ := List.append_of_mem ha
  rw [e] at h
  rw [h.next_eq]
  cases u with
  | nil => exact hc.symm
  | cons b u =>
    -- `b` lies behind `a`, so it is not the first node
    rintro rfl
    have hmem : b ∈ t := by
      cases s with
      | nil =>
        injection e with _ e
        simp [e]
      | cons d s =>
        injection e with _ e
        simp [e]
    exact hnd.1 hmem

end Chain

/-! ## The list walk -/

section Walk

variable [DecidableEq α]

/-- `while (p && !stop(p)) p = next(p);` with at most `fuel` tests of the loop condition, and
`none` when these do not suffice. -/
def walk (next : α → α) (stop : α → Bool) : Nat → α → Option α
  | 0, _ => none
  | fuel + 1, p => if p = 0 ∨ stop p then some p else walk next stop fuel (next p)

/-- On a chain the walk ends at the first node that satisfies `stop`, or at null. -/
lemma walk_chain {next : α → α} {stop : α → Bool} {p : α} {l : List α} {fuel : Nat}
    (h : Chain next p l) (hf : l.length < fuel) :
    walk next stop fuel p = some ((l.find? stop).getD 0) := by
  induction l generalizing p fuel with
  | nil =>
    obtain ⟨n, rfl⟩ : ∃ n, fuel = n + 1 := ⟨fuel - 1, by simp at hf; omega⟩
    simp [walk, Chain.nil_iff.mp h]
  | cons a l ih =>
    obtain ⟨n, rfl⟩ : ∃ n, fuel = n + 1 := ⟨fuel - 1, by omega⟩
    obtain ⟨rfl, ha, hl⟩ := h
    cases hs : stop p with
    | true => simp [walk, hs]
    | false =>
      have hrec := ih hl (by simpa using hf)
      simpa [walk, ha, hs] using hrec

lemma Chain.find_prev_head {next : α → α} {p c : α} {t : List α} (h : Chain next p (c :: t)) :
    (c :: t).find? (fun x => next x = c) = none := by
  refine List.find?_eq_none.mpr fun x hx => ?_
  simpa using h.next_ne_head hx

/-- Looking for the node that links to `c` finds the one in front of `c`. -/
lemma Chain.find_prev {next : α → α} {p a c : α} {s t : List α}
    (h : Chain next p (s ++ a :: c :: t)) :
    (s ++ a :: c :: t).find? (fun x => next x = c) = some a := by
  refine List.find?_eq_some_iff_append.mpr ⟨by simpa using h.next_eq, s, c :: t, rfl, ?_⟩
  intro x hx
  obtain ⟨u, v, rfl⟩ := List.append_of_mem hx
  have hnd := h.nodup
  rw [List.append_assoc, List.cons_append] at h
  have e := h.next_eq
  -- what follows `x` is in `v` or is `a`, and `c` is neither
  cases v with
  | nil =>
    have hac : a ≠ c := by
      rintro rfl
      simp [List.nodup_append] at hnd
    simpa [e] using hac
  | cons d v =>
    have hdc : d ≠ c := by
      rintro rfl
      simp [List.nodup_append] at hnd
    simpa [e] using hdc

end Walk

/-! ## Reading a list off -/

section Follow

variable [DecidableEq α]

/-- The first nodes reached from a pointer, at most `n` of them. -/
def follow (next : α → α) : Nat → α → List α
  | 0, _ => []
  | n + 1, p => if p = 0 then [] else p :: follow next n (next p)

/-- A chain is read off with its length as the bound, or a larger one. -/
lemma Chain.follow_eq {next : α → α} {p : α} {l : List α} {n : Nat} (h : Chain next p l)
    (hn : l.length ≤ n) : follow next n p = l := by
  induction l generalizing p n with
  | nil =>
    cases n with
    | zero => rfl
    | succ n => simp [follow, Chain.nil_iff.mp h]
  | cons a l ih =>
    obtain ⟨rfl, ha, hl⟩ := h
    cases n with
    | zero => cases hn
    | succ n =>
      unfold follow
      rw [if_neg ha, ih hl (by simpa using hn)]

end Follow

/-! ## Edits -/

lemma Chain.push {next next' : α → α} {p x : α} {l : List α} (h : Chain next p l) (hx : x ≠ 0)
    (hxn : next' x = p) (e : ∀ a ∈ l, next' a = next a) : Chain next' x (x :: l) := by
  refine ⟨rfl, hx, ?_⟩
  rw [hxn]
  exact h.congr e

/-- Linking a fresh node behind the last one. -/
lemma Chain.snoc {next next' : α → α} {p t x : α} {l : List α} (h : Chain next p (l ++ [t]))
    (hx : x ≠ 0) (hxn : next' x = 0) (htn : next' t = x) (e : ∀ a ∈ l, next' a = next a) :
    Chain next' p (l ++ [t] ++ [x]) := by
  obtain ⟨r, hl, hr⟩ := seg_append.mp h
  obtain ⟨rfl, ht, _⟩ := hr
  rw [List.append_assoc]
  refine seg_append.mpr ⟨r, hl.congr e, rfl, ht, ?_⟩
  exact ⟨htn, hx, hxn⟩

/-! ## Queues -/

/-- A chain with a pointer to its last node, which is null if there is none. -/
structure Queue (next : α → α) (head tail : α) (l : List α) : Prop where
  chain : Chain next head l
  tail_eq : tail = l.getLastD 0

namespace Queue

variable {next next' : α → α} {head tail : α} {l : List α}

lemma congr (h : Queue next head tail l) (e : ∀ a ∈ l, next' a = next a) :
    Queue next' head tail l :=
  ⟨h.chain.congr e, h.tail_eq⟩

lemma nil_iff : Queue next head tail [] ↔ head = 0 ∧ tail = 0 :=
  ⟨fun h => ⟨h.chain, h.tail_eq⟩, fun h => ⟨h.1, h.2⟩⟩

lemma tail_mem (h : Queue next head tail l) (hne : head ≠ 0) : tail ∈ l := by
  obtain ⟨hc, ht⟩ := h
  rcases List.eq_nil_or_concat l with rfl | ⟨l', t, rfl⟩
  · exact absurd hc hne
  · rw [List.concat_eq_append] at ht ⊢
    rw [ht, List.getLastD_concat]
    exact List.mem_concat_self

lemma tail_eq_zero (h : Queue next head tail l) : tail = 0 ↔ head = 0 := by
  constructor
  · intro ht
    by_contra hne
    exact h.chain.ne_zero (h.tail_mem hne) ht
  · intro h0
    obtain ⟨hc, ht⟩ := h
    rw [ht, hc.head_eq_zero.mp h0]
    rfl

lemma next_tail (h : Queue next head tail l) (hne : head ≠ 0) : next tail = 0 := by
  obtain ⟨hc, ht⟩ := h
  rcases List.eq_nil_or_concat l with rfl | ⟨l', t, rfl⟩
  · exact absurd hc hne
  · rw [List.concat_eq_append] at hc ht
    rw [List.getLastD_concat] at ht
    rw [ht, hc.next_eq]
    rfl

/-- A fresh node linked behind the last one makes the queue one longer. -/
lemma concat [DecidableEq α] (h : Queue next head tail l) {p : α} (h0 : p ≠ 0) (hp : next' p = 0)
    (htail : head ≠ 0 → next' tail = p) (e : ∀ a ∈ l, a ≠ tail → next' a = next a) :
    Queue next' (if head = 0 then p else head) p (l ++ [p]) := by
  obtain ⟨hc, ht⟩ := h
  refine ⟨?_, by simp⟩
  rcases List.eq_nil_or_concat l with rfl | ⟨l', t, rfl⟩
  · rw [if_pos (Chain.nil_iff.mp hc)]
    exact ⟨rfl, h0, hp⟩
  · rw [List.concat_eq_append] at hc ht e ⊢
    rw [List.getLastD_concat] at ht
    have hhead : head ≠ 0 := by
      rw [Ne, hc.head_eq_zero]
      simp
    rw [if_neg hhead]
    have hnd := List.nodup_append.mp hc.nodup
    apply hc.snoc h0 hp
    · rw [← ht]
      exact htail hhead
    · intro a ha
      apply e a (List.mem_append_left _ ha)
      rw [ht]
      exact hnd.2.2 a ha t List.mem_cons_self

/-- The first node taken off. -/
lemma uncons [DecidableEq α] {a : α} (h : Queue next head tail (a :: l)) :
    Queue next (next head) (if next head = 0 then 0 else tail) l := by
  obtain ⟨⟨hhead, _, hrest⟩, ht⟩ := h
  rw [hhead]
  refine ⟨hrest, ?_⟩
  rcases List.eq_nil_or_concat l with rfl | ⟨l', t, rfl⟩
  · rw [if_pos (Chain.nil_iff.mp hrest)]
    rfl
  · rw [List.concat_eq_append] at hrest ht ⊢
    have hne : next a ≠ 0 := by
      rw [Ne, Chain.head_eq_zero hrest]
      simp
    rw [if_neg hne, ht, ← List.cons_append, List.getLastD_concat, List.getLastD_concat]

end Queue

end Linked
