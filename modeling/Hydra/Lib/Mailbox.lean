import Mathlib

/-!
# Mailboxes

A family of first-in first-out queues, one for each address: the abstract view of a message system
whose receivers take the oldest letter of their own box. A run is a list of events: letters posted
to an address, and receipts an address has for the letters it took. What a receipt says about its
letter is a parameter `R`. `Replay R` says that the events are possible one after the other.

The law of conservation `Replay.conservation` holds for every address of every run: what was in the
box, followed by what was posted to it, is what was taken from it, followed by what is in the box at
the end. From empty boxes the `k`-th receipt therefore is one for the `k`-th letter posted
(`Replay.taken_getElem`), and the letters not yet taken are the rest of those posted
(`Replay.pending`).
-/

namespace Mailbox

variable {ι α β : Type*}

/-- An address gets a letter, or has a receipt for the one it took. -/
inductive Event (ι α β : Type*) where
  | posted (i : ι) (a : α)
  | taken (i : ι) (x : β)

variable [DecidableEq ι]

/-- The letters posted to an address. -/
def postedTo (i : ι) : List (Event ι α β) → List α
  | [] => []
  | .posted j a :: es => if j = i then a :: postedTo i es else postedTo i es
  | .taken _ _ :: es => postedTo i es

/-- The receipts of an address. -/
def takenBy (i : ι) : List (Event ι α β) → List β
  | [] => []
  | .posted _ _ :: es => takenBy i es
  | .taken j x :: es => if j = i then x :: takenBy i es else takenBy i es

/-- Put a letter behind the others. -/
def post (b : ι → List α) (i : ι) (a : α) : ι → List α := Function.update b i (b i ++ [a])

/-- Drop the oldest letter. -/
def take (b : ι → List α) (i : ι) : ι → List α := Function.update b i (b i).tail

/-- The events lead from the boxes `b` to the boxes `b'`, each receipt being one for the oldest
letter of its box at that time. -/
inductive Replay (R : α → β → Prop) : (ι → List α) → List (Event ι α β) → (ι → List α) → Prop
  | nil (b) : Replay R b [] b
  | posted {b es b'} (i a) : Replay R (post b i a) es b' → Replay R b (.posted i a :: es) b'
  | taken {b es b'} (i a x) : (b i).head? = some a → R a x → Replay R (take b i) es b' →
    Replay R b (.taken i x :: es) b'

/-! ## The boxes -/

@[simp] lemma post_self (b : ι → List α) (i : ι) (a : α) : post b i a i = b i ++ [a] := by
  simp [post]

@[simp] lemma post_of_ne (b : ι → List α) {i j : ι} (h : j ≠ i) (a : α) : post b i a j = b j := by
  simp [post, h]

lemma post_ne (b : ι → List α) (i : ι) (a : α) : post b i a ≠ b := by
  intro h
  have hi := congrFun h i
  rw [post_self] at hi
  simp at hi

lemma post_inj {b : ι → List α} {i j : ι} {a a' : α} (h : post b i a = post b j a') :
    i = j ∧ a = a' := by
  have hi := congrFun h i
  rw [post_self] at hi
  rcases eq_or_ne i j with rfl | hne
  · rw [post_self] at hi
    simpa using hi
  · rw [post_of_ne b hne] at hi
    simp at hi

@[simp] lemma take_self (b : ι → List α) (i : ι) : take b i i = (b i).tail := by simp [take]

@[simp] lemma take_of_ne (b : ι → List α) {i j : ι} (h : j ≠ i) : take b i j = b j := by
  simp [take, h]

lemma mem_post {b : ι → List α} {i j : ι} {a x : α} :
    x ∈ post b i a j ↔ x ∈ b j ∨ (j = i ∧ x = a) := by
  rcases eq_or_ne j i with rfl | hne
  · simp
  · simp [hne]

lemma mem_of_mem_take {b : ι → List α} {i j : ι} {x : α} (h : x ∈ take b i j) : x ∈ b j := by
  rcases eq_or_ne j i with rfl | hne
  · rw [take_self] at h
    exact List.mem_of_mem_tail h
  · rwa [take_of_ne b hne] at h

/-- Taking drops the oldest letter only. -/
lemma eq_or_mem_take {b : ι → List α} {i j : ι} {a x : α} {l : List α} (hb : b i = a :: l)
    (h : x ∈ b j) : x = a ∨ x ∈ take b i j := by
  rcases eq_or_ne j i with rfl | hne
  · rw [hb] at h
    rw [take_self, hb]
    exact List.mem_cons.mp h
  · right
    rwa [take_of_ne b hne]

/-! ## Runs -/

namespace Replay

variable {R : α → β → Prop} {b b' b'' : ι → List α} {es fs : List (Event ι α β)}

lemma append (h : Replay R b es b') (h' : Replay R b' fs b'') : Replay R b (es ++ fs) b'' := by
  induction h with
  | nil b => exact h'
  | posted i a _ ih => exact .posted i a (ih h')
  | taken i a x hd hx _ ih => exact .taken i a x hd hx (ih h')

/-- Nothing is lost, invented or reordered: the old letters and the posted ones are the ones the
receipts are for and those still there. -/
theorem conservation (h : Replay R b es b') (i : ι) :
    ∃ as, b i ++ postedTo i es = as ++ b' i ∧ List.Forall₂ R as (takenBy i es) := by
  induction h with
  | nil b => exact ⟨[], by simp [postedTo], .nil⟩
  | @posted b es b' j a _ ih =>
    obtain ⟨as, heq, has⟩ := ih
    refine ⟨as, ?_, has⟩
    rcases eq_or_ne j i with rfl | hne
    · simpa [postedTo] using heq
    · simpa [postedTo, hne, hne.symm] using heq
  | @taken b es b' j a x hd hx _ ih =>
    obtain ⟨as, heq, has⟩ := ih
    rcases eq_or_ne j i with rfl | hne
    · -- the oldest letter joins those with a receipt
      have hb : b j = a :: (b j).tail := (List.cons_head?_tail hd).symm
      refine ⟨a :: as, ?_, ?_⟩
      · rw [take_self] at heq
        rw [hb, List.cons_append, List.cons_append, ← heq]
        rfl
      · simpa [takenBy] using ⟨hx, has⟩
    · refine ⟨as, ?_, ?_⟩
      · simpa [postedTo, hne.symm] using heq
      · simpa [takenBy, hne] using has

/-- From empty boxes the letters are taken in the order in which they were posted. -/
theorem taken_getElem (h : Replay R (fun _ => []) es b') (i : ι) {k : Nat} {x : β}
    (hk : (takenBy i es)[k]? = some x) : ∃ a, (postedTo i es)[k]? = some a ∧ R a x := by
  obtain ⟨as, heq, has⟩ := h.conservation i
  obtain ⟨hlt, rfl⟩ := List.getElem?_eq_some_iff.mp hk
  have hlt' : k < as.length := has.length_eq ▸ hlt
  rw [List.nil_append] at heq
  refine ⟨as[k], ?_, List.forall₂_iff_get.mp has |>.2 k hlt' hlt⟩
  rw [heq, List.getElem?_append_left hlt']
  exact List.getElem?_eq_getElem hlt'

/-- From empty boxes the letters still there are those posted and not taken. -/
theorem pending (h : Replay R (fun _ => []) es b') (i : ι) :
    b' i = (postedTo i es).drop (takenBy i es).length := by
  obtain ⟨as, heq, has⟩ := h.conservation i
  rw [List.nil_append] at heq
  rw [heq, ← has.length_eq, List.drop_left]

end Replay

end Mailbox
