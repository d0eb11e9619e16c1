import Mathlib

/-!
# The nearest element

A loop that looks for the element with the least key below a bound: it remembers an element and the
bound, and takes a new one when its key is below the bound, which the key then becomes (`closer`).
Not every element counts. What is remembered at the end is the first of the elements with the least
key (`foldl_closer`), so it does not depend on the order of the elements when their keys are
distinct (`IsNearest.eq_of_perm`).
-/

namespace Nearest

variable {α κ : Type*} [LinearOrder κ] (p : α → Prop) (key : α → κ)

/-- One round: `a` is remembered if it counts and its key is below the bound. -/
def closer [DecidablePred p] (best : α × κ) (a : α) : α × κ :=
  if p a ∧ key a < best.2 then (a, key a) else best

/-- `a` is the element number `i`; of those that count and are below the bound it has the least key,
and none in front of it has the same. -/
structure IsNearest (bound : κ) (l : List α) (i : Nat) (a : α) : Prop where
  get : l[i]? = some a
  counts : p a
  below : key a < bound
  least : ∀ b ∈ l, p b → key a ≤ key b
  first : ∀ j < i, ∀ b, l[j]? = some b → p b → key a < key b

variable {p key} {bound : κ} {l : List α} {i : Nat} {a b : α}

/-- An element behind the list that is not nearer changes nothing. -/
lemma IsNearest.concat (h : IsNearest p key bound l i a) (hb : p b → key a ≤ key b) :
    IsNearest p key bound (l ++ [b]) i a where
  get := by rw [List.getElem?_append_left (List.getElem?_eq_some_iff.mp h.get).1, h.get]
  counts := h.counts
  below := h.below
  least := List.forall_mem_append.mpr ⟨h.least, List.forall_mem_singleton.mpr hb⟩
  first j hj c hc := by
    have hlt : i < l.length := (List.getElem?_eq_some_iff.mp h.get).1
    rw [List.getElem?_append_left (hj.trans hlt)] at hc
    exact h.first j hj c hc

/-- An element behind the list is the nearest one if it is nearer than the others. -/
lemma isNearest_concat (hb : p b) (hbelow : key b < bound)
    (h : ∀ c ∈ l, p c → key b < key c) :
    IsNearest p key bound (l ++ [b]) l.length b where
  get := List.getElem?_concat_length
  counts := hb
  below := hbelow
  least := List.forall_mem_append.mpr
    ⟨fun c hc hcount => (h c hc hcount).le, List.forall_mem_singleton.mpr fun _ => le_rfl⟩
  first j hj c hc := by
    rw [List.getElem?_append_left hj] at hc
    exact h c (List.mem_of_getElem? hc)

variable (p key) in
/-- What the loop remembers at the end: what it began with, if no element that counts is below the
bound, and else the nearest one. -/
theorem foldl_closer [DecidablePred p] (best : α) (bound : κ) (l : List α) :
    ((∀ a ∈ l, p a → bound ≤ key a) ∧ l.foldl (closer p key) (best, bound) = (best, bound)) ∨
    ∃ i a, IsNearest p key bound l i a ∧
      l.foldl (closer p key) (best, bound) = (a, key a) := by
  induction l using List.reverseRecOn with
  | nil => exact .inl ⟨List.forall_mem_nil _, rfl⟩
  | append_singleton l b ih =>
    rw [List.foldl_concat]
    rcases ih with ⟨hnone, hfold⟩ | ⟨i, a, ha, hfold⟩
    · rw [hfold]
      by_cases hb : p b ∧ key b < bound
      · refine .inr ⟨l.length, b, isNearest_concat hb.1 hb.2 fun c hc hcount => ?_, if_pos hb⟩
        exact hb.2.trans_le (hnone c hc hcount)
      · have hfar : p b → bound ≤ key b := fun hcount => not_lt.mp fun hlt => hb ⟨hcount, hlt⟩
        refine .inl ⟨List.forall_mem_append.mpr ⟨hnone, ?_⟩, if_neg hb⟩
        exact List.forall_mem_singleton.mpr hfar
    · rw [hfold]
      right
      by_cases hb : p b ∧ key b < key a
      · refine ⟨l.length, b, isNearest_concat hb.1 (hb.2.trans ha.below) fun c hc hcount => ?_,
          if_pos hb⟩
        exact hb.2.trans_le (ha.least c hc hcount)
      · refine ⟨i, a, ha.concat fun hcount => ?_, if_neg hb⟩
        exact not_lt.mp fun hlt => hb ⟨hcount, hlt⟩

/-- The nearest element does not depend on the order of the list, if the keys are distinct. -/
theorem IsNearest.eq_of_perm {l' : List α} {i' : Nat} {a' : α} (h : IsNearest p key bound l i a)
    (h' : IsNearest p key bound l' i' a') (hperm : l.Perm l')
    (hdistinct : l.Pairwise fun b c => p b → key b < bound → p c → key c < bound → key b ≠ key c) :
    a' = a := by
  have hmem : a ∈ l := List.mem_of_getElem? h.get
  have hmem' : a' ∈ l := hperm.mem_iff.mpr (List.mem_of_getElem? h'.get)
  have hkey : key a = key a' :=
    le_antisymm (h.least a' hmem' h'.counts) (h'.least a (hperm.mem_iff.mp hmem) h.counts)
  by_contra hne
  have hsymm : Std.Symm fun b c : α => p b → key b < bound → p c → key c < bound → key b ≠ key c :=
    ⟨fun b c hbc hc hc' hb hb' => (hbc hb hb' hc hc').symm⟩
  exact hdistinct.forall hmem hmem' (Ne.symm hne) h.counts h.below h'.counts h'.below hkey

end Nearest
