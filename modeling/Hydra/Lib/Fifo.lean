import Mathlib

/-!
# Bounded queues

A queue of a fixed size to which elements arrive, one after the other, and from which they are
taken. An element that arrives while the queue is full is dropped. Over any history the elements
taken and those that still wait are the accepted ones in their order, and every drop found the queue
full (`run_inv`).
-/

namespace Fifo

variable {α : Type*}

/-- An element arrives, or the oldest one is taken if there is one. -/
inductive Event (α : Type*) where
  | arrive (x : α)
  | take

/-- The queue with the elements that it has accepted, those that were taken, and for each drop the
queue that caused it. -/
structure History (α : Type*) where
  queue : List α
  accepted : List α
  dropped : List (List α)
  taken : List α

/-- Nothing has happened. -/
def History.empty : History α := ⟨[], [], [], []⟩

/-- An event at a queue of the given size. -/
def step (size : Nat) (h : History α) : Event α → History α
  | .arrive x =>
    if h.queue.length < size then
      { h with queue := h.queue ++ [x], accepted := h.accepted ++ [x] }
    else { h with dropped := h.dropped ++ [h.queue] }
  | .take =>
    match h.queue with
    | [] => h
    | x :: queue => { h with queue := queue, taken := h.taken ++ [x] }

/-- The queue after a list of events. -/
abbrev run (size : Nat) (h : History α) (events : List (Event α)) : History α :=
  events.foldl (step size) h

/-- Nothing was lost, invented or reordered but what was dropped from a full queue. -/
structure Inv (size : Nat) (h : History α) : Prop where
  bound : h.queue.length ≤ size
  full : ∀ queue ∈ h.dropped, queue.length = size
  order : h.taken ++ h.queue = h.accepted

variable {size : Nat} {h : History α}

lemma empty_inv : Inv size (History.empty : History α) :=
  ⟨Nat.zero_le size, List.forall_mem_nil _, rfl⟩

lemma step_room (hroom : h.queue.length < size) (x : α) : step size h (.arrive x) =
    { h with queue := h.queue ++ [x], accepted := h.accepted ++ [x] } := if_pos hroom

lemma step_full (hfull : ¬h.queue.length < size) (x : α) : step size h (.arrive x) =
    { h with dropped := h.dropped ++ [h.queue] } := if_neg hfull

lemma step_inv (hi : Inv size h) (event : Event α) : Inv size (step size h event) := by
  obtain ⟨hbound, hfull, horder⟩ := hi
  cases event with
  | arrive x =>
    by_cases hroom : h.queue.length < size
    · rw [step_room hroom]
      refine ⟨?_, hfull, ?_⟩
      · rw [List.length_append, List.length_singleton]
        exact hroom
      · rw [← List.append_assoc, horder]
    · rw [step_full hroom]
      refine ⟨hbound, List.forall_mem_append.mpr ⟨hfull, List.forall_mem_singleton.mpr ?_⟩, horder⟩
      exact le_antisymm hbound (not_lt.mp hroom)
  | take =>
    rcases h with ⟨_ | ⟨x, queue⟩, accepted, dropped, taken⟩
    · exact ⟨hbound, hfull, horder⟩
    · refine ⟨(Nat.le_succ _).trans hbound, hfull, ?_⟩
      exact (List.append_assoc taken [x] queue).trans horder

theorem run_inv (hi : Inv size h) (events : List (Event α)) : Inv size (run size h events) := by
  induction events generalizing h with
  | nil => exact hi
  | cons event events ih => exact ih (step_inv hi event)

end Fifo
