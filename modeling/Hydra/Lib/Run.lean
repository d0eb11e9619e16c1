import Mathlib

/-!
# Runs

Runs of a system given by a step function on states. `run` executes a list of operations whose steps
may fail to end (`none`); `Admissible` says that each operation of the list is allowed in the state
it meets. The rule `Admissible.inv` is the induction every safety theorem uses: an invariant that
each allowed step keeps, and keeps defined, holds at the end of every admissible run. Where every
operation is always allowed, the rule is `inv`. Since a run has one result, both also hold for a run
that is given (`Admissible.inv_of_run`, `inv_of_run`). An invariant also carries one condition on
the steps of a run over to another (`Admissible.congr_of_inv`).

The steps of a run may each come to some steps of another system; put together they are its `trace`,
and the other system follows the run by it (`follows`).

A system simulates another one if it can carry out each step that is allowed there
(`Admissible.simulated`). Programs over a state are related by `Agree`: they come to the same result
if each of their calls does (`Agree.bind`).

The rule of progress is `reaches_within`: a rank that every step lowers, as long as the goal is not
reached, bounds the number of steps to the goal.
-/

namespace Run

variable {σ ι : Type*} (step : σ → ι → Option σ) (ok : σ → ι → Prop)

/-- Execute the operations in order; `none` when one of them does not end. -/
def run : σ → List ι → Option σ
  | s, [] => some s
  | s, i :: is => (step s i).bind fun s' => run s' is

/-- Each operation of the list is allowed in the state it is executed in. -/
def Admissible : σ → List ι → Prop
  | _, [] => True
  | s, i :: is => ok s i ∧
    match step s i with
    | some s' => Admissible s' is
    | none => True

/-- The operations of another system that the steps of a run come to. -/
def trace {κ : Type*} (f : σ → ι → List κ) : σ → List ι → List κ
  | _, [] => []
  | s, i :: is => f s i ++
    match step s i with
    | some s' => trace f s' is
    | none => []

instance Admissible.decidable [∀ s i, Decidable (ok s i)] :
    ∀ s is, Decidable (Admissible step ok s is)
  | _, [] => inferInstanceAs (Decidable True)
  | s, i :: is => by
    unfold Admissible
    exact match step s i with
      | some s' => @instDecidableAnd _ _ _ (Admissible.decidable s' is)
      | none => inferInstance

variable {step ok}

lemma run_cons {s s' : σ} {i : ι} {is : List ι} (h : step s i = some s') :
    run step s (i :: is) = run step s' is := by
  simp [run, h]

lemma run_append (s : σ) (is js : List ι) :
    run step s (is ++ js) = (run step s is).bind fun s' => run step s' js := by
  induction is generalizing s with
  | nil => rfl
  | cons i is ih =>
    cases h : step s i with
    | none => simp [run, h]
    | some s' => simp [run, h, ih]

lemma admissible_cons {s s' : σ} {i : ι} {is : List ι} (e : step s i = some s') :
    Admissible step ok s (i :: is) ↔ ok s i ∧ Admissible step ok s' is := by
  rw [Admissible, e]

/-- An invariant that every allowed step establishes again holds after every admissible run, which
moreover ends. -/
theorem Admissible.inv {Inv : σ → Prop} {s : σ} {is : List ι}
    (hok : Admissible step ok s is) (hs : Inv s)
    (hstep : ∀ s i, Inv s → ok s i → ∃ s', step s i = some s' ∧ Inv s') :
    ∃ s', run step s is = some s' ∧ Inv s' := by
  induction is generalizing s with
  | nil => exact ⟨s, rfl, hs⟩
  | cons i is ih =>
    obtain ⟨s', hs', hinv⟩ := hstep s i hs hok.1
    obtain ⟨_, hrest⟩ := (admissible_cons hs').mp hok
    obtain ⟨s'', hrun, hinv'⟩ := ih hrest hinv
    exact ⟨s'', (run_cons hs').trans hrun, hinv'⟩

lemma Admissible.inv_of_run {Inv : σ → Prop} {s s' : σ} {is : List ι}
    (hok : Admissible step ok s is) (hrun : run step s is = some s') (hs : Inv s)
    (hstep : ∀ s i, Inv s → ok s i → ∃ s', step s i = some s' ∧ Inv s') : Inv s' := by
  obtain ⟨s'', hrun', hinv⟩ := hok.inv hs hstep
  obtain rfl : s'' = s' := Option.some.inj (hrun'.symm.trans hrun)
  exact hinv

/-- Conditions that agree where an invariant holds allow the same runs, if the steps that one of
them allows keep the invariant. -/
theorem Admissible.congr_of_inv {ok' : σ → ι → Prop} {Inv : σ → Prop} {s : σ} {is : List ι}
    (hs : Inv s) (hstep : ∀ s i, Inv s → ok' s i → ∃ s', step s i = some s' ∧ Inv s')
    (hok : ∀ s i, Inv s → (ok s i ↔ ok' s i)) :
    Admissible step ok s is ↔ Admissible step ok' s is := by
  induction is generalizing s with
  | nil => exact Iff.rfl
  | cons i is ih =>
    by_cases hi : ok' s i
    · obtain ⟨s', hs', hinv⟩ := hstep s i hs hi
      rw [admissible_cons hs', admissible_cons hs', hok s i hs, ih hinv]
    · exact iff_of_false (fun h => hi ((hok s i hs).mp h.1)) fun h => hi h.1

/-- A system that can carry out every step that is allowed in a related state of another one comes
through the runs that are admissible there. -/
theorem Admissible.simulated {τ : Type*} {step' : τ → ι → Option τ} {R : τ → σ → Prop} {s : σ}
    {t : τ} {is : List ι} (hok : Admissible step ok s is) (h : R t s)
    (hstep : ∀ t s i, R t s → ok s i →
      ∃ t' s', step' t i = some t' ∧ step s i = some s' ∧ R t' s') :
    ∃ t' s', run step' t is = some t' ∧ run step s is = some s' ∧ R t' s' := by
  induction is generalizing s t with
  | nil => exact ⟨t, s, rfl, rfl, h⟩
  | cons i is ih =>
    obtain ⟨t₁, s₁, et, es, h₁⟩ := hstep t s i h hok.1
    obtain ⟨t', s', ht, hs, h'⟩ := ih ((admissible_cons es).mp hok).2 h₁
    exact ⟨t', s', (run_cons et).trans ht, (run_cons es).trans hs, h'⟩

/-- A condition on the operations alone. -/
lemma Admissible.of_forall {p : ι → Prop} {s : σ} {is : List ι} (h : ∀ i ∈ is, p i) :
    Admissible step (fun _ => p) s is := by
  induction is generalizing s with
  | nil => trivial
  | cons i is ih =>
    refine ⟨h i List.mem_cons_self, ?_⟩
    cases step s i with
    | none => trivial
    | some s' => exact ih fun j hj => h j (List.mem_cons_of_mem _ hj)

lemma Admissible.and {ok' : σ → ι → Prop} {s : σ} {is : List ι} (h : Admissible step ok s is)
    (h' : Admissible step ok' s is) : Admissible step (fun s i => ok s i ∧ ok' s i) s is := by
  induction is generalizing s with
  | nil => trivial
  | cons i is ih =>
    obtain ⟨hi, hrest⟩ := h
    obtain ⟨hi', hrest'⟩ := h'
    refine ⟨⟨hi, hi'⟩, ?_⟩
    cases e : step s i with
    | none => trivial
    | some s' =>
      rw [e] at hrest hrest'
      exact ih hrest hrest'

section Total

variable {Inv : σ → Prop} (hstep : ∀ s i, Inv s → ∃ s', step s i = some s' ∧ Inv s')
include hstep

/-- An invariant that every step establishes again holds after every run, which moreover ends. -/
theorem inv {s : σ} (is : List ι) (hs : Inv s) : ∃ s', run step s is = some s' ∧ Inv s' := by
  induction is generalizing s with
  | nil => exact ⟨s, rfl, hs⟩
  | cons i is ih =>
    obtain ⟨s', hs', hinv⟩ := hstep s i hs
    obtain ⟨s'', hrun, hinv'⟩ := ih hinv
    exact ⟨s'', (run_cons hs').trans hrun, hinv'⟩

lemma inv_of_run {s s' : σ} {is : List ι} (hrun : run step s is = some s') (hs : Inv s) :
    Inv s' := by
  obtain ⟨s'', hrun', hinv⟩ := inv hstep is hs
  obtain rfl : s'' = s' := Option.some.inj (hrun'.symm.trans hrun)
  exact hinv

end Total

/-- A system that follows each step of a run by its trace follows the run. -/
theorem follows {τ κ : Type*} {step' : τ → κ → Option τ} {f : σ → ι → List κ} {R : σ → τ → Prop}
    (hstep : ∀ s t i s', R s t → step s i = some s' → ∃ t', run step' t (f s i) = some t' ∧ R s' t')
    {s s' : σ} {t : τ} {is : List ι} (h : R s t) (hrun : run step s is = some s') :
    ∃ t', run step' t (trace step f s is) = some t' ∧ R s' t' := by
  induction is generalizing s t with
  | nil =>
    obtain rfl := Option.some.inj hrun
    exact ⟨t, rfl, h⟩
  | cons i is ih =>
    obtain ⟨s₁, e, hrest⟩ := Option.bind_eq_some_iff.mp hrun
    obtain ⟨t₁, hrun₁, h₁⟩ := hstep s t i s₁ h e
    obtain ⟨t', hrun₂, h'⟩ := ih h₁ hrest
    refine ⟨t', ?_, h'⟩
    unfold trace
    rw [run_append, hrun₁, Option.bind_some, e]
    exact hrun₂

/-- Where every step lowers the rank unless the goal is reached, every run that is longer than the
rank reaches the goal, after at most as many steps as the rank. -/
theorem reaches_within {P Q : σ → Prop} (rank : σ → Nat)
    (hstep : ∀ s i, P s → Q s ∨ ∃ s', step s i = some s' ∧ P s' ∧ rank s' < rank s) {s : σ}
    {is : List ι} (hs : P s) (hlen : rank s < is.length) :
    ∃ pre i post s', is = pre ++ i :: post ∧ pre.length ≤ rank s ∧ run step s pre = some s' ∧
      P s' ∧ Q s' := by
  induction is generalizing s with
  | nil => exact absurd hlen (Nat.not_lt_zero _)
  | cons i is ih =>
    rcases hstep s i hs with hQ | ⟨s', e, hs', hlt⟩
    · exact ⟨[], i, is, s, rfl, Nat.zero_le _, rfl, hs, hQ⟩
    · have hlen' : rank s' < is.length := by
        rw [List.length_cons] at hlen
        omega
      obtain ⟨pre, j, post, s'', rfl, hpre, hrun, hP, hQ⟩ := ih hs' hlen'
      refine ⟨i :: pre, j, post, s'', rfl, ?_, (run_cons e).trans hrun, hP, hQ⟩
      rw [List.length_cons]
      omega

section Programs

variable {τ α β : Type} {σ : Type} {R : σ → τ → Prop}

/-- Computations with the same result that keep their states related. -/
def Agree (R : σ → τ → Prop) (x : StateM σ α) (y : StateM τ α) : Prop :=
  ∀ s t, R s t → (x s).1 = (y t).1 ∧ R (x s).2 (y t).2

lemma Agree.pure (v : α) : Agree R (Pure.pure v : StateM σ α) (Pure.pure v) := fun _ _ h => ⟨rfl, h⟩

lemma Agree.bind {x : StateM σ α} {y : StateM τ α} {f : α → StateM σ β} {g : α → StateM τ β}
    (h : Agree R x y) (hf : ∀ v, Agree R (f v) (g v)) : Agree R (x >>= f) (y >>= g) := by
  intro s t hst
  obtain ⟨e, hst'⟩ := h s t hst
  obtain ⟨e', hst''⟩ := hf (x s).1 (x s).2 (y t).2 hst'
  show (f (x s).1 (x s).2).1 = (g (y t).1 (y t).2).1 ∧
    R (f (x s).1 (x s).2).2 (g (y t).1 (y t).2).2
  rw [← e]
  exact ⟨e', hst''⟩

end Programs

end Run
