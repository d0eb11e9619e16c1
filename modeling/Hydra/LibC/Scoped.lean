import Hydra.LibC.Stdlib
import Hydra.Mm.Exact
import Hydra.Mm.Frame

/-!
# Buffers that are given back

A function that takes a buffer from `malloc`, works on it and frees it again (`withBuffer`) leaves
the heap as it was: the block list and the static variables are the same, and no byte has changed
but in what was free, in headers, and in the buffers that its caller owns (`withBuffer_cases`). Such
functions can follow one another and be nested.
-/

namespace Hydra.LibC
open ByteMem FirstFit Hydra.Mm

/-- Work on a buffer from `malloc`, if there is one, and free it: what comes of the work, if any,
and the heap. -/
def withBuffer {α : Type} (size : UInt64) (h : Heap) (body : Nat → Heap → Option (α × Heap)) :
    Option (Option α × Heap) := do
  let (p, h) ← malloc h size
  if p = 0 then some (none, h)
  else
    let (a, h) ← body p h
    let h ← free h p
    some (some a, h)

/-- The byte `x` belongs to no header, to no free block, and not to what `own` may be written. -/
def Spared (bs : List Block) (own : Set Nat) (x : Nat) : Prop :=
  x ∉ own ∧ ∀ b ∈ bs, (x < b.addr ∨ b.addr + 16 ≤ x) ∧ (b.free = true → x < b.addr ∨ b.fin 16 ≤ x)

/-- The heap still represents the blocks `bs`, and the bytes that are spared have not changed. -/
structure Kept (r : Region) (bs : List Block) (own : Set Nat) (h h' : Heap) : Prop where
  wf : WF r h' bs
  spared : ∀ x, Spared bs own x → h'.mem x = h.mem x

/-- `malloc` has returned a buffer of `n` bytes, which can be given back. -/
structure Obtained (r : Region) (bs : List Block) (h : Heap) (n p : Nat) (bs₁ : List Block)
    (h₁ : Heap) : Prop where
  call : malloc h (UInt64.ofNat n) = some (p, h₁)
  ne_zero : p ≠ 0
  wf : WF r h₁ bs₁
  block : ∃ c ∈ bs₁, c.free = false ∧ c.payload 16 = p ∧ n ≤ c.size
  kept : ∀ x, Spared bs ∅ x → h₁.mem x = h.mem x ∧ (x < p ∨ p + n ≤ x)
  giveBack : ∀ own h₂, Kept r bs₁ (own ∪ Set.Ico p (p + n)) h₁ h₂ →
    ∃ h₃, free h₂ p = some h₃ ∧ Kept r bs own h h₃

variable {r : Region} {h h' h'' : Heap} {bs bs₁ : List Block} {own : Set Nat}

namespace Kept

lemma refl (w : WF r h bs) (own : Set Nat) : Kept r bs own h h := ⟨w, fun _ _ => rfl⟩

lemma trans (k : Kept r bs own h h') (k' : Kept r bs own h' h'') : Kept r bs own h h'' :=
  ⟨k'.wf, fun x hx => (k'.spared x hx).trans (k.spared x hx)⟩

lemma mono {own' : Set Nat} (k : Kept r bs own h h') (hsub : own ⊆ own') : Kept r bs own' h h' :=
  ⟨k.wf, fun x hx => k.spared x ⟨fun hin => hx.1 (hsub hin), hx.2⟩⟩

end Kept

/-- What is spared by the blocks before an allocation is spared by those after it. -/
lemma Spared.alloc {n k : Nat} {b : Block} (hb : bs.find? (Block.fits n) = some b) {x : Nat}
    (hx : Spared bs own x) (hk : k ≤ granted 48 n b) :
    Spared (alloc 16 48 n bs) (own ∪ Set.Ico (b.payload 16) (b.payload 16 + k)) x := by
  obtain ⟨hmem, hfree, hroom⟩ := fits_of_find hb
  obtain ⟨hown, hout⟩ := hx
  have hbout := (hout b hmem).2 hfree
  have hsize : granted 48 n b ≤ b.size := (granted_le hroom).2
  refine ⟨?_, fun c hc => ?_⟩
  · rintro (hx | ⟨hlo, hhi⟩)
    · exact hown hx
    · unfold Block.payload Block.fin at *
      omega
  · rcases alloc_inside (by decide) hb hc with hc | ⟨hlo, hhi⟩
    · exact hout c hc
    · unfold Block.fin at *
      omega

/-- The payload of a used block is spared. -/
lemma spared_of_used (w : WF r h bs) {c : Block} (hc : c ∈ bs) (hused : c.free = false) {i : Nat}
    (hi : i < c.size) : Spared bs ∅ (c.payload 16 + i) := by
  refine ⟨Set.notMem_empty _, fun b hb => ⟨?_, fun hfree => ?_⟩⟩
  · have hapart := w.tiles.payload_apart hc hb
    unfold Block.payload Block.fin at *
    omega
  · have hne : c ≠ b := by
      rintro rfl
      rw [hfree] at hused
      cases hused
    have hapart := (w.tiles.apart hc hb).resolve_left hne
    unfold Block.payload Block.fin at *
    omega

namespace Obtained

variable {n p : Nat} {h₁ : Heap}

/-- The buffer is spared by the calls that follow. -/
lemma spared (o : Obtained r bs h n p bs₁ h₁) {x : Nat} (hlo : p ≤ x) (hhi : x < p + n) :
    Spared bs₁ ∅ x := by
  obtain ⟨c, hc, hused, rfl, hn⟩ := o.block
  obtain ⟨i, rfl⟩ := Nat.exists_eq_add_of_le hlo
  exact spared_of_used o.wf hc hused (by omega)

/-- A write inside the buffer. -/
lemma write (o : Obtained r bs h n p bs₁ h₁) {m' : Mem} (e : AgreeOff p (p + n) h₁.mem m') :
    Kept r bs₁ (own ∪ Set.Ico p (p + n)) h₁ { h₁ with mem := m' } := by
  obtain ⟨c, hc, _, rfl, hn⟩ := o.block
  refine ⟨o.wf.payload_write hc (e.mono le_rfl ?_), fun x hx => e x ?_⟩
  · unfold Block.payload Block.fin
    omega
  · by_contra hin
    refine hx.1 (.inr ⟨?_, ?_⟩)
    · omega
    · omega

end Obtained

/-- A call of `malloc` finds no block, or returns a buffer that can be given back. -/
lemma malloc_cases (w : WF r h bs) (size : UInt64) (hsize : size.toNat ≤ 2 ^ 32 - 8) :
    (¬Satisfiable h size.toNat ∧ malloc h size = some (0, h)) ∨
    ∃ p bs₁ h₁, Satisfiable h size.toNat ∧ malloc h size = some (p, h₁) ∧
      Obtained r bs h size.toNat p bs₁ h₁ := by
  have hsize' : size.toUInt32.toNat = size.toNat := by
    rw [UInt64.toNat_toUInt32]
    omega
  have hle' : size.toUInt32.toNat ≤ 2 ^ 32 - 8 := by omega
  have hsat := satisfiable_align w hle'
  rw [hsize'] at hsat
  unfold malloc
  cases hfind : bs.find? (Block.fits (alignSize size.toUInt32).toNat) with
  | none =>
    refine .inl ⟨fun hs => ?_, kmalloc_none w hfind⟩
    exact (find_eq_none_iff w _).mp hfind (hsat.mpr hs)
  | some b =>
    right
    obtain ⟨h₁, hcall, w₁, hround, hheaders⟩ := kmalloc_block w hfind
    have hle := (alignSize_of_le hle').1
    rw [hsize'] at hle
    have hlive : b.payload 16 ∈ live 16 (alloc 16 48 (alignSize size.toUInt32).toNat bs) :=
      (live_alloc hfind).mem_iff.mpr List.mem_cons_self
    refine ⟨b.payload 16, _, h₁, hsat.mp ?_, hcall, by rwa [UInt64.ofNat_toNat],
      b.payload_ne_zero (by decide), w₁, ⟨_, mem_alloc hfind, rfl, rfl, hle.trans hround⟩,
      fun x hx => ?_, fun own h₂ k => ?_⟩
    · by_contra hs
      rw [(find_eq_none_iff w _).mpr hs] at hfind
      cases hfind
    · have hx' := hx.alloc hfind (hle.trans hround)
      refine ⟨hheaders x fun c hc => (hx'.2 c hc).1, ?_⟩
      by_contra hin
      exact hx'.1 (.inr ⟨by omega, by omega⟩)
    · obtain ⟨h₃, hfree, w₃, hheaders'⟩ := kfree_live k.wf hlive
      rw [release_alloc (by decide) (by decide) w.tiles w.coalesced hfind] at w₃
      refine ⟨h₃, hfree, w₃, fun x hx => ?_⟩
      have hx' := hx.alloc hfind (hle.trans hround)
      calc h₃.mem x = h₂.mem x := hheaders' x fun c hc => (hx'.2 c hc).1
        _ = h₁.mem x := k.spared x hx'
        _ = h.mem x := hheaders x fun c hc => (hx'.2 c hc).1

/-- Work that keeps to its buffer leaves the heap as it was. -/
lemma withBuffer_cases (w : WF r h bs) (size : UInt64) (hsize : size.toNat ≤ 2 ^ 32 - 8)
    {α : Type} (body : Nat → Heap → Option (α × Heap)) :
    (¬Satisfiable h size.toNat ∧ withBuffer size h body = some (none, h)) ∨
    ∃ p bs₁ h₁, Satisfiable h size.toNat ∧ Obtained r bs h size.toNat p bs₁ h₁ ∧
      (body p h₁ = none → withBuffer size h body = none) ∧
      ∀ own a h₂, body p h₁ = some (a, h₂) →
        Kept r bs₁ (own ∪ Set.Ico p (p + size.toNat)) h₁ h₂ →
        ∃ h₃, withBuffer size h body = some (some a, h₃) ∧ Kept r bs own h h₃ := by
  unfold withBuffer
  rcases malloc_cases w size hsize with ⟨hno, e⟩ | ⟨p, bs₁, h₁, hs, e, o⟩
  · refine .inl ⟨hno, ?_⟩
    rw [e]
    rfl
  · refine .inr ⟨p, bs₁, h₁, hs, o, fun hnone => ?_, fun own a h₂ hbody k => ?_⟩
    · rw [e]
      simp only [Option.bind_eq_bind, Option.bind_some, if_neg o.ne_zero, hnone, Option.bind_none]
    · obtain ⟨h₃, hfree, k'⟩ := o.giveBack own h₂ k
      refine ⟨h₃, ?_, k'⟩
      rw [e]
      simp only [Option.bind_eq_bind, Option.bind_some, if_neg o.ne_zero, hbody, hfree]

/-! ## As seen from outside -/

/-- What `s` was before a call is as it was: the static variables, the blocks with their links, the
bytes of the live pointers and all that lies outside the region. -/
structure Undone (r : Region) (s : History) (h' : Heap) : Prop where
  state : h'.state = s.heap.state
  links : ∀ bs, s.heap.blocks = some bs →
    ∀ b ∈ bs, blkNext h'.mem b.addr = blkNext s.heap.mem b.addr
  payloads : ∀ p ∈ s.livePtrs, ∀ i < blkSize s.heap.mem (p - sizeofMemBlock),
    h'.mem (p + i) = s.heap.mem (p + i)
  outside : ∀ x, x < r.start ∨ r.stop ≤ x → h'.mem x = s.heap.mem x

lemma Kept.undone {s : History} (w : WF r s.heap bs) (hlive : s.livePtrs.Perm (live 16 bs))
    (k : Kept r bs ∅ s.heap h') : Undone r s h' := by
  obtain ⟨hstate, hlinks⟩ := w.same k.wf
  refine ⟨hstate, fun bs' hbs => ?_, fun p hp i hi => k.spared _ ?_,
    fun x hx => k.spared x ⟨Set.notMem_empty _, fun b hb => ?_⟩⟩
  · obtain rfl : bs = bs' := Option.some.inj (w.blocks.symm.trans hbs)
    exact hlinks
  · obtain ⟨c, hc, hused, rfl⟩ := mem_live.mp (hlive.mem_iff.mp hp)
    rw [w.payload_size hc] at hi
    exact spared_of_used w hc hused hi
  · have hbounds := w.tiles.mem_bounds hb
    unfold Block.fin at *
    omega

end Hydra.LibC
