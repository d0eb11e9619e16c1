import Hydra.Mm.History

/-!
# What the calls write

`kmalloc` and `kfree` write nothing but headers: those of the blocks that are in the list after an
allocation (`kmalloc_headers`), those that were in it before a release (`kfree_live`). Inside the
headers the free flags are followed one by one (`take_flag`, `kfree_flag`), also at addresses where
a header stood that is no longer in the list. What is written into a header has the form of sizes
and links (`WF.hdrForm`, `kfree_form`).
-/

namespace Hydra.Mm
open ByteMem Linked FirstFit

/-! ## The headers of an allocation -/

/-- An allocation writes to the header of the block and to that of the remainder, if there is
one. -/
lemma split_frame {m : Mem} {b n x : Nat} (hx : x < b ∨ b + 16 ≤ x)
    (hnew : n + 48 < blkSize m b → x < b + 16 + n ∨ b + 16 + n + 16 ≤ x) :
    setFree (split m b n) b 0 x = m x := by
  by_cases hc : n + 48 < blkSize m b
  · rw [split_of_lt hc]
    have a₁ := ((agree_setSize m (b + 16 + n) (blkSize m b - n - 16)).trans
      (agree_setFree _ _ 1)).trans (agree_setNext _ _ (blkNext m b))
    generalize setNext (setFree (setSize m (b + 16 + n) (blkSize m b - n - 16)) (b + 16 + n) 1)
      (b + 16 + n) (blkNext m b) = m₁ at *
    have a₂ := ((agree_setSize m₁ b n).trans (agree_setNext _ b (b + 16 + n))).trans
      (agree_setFree _ b 0)
    exact (a₂ x hx).trans (a₁ x (hnew hc))
  · rw [split_of_not_lt hc]
    exact agree_setFree m b 0 x hx

lemma mem_carve (n : Nat) (b : Block) :
    (∃ c ∈ carve 16 48 n b, c.addr = b.addr) ∧
      (n + 48 < b.size → ∃ c ∈ carve 16 48 n b, c.addr = b.addr + 16 + n) := by
  unfold carve
  split
  · exact ⟨⟨_, List.mem_cons_self, rfl⟩,
      fun _ => ⟨_, List.mem_cons_of_mem _ List.mem_cons_self, rfl⟩⟩
  · rename_i hc
    exact ⟨⟨_, List.mem_cons_self, rfl⟩, fun h => absurd h hc⟩

/-- What `kmalloc` writes lies in headers of the list after the call. -/
lemma kmalloc_headers {r : Region} {h : Heap} {bs : List Block} (w : WF r h bs) {n : Nat}
    {b : Block} (hb : bs.find? (Block.fits n) = some b) :
    HeadersOnly (alloc 16 48 n bs) h.mem (take h b.addr n).mem := by
  obtain ⟨hs, _⟩ := w.seg.2 b (List.mem_of_find?_eq_some hb)
  obtain ⟨pre, post, rfl, _, _, halloc⟩ := alloc_of_find 16 48 hb
  obtain ⟨⟨c, hc, hca⟩, hnew⟩ := mem_carve n b
  intro x hx
  rw [halloc] at hx
  refine split_frame ?_ fun hlt => ?_
  · have hxc := hx c (by simp [hc])
    rwa [hca] at hxc
  · rw [hs] at hlt
    obtain ⟨d, hd, hda⟩ := hnew hlt
    have hxd := hx d (by simp [hd])
    rwa [hda] at hxd

/-- A call that finds a block: the new block has room for the request, and only headers of the new
list are written. -/
lemma kmalloc_block {r : Region} {h : Heap} {bs : List Block} (w : WF r h bs) {size : UInt32}
    {b : Block} (hb : bs.find? (Block.fits (alignSize size).toNat) = some b) :
    ∃ h', kmalloc h size = some (b.payload 16, h') ∧
      WF r h' (alloc 16 48 (alignSize size).toNat bs) ∧
      (alignSize size).toNat ≤ granted 48 (alignSize size).toNat b ∧
      HeadersOnly (alloc 16 48 (alignSize size).toNat bs) h.mem h'.mem := by
  obtain ⟨h', hcall, w', _⟩ := kmalloc_some w hb
  obtain rfl := take_of_kmalloc w hb hcall
  refine ⟨_, hcall, w', ?_, kmalloc_headers w hb⟩
  exact (granted_le (fits_of_find hb).2.2).1

/-- A byte inside the payload of a listed block belongs to no header. -/
lemma HeadersOnly.payload {r : Region} {h : Heap} {bs : List Block} (w : WF r h bs) {m m' : Mem}
    (e : HeadersOnly bs m m') {c : Block} (hc : c ∈ bs) {i : Nat} (hi : i < c.size) :
    m' (c.payload 16 + i) = m (c.payload 16 + i) := by
  refine e _ fun d hd => ?_
  have hapart := w.tiles.payload_apart hc hd
  unfold Block.payload Block.fin at *
  omega

/-! ## Free flags -/

section Flags

variable {m : Mem} {b n x v : Nat}

lemma setSize_flag (hx : 8 ∣ x) (hb : 8 ∣ b) : blkFree (setSize m b v) x = blkFree m x :=
  load_store_disjoint m v (by omega)

lemma setFree_flag (hx : 8 ∣ x) (hb : 8 ∣ b) (h : x ≠ b) :
    blkFree (setFree m b v) x = blkFree m x :=
  load_store_disjoint m v (by omega)

lemma setNext_flag (hx : 8 ∣ x) (hb : 8 ∣ b) (h : x ≠ b + 8) :
    blkFree (setNext m b v) x = blkFree m x :=
  load_store_disjoint m v (by omega)

lemma mergeNext_flag (hx : 8 ∣ x) (hb : 8 ∣ b) (h : x ≠ b + 8) :
    blkFree (mergeNext m b) x = blkFree m x := by
  simp only [mergeNext]
  split
  · rw [setNext_flag hx hb h, setSize_flag hx hb]
  · rfl

lemma mergePrev_flag {current : Nat} (hx : 8 ∣ x)
    (hc : current = 0 ∨ 8 ∣ current ∧ x ≠ current + 8) :
    blkFree (mergePrev m current b) x = blkFree m x := by
  unfold mergePrev
  split
  · rename_i hcond
    obtain ⟨hdvd, hne⟩ := hc.resolve_left hcond.1
    rw [setNext_flag hx hdvd hne, setSize_flag hx hdvd]
  · rfl

/-- An allocation clears the free flag of the block it takes and no other; the flag of a remainder
is set. The link of a header that begins 8 bytes lower would cover a flag. -/
lemma take_flag (hx : 8 ∣ x) (hb : 8 ∣ b) (hn : 8 ∣ n) (hxb : x ≠ b) (hxb8 : x ≠ b + 8)
    (hnew : n + 48 < blkSize m b → x ≠ b + 16 + n + 8) (hfree : blkFree m x ≠ 0) :
    blkFree (setFree (split m b n) b 0) x ≠ 0 := by
  rw [setFree_flag hx hb hxb]
  by_cases hc : n + 48 < blkSize m b
  · have hnewd : 8 ∣ b + 16 + n := by omega
    rw [split_of_lt hc, setNext_flag hx hb hxb8, setSize_flag hx hb,
      setNext_flag hx hnewd (hnew hc)]
    rcases eq_or_ne x (b + 16 + n) with rfl | hne
    · simp
    · rwa [setFree_flag hx hnewd hne, setSize_flag hx hnewd]
  · rwa [split_of_not_lt hc]

end Flags

/-- `kfree` sets the free flag of the block and leaves every other flag. -/
lemma kfree_flag {r : Region} {h h' : Heap} {bs : List Block} (w : WF r h bs) {b : Block}
    (hb : b ∈ bs) (hf : b.free = false) (hcall : kfree h (b.payload 16) = some h') {x : Nat}
    (hx : 8 ∣ x) (hne : ∀ c ∈ bs, x ≠ c.addr + 8) :
    blkFree h'.mem x = if x = b.addr then 1 else blkFree h.mem x := by
  have hdvd : ∀ c ∈ bs, 8 ∣ c.addr := fun c hc => w.tiles.dvd_addr (by decide) r.start_aligned hc
  obtain ⟨current, m', hm', hcurrent, _, _, hcall'⟩ := kfree_eq w hb hf
  obtain rfl := Option.some.inj (hcall.symm.trans hcall')
  simp only [hm']
  rw [mergePrev_flag hx, mergeNext_flag hx (hdvd b hb) (hne b hb)]
  · split
    · rename_i e
      rw [e, blkFree_setFree, Nat.mod_eq_of_lt (by decide)]
    · rename_i e
      exact setFree_flag hx (hdvd b hb) e
  · rcases hcurrent with h0 | ⟨a, ha, rfl⟩
    · exact .inl h0
    · exact .inr ⟨hdvd a ha, hne a ha⟩

/-! ## Contents of headers -/

/-- What the headers of a heap below 4 GiB have in common: sizes and links are multiples of 8, and
the upper half of a link is 0. -/
structure HdrForm (m : Mem) (b : Nat) : Prop where
  size : 8 ∣ blkSize m b
  next : 8 ∣ blkNext m b
  low : blkNext m b < 2 ^ 32

lemma WF.hdrForm {r : Region} {h : Heap} {bs : List Block} (w : WF r h bs) (hram : r.stop ≤ 2 ^ 32)
    {b : Block} (hb : b ∈ bs) : HdrForm h.mem b.addr := by
  have hsize : 8 ∣ blkSize h.mem b.addr := by
    rw [(w.seg.2 b hb).1]
    exact w.tiles.dvd_size hb
  rcases w.next_mem hb with e | ⟨c, hc, e⟩
  · exact ⟨hsize, by simp [e], by simp [e]⟩
  · have hbounds := (w.tiles.mem_bounds hc).2
    unfold Block.fin at hbounds
    refine ⟨hsize, e ▸ w.tiles.dvd_addr (by decide) r.start_aligned hc, ?_⟩
    omega

/-- A header that takes over the bytes and the link of another one keeps its form. -/
lemma HdrForm.absorb {m : Mem} {a c : Nat} (ha : HdrForm m a) (hc : HdrForm m c)
    (hac : c = a ∨ c + 16 ≤ a ∨ a + 16 ≤ c) : HdrForm (absorb m a c) a := by
  have hnext : blkNext (setSize m a (blkSize m a + (blkSize m c + sizeofMemBlock))) c =
      blkNext m c := by
    rcases hac with rfl | hac
    · exact blkNext_setSize m c _
    · exact (hdr_of_agree (agree_setSize m a _) hac).2.2
  obtain ⟨hs, _, _⟩ := ha
  obtain ⟨hs', hx, hlow⟩ := hc
  unfold Mm.absorb
  simp only [hnext]
  constructor
  · rw [blkSize_setNext, blkSize_setSize]
    unfold sizeofMemBlock
    omega
  · rw [blkNext_setNext]
    omega
  · rw [blkNext_setNext]
    omega

section Forms

variable {lo hi : Nat} {bs : List Block} (t : Tiles 16 8 lo bs hi) {m m' : Mem}
  (hform : ∀ c ∈ bs, HdrForm m c.addr)
include t hform

/-- A write to one header leaves the form of the others. -/
lemma forms_update {b : Block} (hb : b ∈ bs) (e : AgreeOff b.addr (b.addr + 16) m m')
    (hnew : HdrForm m' b.addr) : ∀ c ∈ bs, HdrForm m' c.addr := by
  intro c hc
  rcases t.header_apart hc hb with rfl | hfar
  · exact hnew
  · obtain ⟨hs, _, hx⟩ := hdr_of_agree e hfar
    obtain ⟨h1, h2, h3⟩ := hform c hc
    constructor
    · rwa [hs]
    · rwa [hx]
    · rwa [hx]

lemma forms_absorb {a c : Block} (ha : a ∈ bs) (hc : c ∈ bs) :
    ∀ d ∈ bs, HdrForm (absorb m a.addr c.addr) d.addr := by
  refine forms_update t hform ha ?_ ((hform a ha).absorb (hform c hc) ?_)
  · exact (agree_setSize m _ _).trans (agree_setNext _ _ _)
  · exact (t.header_apart hc ha).imp_left (congrArg Block.addr)

lemma forms_setFree {b : Block} (hb : b ∈ bs) (v : Nat) :
    ∀ c ∈ bs, HdrForm (setFree m b.addr v) c.addr := by
  obtain ⟨h1, h2, h3⟩ := hform b hb
  refine forms_update t hform hb (agree_setFree m b.addr v) ⟨?_, ?_, ?_⟩
  · rwa [blkSize_setFree]
  · rwa [blkNext_setFree]
  · rwa [blkNext_setFree]

end Forms

/-- After a release the headers of the old list still have the form of headers, also those that are
not in the list any more. -/
lemma kfree_form {r : Region} {h h' : Heap} {bs : List Block} (w : WF r h bs)
    (hram : r.stop ≤ 2 ^ 32) {b : Block} (hb : b ∈ bs) (hf : b.free = false)
    (hcall : kfree h (b.payload 16) = some h') : ∀ c ∈ bs, HdrForm h'.mem c.addr := by
  obtain ⟨current, m', hm', hcurrent, _, _, hcall'⟩ := kfree_eq w hb hf
  obtain rfl := Option.some.inj (hcall.symm.trans hcall')
  have h₁ := forms_setFree w.tiles (fun c hc => w.hdrForm hram hc) hb 1
  have hnext : blkNext (setFree h.mem b.addr 1) b.addr = blkNext h.mem b.addr :=
    blkNext_setFree h.mem b.addr 1
  generalize setFree h.mem b.addr 1 = m₁ at *
  have h₂ : ∀ c ∈ bs, HdrForm (mergeNext m₁ b.addr) c.addr := by
    simp only [mergeNext]
    split
    · rename_i hcond
      rw [blkNext_setSize]
      rcases w.next_mem hb with h0 | ⟨c, hc, e⟩
      · exact absurd (hnext.trans h0) hcond.1
      · rw [hnext, ← e]
        exact forms_absorb w.tiles h₁ hb hc
    · exact h₁
  simp only [hm']
  unfold mergePrev
  split
  · rename_i hcond
    rcases hcurrent with h0 | ⟨a, ha, rfl⟩
    · exact absurd h0 hcond.1
    · exact forms_absorb w.tiles h₂ ha hb
  · exact h₂

end Hydra.Mm
