import Mathlib

/-!
# First-fit allocation on lists of blocks

The abstract view of an allocator that keeps its blocks in address order: a list of blocks, each a
header of `hdr` bytes followed by its payload, that tile an interval without gaps (`Tiles`).
`alloc` takes the first free block that is large enough and cuts the rest off when more than
`slack` bytes would be left over; `release` frees the block with a given payload address and joins
it with free neighbours. `Coalesced` says that no two neighbours are both free.

Both operations keep the tiling and the coalescing, and act on the used blocks as insertion and
removal of one payload address (`live_alloc`, `live_release`) and on the number of used bytes
accordingly (`used_alloc`, `used_release`). Releasing what was just allocated gives the list back
(`release_alloc`). A coalesced tiling without used blocks is a single free block
(`Tiles.eq_singleton`).

All sizes together with the headers make up the interval (`Tiles.sizes`), and at most one more block
is free than used (`Coalesced.length_le`). As long as `slack` is less than a block, nothing that is
left over when a block is cut could have been another block of the same size; so `rooms` counts how
often requests of one size are met before the first one fails (`rooms_alloc`, `rooms_eq_zero`).
-/

namespace FirstFit

/-- A block: the address of its header, the size of its payload and whether it is free. -/
structure Block where
  addr : Nat
  size : Nat
  free : Bool
  deriving DecidableEq, Repr

variable (hdr align slack : Nat)

/-- The address behind the header. -/
def Block.payload (b : Block) : Nat := b.addr + hdr

/-- The first address behind the block. -/
def Block.fin (b : Block) : Nat := b.addr + hdr + b.size

/-- The blocks lie one behind the other from `lo` to `hi`, with payload sizes divisible by
`align`. -/
def Tiles : Nat → List Block → Nat → Prop
  | lo, [], hi => lo = hi
  | lo, b :: bs, hi => b.addr = lo ∧ align ∣ b.size ∧ Tiles (b.fin hdr) bs hi

/-- No two neighbours are both free. -/
def Coalesced (bs : List Block) : Prop := bs.IsChain fun a b => ¬(a.free ∧ b.free)

/-- The payload addresses of the used blocks. -/
def live (bs : List Block) : List Nat := (bs.filter fun b => !b.free).map (Block.payload hdr)

/-- The number of payload bytes in used blocks. -/
def used (bs : List Block) : Nat := ((bs.filter fun b => !b.free).map Block.size).sum

/-- The number of payload bytes in free blocks. -/
def vacant (bs : List Block) : Nat := ((bs.filter Block.free).map Block.size).sum

/-- The number of blocks for `n` bytes that the free blocks can be cut into. -/
def rooms (n : Nat) (bs : List Block) : Nat :=
  ((bs.filter Block.free).map fun b => (b.size + hdr) / (n + hdr)).sum

/-- A free block with room for `n` bytes. -/
def Block.fits (n : Nat) (b : Block) : Bool := b.free ∧ n ≤ b.size

/-- The number of bytes a request for `n` gets from block `b`. -/
def granted (n : Nat) (b : Block) : Nat := if n + slack < b.size then n else b.size

/-- Use block `b` for `n` bytes, cutting off the rest if it is larger than `slack`. -/
def carve (n : Nat) (b : Block) : List Block :=
  if n + slack < b.size then
    [⟨b.addr, n, false⟩, ⟨b.addr + hdr + n, b.size - n - hdr, true⟩]
  else [⟨b.addr, b.size, false⟩]

/-- First-fit allocation of `n` bytes. -/
def alloc (n : Nat) : List Block → List Block
  | [] => []
  | b :: bs => if b.fits n then carve hdr slack n b ++ bs else b :: alloc n bs

/-- Put `b` in front of the list, joined with the first block if both are free. -/
def glue (b : Block) : List Block → List Block
  | [] => [b]
  | c :: bs => if b.free ∧ c.free then ⟨b.addr, b.size + (c.size + hdr), true⟩ :: bs else b :: c :: bs

/-- Free the block with payload address `p` and join it with its free neighbours. -/
def release (p : Nat) : List Block → List Block
  | [] => []
  | b :: bs =>
    if b.payload hdr = p then glue hdr { b with free := true } bs else glue hdr b (release p bs)

variable {hdr align slack}

/-! ## Tilings -/

lemma tiles_append {lo hi : Nat} {l₁ l₂ : List Block} :
    Tiles hdr align lo (l₁ ++ l₂) hi ↔
      ∃ mid, Tiles hdr align lo l₁ mid ∧ Tiles hdr align mid l₂ hi := by
  induction l₁ generalizing lo with
  | nil => simp [Tiles]
  | cons b l₁ ih => simp [Tiles, ih, and_assoc]

lemma Block.payload_ne_zero {hdr : Nat} (b : Block) (hh : 0 < hdr) : b.payload hdr ≠ 0 :=
  (Nat.add_pos_right b.addr hh).ne'

namespace Tiles

variable {lo hi : Nat} {bs : List Block}

lemma le (t : Tiles hdr align lo bs hi) : lo ≤ hi := by
  induction bs generalizing lo with
  | nil => exact le_of_eq t
  | cons b bs ih =>
    obtain ⟨rfl, _, t⟩ := t
    have h := ih t
    unfold Block.fin at h
    omega

lemma mem_bounds (t : Tiles hdr align lo bs hi) {b : Block} (hb : b ∈ bs) :
    lo ≤ b.addr ∧ b.fin hdr ≤ hi := by
  induction bs generalizing lo with
  | nil => cases hb
  | cons c bs ih =>
    obtain ⟨rfl, _, t⟩ := t
    have hle := t.le
    cases hb with
    | head => exact ⟨le_rfl, hle⟩
    | tail _ hb =>
      have h := ih t hb
      unfold Block.fin at h ⊢
      omega

lemma dvd_size (t : Tiles hdr align lo bs hi) {b : Block} (hb : b ∈ bs) : align ∣ b.size := by
  induction bs generalizing lo with
  | nil => cases hb
  | cons c bs ih =>
    obtain ⟨_, hc, t⟩ := t
    cases hb with
    | head => exact hc
    | tail _ hb => exact ih t hb

lemma dvd_addr (t : Tiles hdr align lo bs hi) (hh : align ∣ hdr) (hlo : align ∣ lo) {b : Block}
    (hb : b ∈ bs) : align ∣ b.addr := by
  induction bs generalizing lo with
  | nil => cases hb
  | cons c bs ih =>
    obtain ⟨rfl, hc, t⟩ := t
    cases hb with
    | head => exact hlo
    | tail _ hb => exact ih t (Nat.dvd_add (Nat.dvd_add hlo hh) hc) hb

lemma pairwise (t : Tiles hdr align lo bs hi) : bs.Pairwise fun a b => a.fin hdr ≤ b.addr := by
  induction bs generalizing lo with
  | nil => exact List.Pairwise.nil
  | cons b bs ih =>
    obtain ⟨_, _, t⟩ := t
    exact List.pairwise_cons.mpr ⟨fun c hc => (t.mem_bounds hc).1, ih t⟩

lemma apart (t : Tiles hdr align lo bs hi) {a b : Block} (ha : a ∈ bs) (hb : b ∈ bs) :
    a = b ∨ a.fin hdr ≤ b.addr ∨ b.fin hdr ≤ a.addr := by
  apply List.Pairwise.forall_of_forall_of_flip
    (R := fun a b => a = b ∨ a.fin hdr ≤ b.addr ∨ b.fin hdr ≤ a.addr) _ _ _ ha hb
  · intro x _
    exact .inl rfl
  · exact t.pairwise.imp fun h => .inr (.inl h)
  · exact t.pairwise.imp fun h => .inr (.inr h)

/-- The headers of different blocks do not overlap. -/
lemma header_apart (t : Tiles hdr align lo bs hi) {a b : Block} (ha : a ∈ bs) (hb : b ∈ bs) :
    a = b ∨ a.addr + hdr ≤ b.addr ∨ b.addr + hdr ≤ a.addr := by
  rcases t.apart ha hb with h | h | h
  · exact .inl h
  · unfold Block.fin at h
    omega
  · unfold Block.fin at h
    omega

/-- No header overlaps a payload. -/
lemma payload_apart (t : Tiles hdr align lo bs hi) {a b : Block} (ha : a ∈ bs) (hb : b ∈ bs) :
    b.addr + hdr ≤ a.payload hdr ∨ a.fin hdr ≤ b.addr := by
  rcases t.apart ha hb with rfl | h | h
  · exact .inl le_rfl
  · exact .inr h
  · unfold Block.fin at h
    unfold Block.payload
    omega

/-- The payloads of different blocks do not overlap. -/
lemma payloads_apart (t : Tiles hdr align lo bs hi) {a b : Block} (ha : a ∈ bs) (hb : b ∈ bs)
    (hne : a ≠ b) : b.fin hdr ≤ a.payload hdr ∨ a.fin hdr ≤ b.payload hdr := by
  unfold Block.payload
  rcases t.apart ha hb with h | h | h
  · exact absurd h hne
  · omega
  · omega

/-- Different blocks have different payloads. -/
lemma payload_inj (t : Tiles hdr align lo bs hi) (hh : 0 < hdr) {a b : Block} (ha : a ∈ bs)
    (hb : b ∈ bs) (e : a.payload hdr = b.payload hdr) : a = b := by
  unfold Block.payload at e
  rcases t.header_apart ha hb with h | h | h
  · exact h
  · omega
  · omega

lemma isChain (t : Tiles hdr align lo bs hi) : bs.IsChain fun a b => b.addr = a.fin hdr := by
  induction bs generalizing lo with
  | nil => exact .nil
  | cons b bs ih =>
    obtain ⟨_, _, t⟩ := t
    cases bs with
    | nil => exact .singleton b
    | cons c bs => exact .cons_cons t.1 (ih t)

lemma head_addr (t : Tiles hdr align lo bs hi) {b : Block} (hb : b ∈ bs.head?) : b.addr = lo := by
  cases bs with
  | nil => cases hb
  | cons c bs =>
    cases hb
    exact t.1

lemma last_fin (t : Tiles hdr align lo bs hi) {b : Block} (hb : b ∈ bs.getLast?) :
    b.fin hdr = hi := by
  obtain ⟨bs', rfl⟩ := List.getLast?_eq_some_iff.mp hb
  obtain ⟨_, _, h⟩ := tiles_append.mp t
  exact h.2.2

lemma length_le (t : Tiles hdr align lo bs hi) : lo + hdr * bs.length ≤ hi := by
  induction bs generalizing lo with
  | nil => exact le_of_eq t
  | cons b bs ih =>
    obtain ⟨rfl, _, t⟩ := t
    have h := ih t
    unfold Block.fin at h
    rw [List.length_cons, Nat.mul_add]
    omega

end Tiles

/-! ## Joining neighbours -/

@[simp] lemma live_append (l₁ l₂ : List Block) : live hdr (l₁ ++ l₂) = live hdr l₁ ++ live hdr l₂ := by
  simp [live]

lemma live_cons (b : Block) (bs : List Block) :
    live hdr (b :: bs) = if b.free then live hdr bs else b.payload hdr :: live hdr bs := by
  cases h : b.free <;> simp [live, h]

@[simp] lemma used_append (l₁ l₂ : List Block) : used (l₁ ++ l₂) = used l₁ + used l₂ := by
  simp [used]

lemma used_cons (b : Block) (bs : List Block) :
    used (b :: bs) = if b.free then used bs else b.size + used bs := by
  cases h : b.free <;> simp [used, h]

lemma glue_cons (b c : Block) (bs : List Block) :
    glue hdr b (c :: bs) =
      if b.free ∧ c.free then ⟨b.addr, b.size + (c.size + hdr), true⟩ :: bs else b :: c :: bs :=
  rfl

lemma live_glue (b : Block) (bs : List Block) : live hdr (glue hdr b bs) = live hdr (b :: bs) := by
  cases bs with
  | nil => rfl
  | cons c bs =>
    rw [glue_cons]
    split
    · rename_i h
      simp [live_cons, h.1, h.2]
    · rfl

lemma used_glue (b : Block) (bs : List Block) : used (glue hdr b bs) = used (b :: bs) := by
  cases bs with
  | nil => rfl
  | cons c bs =>
    rw [glue_cons]
    split
    · rename_i h
      simp [used_cons, h.1, h.2]
    · rfl

lemma tiles_glue {lo hi : Nat} {b : Block} {bs : List Block} (hh : align ∣ hdr)
    (t : Tiles hdr align lo (b :: bs) hi) : Tiles hdr align lo (glue hdr b bs) hi := by
  cases bs with
  | nil => exact t
  | cons c bs =>
    rw [glue_cons]
    split
    · obtain ⟨ha, hb, hc, hd, t⟩ := t
      refine ⟨ha, Nat.dvd_add hb (Nat.dvd_add hd hh), ?_⟩
      have e : (⟨b.addr, b.size + (c.size + hdr), true⟩ : Block).fin hdr = c.fin hdr := by
        unfold Block.fin at hc ⊢
        simp only
        omega
      rw [e]
      exact t
    · exact t

lemma coalesced_glue {b : Block} {bs : List Block} (h : Coalesced bs) :
    Coalesced (glue hdr b bs) := by
  cases bs with
  | nil => exact .singleton b
  | cons c bs =>
    rw [glue_cons]
    split
    · rename_i hf
      cases bs with
      | nil => exact .singleton _
      | cons d bs =>
        cases h with
        | cons_cons hcd h => exact .cons_cons (fun hd => hcd ⟨hf.2, hd.2⟩) h
    · rename_i hf
      exact .cons_cons hf h

lemma glue_head_free (hdr : Nat) (b : Block) (bs : List Block) :
    ∃ c l, glue hdr b bs = c :: l ∧ c.addr = b.addr ∧ c.free = b.free := by
  cases bs with
  | nil => exact ⟨b, [], rfl, rfl, rfl⟩
  | cons d bs =>
    rw [glue_cons]
    split
    · rename_i h
      exact ⟨_, bs, rfl, rfl, h.1.symm⟩
    · exact ⟨b, d :: bs, rfl, rfl, rfl⟩

/-- Putting back blocks that are coalesced among themselves joins nothing. -/
lemma foldr_glue {pre : List Block} {c : Block} {l : List Block}
    (h : Coalesced (pre ++ c :: l)) : pre.foldr (glue hdr) (c :: l) = pre ++ c :: l := by
  induction pre with
  | nil => rfl
  | cons a pre ih =>
    have htail := ih (List.IsChain.of_cons h)
    rw [List.foldr_cons, htail]
    cases pre with
    | nil =>
      cases h with
      | cons_cons hac _ => simp [glue, hac]
    | cons b pre =>
      cases h with
      | cons_cons hab _ => simp [glue, hab]

/-! ## Allocation -/

lemma fits_iff {n : Nat} {b : Block} : b.fits n = true ↔ b.free = true ∧ n ≤ b.size := by
  unfold Block.fits
  exact decide_eq_true_iff

lemma fits_of_find {n : Nat} {bs : List Block} {b : Block} (h : bs.find? (Block.fits n) = some b) :
    b ∈ bs ∧ b.free = true ∧ n ≤ b.size :=
  ⟨List.mem_of_find?_eq_some h, fits_iff.mp (List.find?_some h)⟩

lemma ne_of_find {n : Nat} {bs : List Block} {b c : Block}
    (h : bs.find? (Block.fits n) = some b) (hc : c.free = false) : b ≠ c := by
  rintro rfl
  rw [(fits_of_find h).2.1] at hc
  cases hc

/-- First fit: what lies in front of the chosen block has no room and is kept. -/
lemma alloc_of_find (hdr slack : Nat) {n : Nat} {bs : List Block} {b : Block}
    (h : bs.find? (Block.fits n) = some b) :
    ∃ pre post, bs = pre ++ b :: post ∧ b.fits n ∧ (∀ a ∈ pre, ¬a.fits n) ∧
      alloc hdr slack n bs = pre ++ carve hdr slack n b ++ post := by
  induction bs with
  | nil => cases h
  | cons a bs ih =>
    cases ha : a.fits n with
    | true =>
      obtain rfl : a = b := by simpa [ha] using h
      exact ⟨[], bs, rfl, ha, by simp, by simp [alloc, ha]⟩
    | false =>
      obtain ⟨pre, post, rfl, hb, hpre, e⟩ := ih (by simpa [ha] using h)
      refine ⟨a :: pre, post, rfl, hb, ?_, by simp [alloc, ha, e]⟩
      simpa [ha] using hpre

lemma tiles_carve {n : Nat} {b : Block} (hn : align ∣ n) (hh : align ∣ hdr) (hs : hdr ≤ slack)
    (hb : align ∣ b.size) : Tiles hdr align b.addr (carve hdr slack n b) (b.fin hdr) := by
  unfold carve
  split
  · refine ⟨rfl, hn, rfl, Nat.dvd_sub (Nat.dvd_sub hb hn) hh, ?_⟩
    unfold Block.fin Tiles
    simp only
    omega
  · exact ⟨rfl, hb, rfl⟩

lemma granted_le {n : Nat} {b : Block} (h : n ≤ b.size) :
    n ≤ granted slack n b ∧ granted slack n b ≤ b.size := by
  unfold granted
  split <;> omega

lemma live_carve (n : Nat) (b : Block) : live hdr (carve hdr slack n b) = [b.payload hdr] := by
  unfold carve
  split <;> rfl

lemma used_carve (n : Nat) (b : Block) : used (carve hdr slack n b) = granted slack n b := by
  unfold carve granted
  split <;> simp [used]

/-- The carved blocks fit between a free block's neighbours. -/
lemma coalesced_carve {n : Nat} {b : Block} {pre post : List Block} (hb : b.free = true)
    (h : Coalesced (pre ++ b :: post)) : Coalesced (pre ++ carve hdr slack n b ++ post) := by
  obtain ⟨hpre, hrest, _⟩ := List.isChain_append.mp h
  obtain ⟨hpost, hbpost⟩ : Coalesced post ∧ ∀ c ∈ post.head?, c.free = false := by
    cases post with
    | nil => exact ⟨.nil, by simp⟩
    | cons c post =>
      cases hrest with
      | cons_cons hbc hpost =>
        refine ⟨hpost, ?_⟩
        rintro _ ⟨⟩
        simpa [hb] using hbc
  refine List.isChain_append.mpr ⟨List.isChain_append.mpr ⟨hpre, ?_, ?_⟩, hpost, ?_⟩
  · unfold carve
    split
    · exact .cons_cons (by simp) (.singleton _)
    · exact .singleton _
  · unfold carve
    split <;> simp
  · intro x _ y hy hxy
    simp [hbpost y hy] at hxy

theorem tiles_alloc {n lo hi : Nat} {bs : List Block} {b : Block}
    (h : bs.find? (Block.fits n) = some b) (hn : align ∣ n) (hh : align ∣ hdr) (hs : hdr ≤ slack)
    (t : Tiles hdr align lo bs hi) : Tiles hdr align lo (alloc hdr slack n bs) hi := by
  obtain ⟨pre, post, rfl, _, _, e⟩ := alloc_of_find hdr slack h
  have hb : align ∣ b.size := t.dvd_size (by simp)
  obtain ⟨mid, tpre, ⟨rfl, _, tpost⟩⟩ := tiles_append.mp t
  rw [e, List.append_assoc]
  exact tiles_append.mpr ⟨b.addr, tpre, tiles_append.mpr ⟨_, tiles_carve hn hh hs hb, tpost⟩⟩

theorem coalesced_alloc {n : Nat} {bs : List Block} {b : Block}
    (h : bs.find? (Block.fits n) = some b) (c : Coalesced bs) :
    Coalesced (alloc hdr slack n bs) := by
  obtain ⟨pre, post, rfl, hb, _, e⟩ := alloc_of_find hdr slack h
  rw [e]
  exact coalesced_carve (fits_iff.mp hb).1 c

theorem live_alloc {n : Nat} {bs : List Block} {b : Block}
    (h : bs.find? (Block.fits n) = some b) :
    (live hdr (alloc hdr slack n bs)).Perm (b.payload hdr :: live hdr bs) := by
  obtain ⟨pre, post, rfl, hb, _, e⟩ := alloc_of_find hdr slack h
  rw [e, live_append, live_append, live_carve, live_append, live_cons, if_pos (fits_iff.mp hb).1]
  simp

theorem used_alloc {n : Nat} {bs : List Block} {b : Block}
    (h : bs.find? (Block.fits n) = some b) :
    used (alloc hdr slack n bs) = used bs + granted slack n b := by
  obtain ⟨pre, post, rfl, hb, _, e⟩ := alloc_of_find hdr slack h
  rw [e, used_append, used_append, used_carve, used_append, used_cons, if_pos (fits_iff.mp hb).1]
  omega

/-- The block that is handed out. -/
lemma mem_alloc {n : Nat} {bs : List Block} {b : Block} (h : bs.find? (Block.fits n) = some b) :
    ⟨b.addr, granted slack n b, false⟩ ∈ alloc hdr slack n bs := by
  obtain ⟨pre, post, rfl, _, _, e⟩ := alloc_of_find hdr slack h
  have hcarve : ⟨b.addr, granted slack n b, false⟩ ∈ carve hdr slack n b := by
    unfold carve granted
    split <;> exact List.mem_cons_self
  rw [e]
  exact List.mem_append_left post (List.mem_append_right pre hcarve)

/-- An allocation changes the list inside the block that it takes only. -/
lemma alloc_inside (hs : hdr ≤ slack) {n : Nat} {bs : List Block} {b c : Block}
    (h : bs.find? (Block.fits n) = some b) (hc : c ∈ alloc hdr slack n bs) :
    c ∈ bs ∨ b.addr ≤ c.addr ∧ c.fin hdr ≤ b.fin hdr := by
  obtain ⟨pre, post, rfl, _, _, e⟩ := alloc_of_find hdr slack h
  rw [e, List.append_assoc, List.mem_append, List.mem_append] at hc
  rcases hc with hc | hc | hc
  · exact .inl (List.mem_append_left _ hc)
  · right
    unfold carve at hc
    split at hc
    · rcases List.mem_cons.mp hc with rfl | hc
      · unfold Block.fin
        simp only
        omega
      · obtain rfl := List.mem_singleton.mp hc
        unfold Block.fin
        simp only
        omega
    · obtain rfl := List.mem_singleton.mp hc
      exact ⟨le_rfl, le_rfl⟩
  · exact .inl (List.mem_append_right _ (List.mem_cons_of_mem _ hc))

/-- Used blocks are kept by an allocation. -/
lemma mem_alloc_of_used {n : Nat} {bs : List Block} {b c : Block}
    (h : bs.find? (Block.fits n) = some b) (hc : c ∈ bs) (hf : c.free = false) :
    c ∈ alloc hdr slack n bs := by
  obtain ⟨pre, post, rfl, hfit, _, e⟩ := alloc_of_find hdr slack h
  rw [e]
  rcases List.mem_append.mp hc with hc | hc
  · exact List.mem_append_left post (List.mem_append_left _ hc)
  · rcases List.mem_cons.mp hc with rfl | hc
    · simp [fits_iff, hf] at hfit
    · exact List.mem_append_right _ hc

/-! ## Release -/

/-- The block a live payload address belongs to. -/
lemma mem_live {bs : List Block} {p : Nat} :
    p ∈ live hdr bs ↔ ∃ b ∈ bs, b.free = false ∧ b.payload hdr = p := by
  simp [live, and_assoc]

lemma exists_of_mem_live {bs : List Block} {p : Nat} (h : p ∈ live hdr bs) :
    ∃ pre b post, bs = pre ++ b :: post ∧ b.free = false ∧ b.payload hdr = p := by
  obtain ⟨b, hb, hf, hp⟩ := mem_live.mp h
  obtain ⟨pre, post, rfl⟩ := List.append_of_mem hb
  exact ⟨pre, b, post, rfl, hf, hp⟩

lemma release_append {pre post : List Block} {b : Block}
    (h : ∀ a ∈ pre, a.payload hdr ≠ b.payload hdr) :
    release hdr (b.payload hdr) (pre ++ b :: post) =
      pre.foldr (glue hdr) (glue hdr { b with free := true } post) := by
  induction pre with
  | nil => simp [release]
  | cons a pre ih =>
    have ha := h a (by simp)
    have hrec := ih (fun c hc => h c (by simp [hc]))
    simp [release, ha, hrec]

/-- Release reaches no further than the block in front of the freed one. -/
lemma release_concat {pre post : List Block} {a b : Block} (c : Coalesced (pre ++ a :: b :: post))
    (h : ∀ d ∈ pre ++ [a], d.payload hdr ≠ b.payload hdr) :
    release hdr (b.payload hdr) (pre ++ a :: b :: post) =
      pre ++ glue hdr a (glue hdr { b with free := true } post) := by
  have e : pre ++ a :: b :: post = (pre ++ [a]) ++ b :: post := by simp
  have hb : Coalesced (b :: post) := (List.isChain_append.mp (e ▸ c)).2.1
  have hrest : Coalesced (glue hdr a (glue hdr { b with free := true } post)) :=
    coalesced_glue (coalesced_glue (List.IsChain.of_cons hb))
  obtain ⟨d, l, hd, _, hdf⟩ := glue_head_free hdr a (glue hdr { b with free := true } post)
  rw [e, release_append h, List.foldr_append, List.foldr_cons, List.foldr_nil, hd]
  rw [hd] at hrest
  apply foldr_glue
  obtain ⟨hpre, _, hlast⟩ := List.isChain_append.mp c
  refine List.isChain_append.mpr ⟨hpre, hrest, ?_⟩
  intro x hx y hy
  cases hy
  rw [hdf]
  exact hlast x hx a rfl

lemma Tiles.payload_ne {lo hi : Nat} {pre post : List Block} {b : Block} (hh : 0 < hdr)
    (t : Tiles hdr align lo (pre ++ b :: post) hi) {a : Block} (ha : a ∈ pre) :
    a.payload hdr ≠ b.payload hdr := by
  have hab := (List.pairwise_append.mp t.pairwise).2.2 a ha b (by simp)
  unfold Block.fin at hab
  unfold Block.payload
  omega

theorem tiles_release {p lo hi : Nat} {bs : List Block} (hh : align ∣ hdr)
    (t : Tiles hdr align lo bs hi) : Tiles hdr align lo (release hdr p bs) hi := by
  induction bs generalizing lo with
  | nil => exact t
  | cons b bs ih =>
    obtain ⟨ha, hb, t⟩ := t
    unfold release
    split
    · exact tiles_glue hh ⟨ha, hb, t⟩
    · exact tiles_glue hh ⟨ha, hb, ih t⟩

theorem coalesced_release {p : Nat} {bs : List Block} (c : Coalesced bs) :
    Coalesced (release hdr p bs) := by
  induction bs with
  | nil => exact c
  | cons b bs ih =>
    unfold release
    split
    · exact coalesced_glue (List.IsChain.of_cons c)
    · exact coalesced_glue (ih (List.IsChain.of_cons c))

lemma mem_glue {b c : Block} {bs : List Block} (h : c ∈ glue hdr b bs) :
    c.addr = b.addr ∨ c ∈ bs := by
  cases bs with
  | nil =>
    obtain rfl := List.mem_singleton.mp h
    exact .inl rfl
  | cons d bs =>
    rw [glue_cons] at h
    split at h
    · rcases List.mem_cons.mp h with rfl | h
      · exact .inl rfl
      · exact .inr (List.mem_cons_of_mem d h)
    · rcases List.mem_cons.mp h with rfl | h
      · exact .inl rfl
      · exact .inr h

/-- Release makes no header where there was none. -/
lemma mem_release {p : Nat} {bs : List Block} {c : Block} (h : c ∈ release hdr p bs) :
    ∃ d ∈ bs, d.addr = c.addr := by
  induction bs with
  | nil => cases h
  | cons b bs ih =>
    unfold release at h
    split at h
    · rcases mem_glue h with e | h
      · exact ⟨b, List.mem_cons_self, e.symm⟩
      · exact ⟨c, List.mem_cons_of_mem b h, rfl⟩
    · rcases mem_glue h with e | h
      · exact ⟨b, List.mem_cons_self, e.symm⟩
      · obtain ⟨d, hd, e⟩ := ih h
        exact ⟨d, List.mem_cons_of_mem b hd, e⟩

lemma mem_glue_of_used {b c : Block} {bs : List Block} (hf : c.free = false) (h : c ∈ b :: bs) :
    c ∈ glue hdr b bs := by
  cases bs with
  | nil => exact h
  | cons d bs =>
    rw [glue_cons]
    split
    · rename_i hbd
      rcases List.mem_cons.mp h with rfl | h
      · simp [hf] at hbd
      · rcases List.mem_cons.mp h with rfl | h
        · simp [hf] at hbd
        · exact List.mem_cons_of_mem _ h
    · exact h

/-- Used blocks other than the freed one are kept by a release. -/
lemma mem_release_of_used {p : Nat} {bs : List Block} {c : Block} (hc : c ∈ bs)
    (hf : c.free = false) (hp : c.payload hdr ≠ p) : c ∈ release hdr p bs := by
  induction bs with
  | nil => cases hc
  | cons b bs ih =>
    unfold release
    rcases List.mem_cons.mp hc with rfl | hc
    · rw [if_neg hp]
      exact mem_glue_of_used hf List.mem_cons_self
    · split
      · exact mem_glue_of_used hf (List.mem_cons_of_mem _ hc)
      · exact mem_glue_of_used hf (List.mem_cons_of_mem _ (ih hc))

lemma live_foldr_glue (pre bs : List Block) :
    live hdr (pre.foldr (glue hdr) bs) = live hdr (pre ++ bs) := by
  induction pre with
  | nil => rfl
  | cons a pre ih => simp [live_glue, live_cons, ih]

lemma used_foldr_glue (pre bs : List Block) :
    used (pre.foldr (glue hdr) bs) = used (pre ++ bs) := by
  induction pre with
  | nil => rfl
  | cons a pre ih => simp [used_glue, used_cons, ih]

lemma Tiles.live_nodup {lo hi : Nat} {bs : List Block} (hh : 0 < hdr)
    (t : Tiles hdr align lo bs hi) : (live hdr bs).Nodup := by
  refine List.pairwise_map.mpr ((t.pairwise.filter _).imp fun {a b} hab => ?_)
  unfold Block.fin at hab
  unfold Block.payload
  omega

theorem live_release {lo hi : Nat} {pre post : List Block} {b : Block} (hh : 0 < hdr)
    (t : Tiles hdr align lo (pre ++ b :: post) hi) (hb : b.free = false) :
    (live hdr (release hdr (b.payload hdr) (pre ++ b :: post))).Perm
      ((live hdr (pre ++ b :: post)).erase (b.payload hdr)) := by
  rw [release_append fun a ha => t.payload_ne hh ha, live_foldr_glue]
  have hmid : (live hdr (pre ++ b :: post)).Perm (b.payload hdr :: live hdr (pre ++ post)) := by
    simp [live_cons, hb]
  have herase := (hmid.erase (b.payload hdr)).symm
  rw [List.erase_cons_head] at herase
  simpa [live_glue, live_cons] using herase

lemma live_release_of_mem {p lo hi : Nat} {bs : List Block} (hh : 0 < hdr)
    (t : Tiles hdr align lo bs hi) (hp : p ∈ live hdr bs) :
    (live hdr (release hdr p bs)).Perm ((live hdr bs).erase p) := by
  obtain ⟨pre, b, post, rfl, hf, rfl⟩ := exists_of_mem_live hp
  exact live_release hh t hf

theorem used_release {lo hi : Nat} {pre post : List Block} {b : Block} (hh : 0 < hdr)
    (t : Tiles hdr align lo (pre ++ b :: post) hi) (hb : b.free = false) :
    used (release hdr (b.payload hdr) (pre ++ b :: post)) + b.size = used (pre ++ b :: post) := by
  rw [release_append fun a ha => t.payload_ne hh ha, used_foldr_glue]
  simp only [used_append, used_glue, used_cons, hb]
  simp
  omega

/-- A block in front of blocks that it is coalesced with stays as it is. -/
lemma glue_of_coalesced {b : Block} {bs : List Block} (c : Coalesced (b :: bs)) :
    glue hdr b bs = b :: bs := by
  cases bs with
  | nil => rfl
  | cons d bs =>
    cases c with
    | cons_cons hbd _ => exact if_neg hbd

/-- Freeing the carved block in place gives the free block back, joined with the remainder. -/
lemma glue_carve {n : Nat} {b : Block} {post : List Block} (hs : hdr ≤ slack) (hb : b.free = true)
    (c : Coalesced (b :: post)) :
    ∃ a rest, carve hdr slack n b = a :: rest ∧ a.payload hdr = b.payload hdr ∧
      glue hdr { a with free := true } (rest ++ post) = b :: post := by
  obtain ⟨addr, size, free⟩ := b
  obtain rfl : free = true := hb
  unfold carve
  by_cases hc : n + slack < size
  · rw [if_pos hc]
    refine ⟨_, _, rfl, rfl, ?_⟩
    have hsize : n + (size - n - hdr + hdr) = size := by omega
    rw [List.singleton_append, glue_cons, if_pos ⟨rfl, rfl⟩]
    simp only [hsize]
  · rw [if_neg hc]
    exact ⟨_, _, rfl, rfl, glue_of_coalesced c⟩

/-- Release undoes an allocation: no free block of a coalesced list has a free neighbour. -/
theorem release_alloc {n lo hi : Nat} {bs : List Block} {b : Block} (hh : 0 < hdr) (hs : hdr ≤ slack)
    (t : Tiles hdr align lo bs hi) (c : Coalesced bs) (h : bs.find? (Block.fits n) = some b) :
    release hdr (b.payload hdr) (alloc hdr slack n bs) = bs := by
  obtain ⟨pre, post, rfl, hfit, _, e⟩ := alloc_of_find hdr slack h
  have hb : b.free = true := (fits_iff.mp hfit).1
  have hpost : Coalesced (b :: post) := (List.isChain_append.mp c).2.1
  obtain ⟨a, rest, hcarve, hpay, hglue⟩ := glue_carve (n := n) hs hb hpost
  have hne : ∀ d ∈ pre, d.payload hdr ≠ a.payload hdr := fun d hd => hpay ▸ t.payload_ne hh hd
  rw [e, hcarve, List.append_assoc, List.cons_append, ← hpay, release_append hne, hglue]
  exact foldr_glue c

/-! ## The empty heap -/

/-- A coalesced tiling without used blocks is one free block over the whole interval. -/
theorem Tiles.eq_singleton {lo hi : Nat} {bs : List Block} (t : Tiles hdr align lo bs hi)
    (c : Coalesced bs) (hl : live hdr bs = []) (hlt : lo < hi) :
    bs = [⟨lo, hi - lo - hdr, true⟩] := by
  have hfree : ∀ b ∈ bs, b.free = true := by
    simpa [live] using hl
  match bs, t, c, hfree with
  | [], t, _, _ => exact absurd t (by unfold Tiles; omega)
  | [b], t, _, hfree =>
    obtain ⟨addr, size, free⟩ := b
    obtain ⟨rfl, _, hfin⟩ := t
    have hf := hfree _ (List.mem_singleton_self _)
    simp only [Block.fin] at hfin hf
    simp only [List.cons.injEq, and_true, Block.mk.injEq, true_and]
    simp only [Tiles] at hfin
    exact ⟨by omega, hf⟩
  | a :: b :: bs, _, .cons_cons hab _, hfree =>
    exact absurd ⟨hfree a (by simp), hfree b (by simp)⟩ hab

/-! ## Counting -/

lemma vacant_cons (b : Block) (bs : List Block) :
    vacant (b :: bs) = if b.free then b.size + vacant bs else vacant bs := by
  cases h : b.free <;> simp [vacant, h]

/-- The sizes and the headers make up the interval. -/
theorem Tiles.sizes {lo hi : Nat} {bs : List Block} (t : Tiles hdr align lo bs hi) :
    lo + used bs + vacant bs + hdr * bs.length = hi := by
  induction bs generalizing lo with
  | nil =>
    have h : lo = hi := t
    simpa [used, vacant] using h
  | cons b bs ih =>
    obtain ⟨rfl, _, t⟩ := t
    have h := ih t
    unfold Block.fin at h
    rw [used_cons, vacant_cons, List.length_cons, Nat.mul_add]
    split <;> omega

/-- At most one more block is free than used. -/
theorem Coalesced.length_le {bs : List Block} (c : Coalesced bs) :
    2 * (bs.filter Block.free).length ≤ bs.length + 1 := by
  match bs, c with
  | [], _ => simp
  | [b], _ =>
    cases h : b.free <;> simp [h]
  | a :: b :: bs, .cons_cons hab c =>
    have hb : 2 * (bs.filter Block.free).length ≤ bs.length + 1 := Coalesced.length_le c.of_cons
    have htail : 2 * ((b :: bs).filter Block.free).length ≤ (b :: bs).length + 1 :=
      Coalesced.length_le c
    cases ha : a.free with
    | true =>
      have hbf : b.free = false := by simpa [ha] using hab
      simp only [List.filter_cons, ha, hbf, List.length_cons] at *
      simp at *
      omega
    | false =>
      simp only [List.filter_cons, ha, List.length_cons] at *
      simp at *
      omega

section Rooms

variable (hdr) (n : Nat)

lemma rooms_append (l₁ l₂ : List Block) :
    rooms hdr n (l₁ ++ l₂) = rooms hdr n l₁ + rooms hdr n l₂ := by
  simp [rooms]

lemma rooms_cons (b : Block) (bs : List Block) :
    rooms hdr n (b :: bs) =
      if b.free then (b.size + hdr) / (n + hdr) + rooms hdr n bs else rooms hdr n bs := by
  cases h : b.free <;> simp [rooms, h]

variable {hdr n}

/-- Taking one block off a free block leaves room for one less. -/
lemma rooms_carve {b : Block} (h : n ≤ b.size) (hh : 0 < hdr) (hslack : slack < n + hdr)
    (hs : hdr ≤ slack) :
    rooms hdr n (carve hdr slack n b) + 1 = (b.size + hdr) / (n + hdr) := by
  have hpos : 0 < n + hdr := by omega
  unfold carve
  split
  · next hlt =>
    simp only [rooms]
    have hsize : b.size + hdr = (b.size - n - hdr + hdr) + (n + hdr) := by omega
    rw [hsize, Nat.add_div_right _ hpos]
    simp
  · next hge =>
    have hone : (b.size + hdr) / (n + hdr) = 1 := Nat.div_eq_of_lt_le (by omega) (by omega)
    simp [rooms, hone]

end Rooms

/-- A request that is met uses up one room. -/
theorem rooms_alloc {n : Nat} {bs : List Block} {b : Block}
    (h : bs.find? (Block.fits n) = some b) (hh : 0 < hdr) (hslack : slack < n + hdr)
    (hs : hdr ≤ slack) : rooms hdr n (alloc hdr slack n bs) + 1 = rooms hdr n bs := by
  obtain ⟨pre, post, rfl, hb, _, e⟩ := alloc_of_find hdr slack h
  obtain ⟨hfree, hle⟩ := fits_iff.mp hb
  have hcarve := rooms_carve hle hh hslack hs
  rw [e, rooms_append, rooms_append, rooms_append, rooms_cons, if_pos hfree]
  omega

/-- A request fails if and only if there is no room left. -/
theorem rooms_eq_zero {n : Nat} {bs : List Block} (hh : 0 < hdr) :
    rooms hdr n bs = 0 ↔ bs.find? (Block.fits n) = none := by
  have hpos : 0 < n + hdr := by omega
  rw [List.find?_eq_none]
  induction bs with
  | nil => simp [rooms]
  | cons b bs ih =>
    rw [rooms_cons, List.forall_mem_cons, fits_iff]
    split
    · next hfree =>
      rw [Nat.add_eq_zero_iff, Nat.div_eq_zero_iff_lt hpos]
      refine and_congr ⟨fun hlt h => ?_, fun h => ?_⟩ ih
      · omega
      · by_contra hge
        exact h ⟨hfree, by omega⟩
    · next hused =>
      exact ih.trans (and_iff_right fun h => hused h.1).symm

end FirstFit
