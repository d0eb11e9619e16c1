import Hydra.Mm.Frame

/-!
# Capabilities

`lib/libhydra/capability.c` represents a capability by the address of a 16-byte struct on the heap
of the kernel, and takes an address for a capability if the struct there ends in a magic number. Any
task can write these bytes into memory of its own, and a freed capability lives on in the memory it
was in (`capability_sound_fails`).

A history of `Tokens` is a heap history with the capabilities that were created. As long as no task
writes or frees them (`Unforged`), the allocator itself forges none: no header it writes can be
taken for a magic number, and a capability that passes the check has been created with one of the
permissions asked for (`capability_sound`).
-/

namespace Hydra.LibHydra
open ByteMem FirstFit Hydra.Mm

/-- `CAPABILITY_MAGIC`. -/
def capabilityMagic : Nat := 0xDEADBEEFCAFEBABE

/-- `sizeof(struct capability)`. -/
def sizeofCapability : UInt32 := 16

/-- `cap->permissions`, at offset 4. -/
def capPermissions (m : Mem) (cap : Nat) : Nat := load m (cap + 4) 4

/-- `cap->magic`, at offset 8. -/
def capMagic (m : Mem) (cap : Nat) : Nat := load m (cap + 8) 8

/-- Fill in a `struct capability`; `process_id` is at offset 0. -/
def fillCapability (m : Mem) (cap : Nat) (process : Int) (permissions : UInt32) : Mem :=
  let m := store m cap 4 (ofInt32 process)
  let m := store m (cap + 4) 4 permissions.toNat
  store m (cap + 8) 8 capabilityMagic

/-- C `create_capability`: the capability, or 0, and the heap afterwards. The permissions are an
`int` that is used as a set of bits. -/
def createCapability (h : Heap) (process : Int) (permissions : UInt32) : Option (Nat × Heap) :=
  (kmalloc h sizeofCapability).map fun (cap, h) =>
    if cap = 0 then (0, h)
    else (cap, { h with mem := fillCapability h.mem cap process permissions })

/-- C `check_capability`. -/
def checkCapability (m : Mem) (cap : Nat) (operation : UInt32) : Int :=
  if cap = 0 ∨ capMagic m cap ≠ capabilityMagic then 0
  else if capPermissions m cap &&& operation.toNat ≠ 0 then 1
  else 0

/-! ## The magic number -/

/-- The magic number ends the struct at `cap`. -/
def HasMagic (m : Mem) (cap : Nat) : Prop := capMagic m cap = capabilityMagic

lemma HasMagic.byte {m : Mem} {cap : Nat} (h : HasMagic m cap) {i : Nat} (hi : i < 8) :
    (m (cap + 8 + i)).toNat = capabilityMagic / 256 ^ i % 256 :=
  (byte_eq m hi).trans (congrArg (fun v => v / 256 ^ i % 256) h)

lemma HasMagic.congr {m m' : Mem} {cap : Nat} (h : HasMagic m' cap)
    (e : ∀ x, cap + 8 ≤ x → x < cap + 16 → m' x = m x) : HasMagic m cap :=
  (load_congr e).symm.trans h

lemma capPermissions_congr {m m' : Mem} {cap : Nat}
    (e : ∀ x, cap + 4 ≤ x → x < cap + 8 → m' x = m x) :
    capPermissions m' cap = capPermissions m cap :=
  load_congr e

/-- No byte of the magic number is a multiple of 8. -/
lemma HasMagic.byte_mod {m : Mem} {cap x : Nat} (h : HasMagic m cap) (hlo : cap + 8 ≤ x)
    (hhi : x < cap + 16) : (m x).toNat % 8 ≠ 0 := by
  obtain ⟨i, rfl⟩ := Nat.exists_eq_add_of_le hlo
  have hbytes : ∀ i < 8, capabilityMagic / 256 ^ i % 256 % 8 ≠ 0 := by decide
  have hi : i < 8 := by omega
  rw [h.byte hi]
  exact hbytes i hi

/-- The magic number does not overlap itself. -/
lemma HasMagic.apart {m : Mem} {c d : Nat} (hc : HasMagic m c) (hd : HasMagic m d) (hlt : c < d) :
    c + 8 ≤ d := by
  by_contra hover
  obtain ⟨k, rfl⟩ := Nat.exists_eq_add_of_lt hlt
  have hself : ∀ k < 7, ∃ i < 8, k + 1 + i < 8 ∧
      capabilityMagic / 256 ^ (k + 1 + i) % 256 ≠ capabilityMagic / 256 ^ i % 256 := by decide
  obtain ⟨i, hi, hki, hne⟩ := hself k (by omega)
  refine hne ?_
  have haddr : c + k + 1 + 8 + i = c + 8 + (k + 1 + i) := by omega
  rw [← hc.byte hki, ← hd.byte hi, haddr]

/-- The magic number does not overlap a header: its bytes would be the lowest of a size or of a
link, or the highest of a link. -/
lemma HasMagic.hdr {m : Mem} {c b : Nat} (hc : HasMagic m c) (hb : HdrForm m b) :
    c + 16 ≤ b ∨ b + 16 ≤ c + 8 := by
  by_contra hover
  obtain ⟨hsize, hnext, hlow⟩ := hb
  unfold blkSize blkNext at *
  rcases le_or_gt (c + 8) b with h₁ | h₁
  · refine hc.byte_mod h₁ (by omega) ?_
    have e := byte_eq m (a := b) (n := 4) (i := 0) (by decide)
    rw [Nat.add_zero] at e
    omega
  · rcases le_or_gt (c + 8) (b + 8) with h₂ | h₂
    · refine hc.byte_mod h₂ (by omega) ?_
      have e := byte_eq m (a := b + 8) (n := 8) (i := 0) (by decide)
      rw [Nat.add_zero] at e
      omega
    · refine hc.byte_mod (x := b + 8 + 7) (by omega) (by omega) ?_
      have e := byte_eq m (a := b + 8) (n := 8) (i := 7) (by decide)
      rw [e, Nat.div_eq_of_lt (hlow.trans (by decide))]

/-- The upper half of a link is 0. -/
lemma HdrForm.permissions {m : Mem} {b : Nat} (hb : HdrForm m b) :
    capPermissions m (b + 8) = 0 := by
  have hlow := hb.low
  have hsum : blkNext m b = load m (b + 8) 4 + 256 ^ 4 * load m (b + 8 + 4) 4 :=
    load_add m (b + 8) 4 4
  unfold capPermissions
  omega

/-! ## The struct -/

lemma agree_fillCapability (m : Mem) (cap : Nat) (process : Int) (permissions : UInt32) :
    AgreeOff cap (cap + 16) m (fillCapability m cap process permissions) := by
  refine (((AgreeOff.refl cap (cap + 16) m).store _ ?_ ?_).store _ ?_ ?_).store _ ?_ ?_ <;> omega

lemma hasMagic_fillCapability (m : Mem) (cap : Nat) (process : Int) (permissions : UInt32) :
    HasMagic (fillCapability m cap process permissions) cap :=
  load_store_same _ (cap + 8) 8 capabilityMagic

lemma permissions_fillCapability (m : Mem) (cap : Nat) (process : Int) (permissions : UInt32) :
    capPermissions (fillCapability m cap process permissions) cap = permissions.toNat := by
  unfold capPermissions fillCapability
  simp only
  rw [load_store_disjoint _ _ (by omega), load_store_same]
  exact Nat.mod_eq_of_lt permissions.toNat_lt

/-- A set of bits that shares a bit with a single one contains it. -/
lemma single_bit {permissions operation : UInt32} {k : Nat} (hk : operation.toNat = 2 ^ k)
    (hbit : permissions &&& operation ≠ 0) : permissions &&& operation = operation := by
  have hand : (permissions &&& operation).toNat = (permissions.toNat.testBit k).toNat * 2 ^ k := by
    rw [UInt32.toNat_and, hk, Nat.and_two_pow]
  apply UInt32.toNat_inj.mp
  rw [hand, hk]
  cases htest : permissions.toNat.testBit k with
  | true => simp
  | false =>
    rw [htest] at hand
    refine absurd (UInt32.toNat_inj.mp ?_) hbit
    simpa using hand

/-! ## Histories -/

/-- A capability that was created. -/
structure Token where
  cap : Nat
  process : Int
  permissions : UInt32
  deriving DecidableEq

/-- What tasks do with the heap: the operations of a heap history, and creating a capability. -/
inductive TokenOp where
  | heap (op : HeapOp)
  | create (process : Int) (permissions : UInt32)

/-- A heap history with every capability that was created. -/
structure Tokens extends Mm.History where
  created : List Token

namespace Tokens

/-- The history after `mm_init` on a region. -/
def init (r : Region) (m : Mem) : Tokens := ⟨Mm.History.init r m, []⟩

def step (s : Tokens) : TokenOp → Option Tokens
  | .heap op => (s.toHistory.step op).map fun s' => ⟨s', s.created⟩
  | .create process permissions =>
    (createCapability s.heap process permissions).map fun (cap, h) =>
      if cap = 0 then ⟨⟨h, s.livePtrs⟩, s.created⟩
      else ⟨⟨h, cap :: s.livePtrs⟩, ⟨cap, process, permissions⟩ :: s.created⟩

/-- The contract of callers of the heap: a task writes in its own payloads only. -/
def ok (s : Tokens) : TokenOp → Prop
  | .heap op => s.toHistory.ok op
  | .create _ _ => True

instance (s : Tokens) : ∀ op, Decidable (ok s op)
  | .heap op => inferInstanceAs (Decidable (s.toHistory.ok op))
  | .create _ _ => inferInstanceAs (Decidable True)

/-- The step frees no capability, and writes no byte that makes a capability or changes the
permissions of one. -/
def Unforged (s : Tokens) : TokenOp → Prop
  | .heap (.kfree p) => ∀ x ∈ s.created, x.cap ≠ p
  | .heap (.write a v) => ∀ cap, HasMagic (Function.update s.heap.mem a v) cap →
      HasMagic s.heap.mem cap ∧
        capPermissions (Function.update s.heap.mem a v) cap = capPermissions s.heap.mem cap
  | .heap (.kmalloc _) => True
  | .create _ _ => True

/-- The run of a list of operations from boot. -/
abbrev run (r : Region) (m : Mem) (ops : List TokenOp) : Option Tokens :=
  Run.run step (init r m) ops

end Tokens

/-- What a magic number in memory stands for: a capability that was created, with its permissions,
or the first two fields of one, with the link of its header in the place of the permissions. -/
def Genuine (created : List Token) (m : Mem) (cap : Nat) : Prop :=
  ∃ x ∈ created, cap = x.cap ∧ capPermissions m cap = x.permissions.toNat ∨ cap + 8 = x.cap

/-- The heap is well-formed, the capabilities are in payloads of their own, and apart from what was
in memory at boot there is no other magic number. -/
structure Safe (r : Region) (boot : Mem) (created : List Token) (h : Heap) (bs : List Block) :
    Prop where
  wf : WF r h bs
  blocks : ∀ x ∈ created, ∃ b ∈ bs, b.free = false ∧ b.payload 16 = x.cap ∧ 16 ≤ b.size
  genuine : ∀ cap, HasMagic h.mem cap → HasMagic boot cap ∨ Genuine created h.mem cap

namespace Safe

variable {r : Region} {boot : Mem} {created : List Token} {h h' : Heap} {bs bs' : List Block}

/-- Writes to headers make no magic number and leave the capabilities as they are. -/
lemma headers (s : Safe r boot created h bs) (w' : WF r h' bs')
    (hblocks : ∀ b ∈ bs, b.free = false → (∃ x ∈ created, b.payload 16 = x.cap) → b ∈ bs')
    {hs : List Block} (hframe : HeadersOnly hs h.mem h'.mem)
    (hform : ∀ c ∈ hs, HdrForm h'.mem c.addr)
    (hsame : ∀ b ∈ bs, b ∈ bs' → ∀ i < b.size,
      h'.mem (b.payload 16 + i) = h.mem (b.payload 16 + i)) :
    Safe r boot created h' bs' := by
  refine ⟨w', fun x hx => ?_, fun cap hcap => ?_⟩
  · obtain ⟨b, hb, hf, hp, hsize⟩ := s.blocks x hx
    exact ⟨b, hblocks b hb hf ⟨x, hx, hp⟩, hf, hp, hsize⟩
  · have hold : HasMagic h.mem cap := hcap.congr fun x hlo hhi => hframe x fun c hc => by
      have hapart := hcap.hdr (hform c hc)
      omega
    refine (s.genuine cap hold).imp_right ?_
    rintro ⟨x, hx, ⟨rfl, hperm⟩ | hlow⟩
    · obtain ⟨b, hb, hf, hp, hsize⟩ := s.blocks x hx
      refine ⟨x, hx, .inl ⟨rfl, ?_⟩⟩
      rw [← hperm]
      refine capPermissions_congr fun y hlo hhi => ?_
      obtain ⟨i, rfl⟩ := Nat.exists_eq_add_of_le hlo
      have hsame' := hsame b hb (hblocks b hb hf ⟨x, hx, hp⟩) (4 + i) (by omega)
      rwa [hp, ← Nat.add_assoc] at hsame'
    · exact ⟨x, hx, .inr hlow⟩

lemma alloc (s : Safe r boot created h bs) (hram : r.stop ≤ 2 ^ 32) {size : UInt32} {b : Block}
    (hb : bs.find? (Block.fits (alignSize size).toNat) = some b)
    (hcall : kmalloc h size = some (b.payload 16, h')) :
    Safe r boot created h' (FirstFit.alloc 16 48 (alignSize size).toNat bs) := by
  obtain ⟨h₁, hcall₁, w', _, hframe⟩ := kmalloc_block s.wf hb
  rw [hcall, Option.some.injEq, Prod.mk.injEq] at hcall₁
  obtain ⟨-, rfl⟩ := hcall₁
  refine s.headers w' (fun c hc hf _ => mem_alloc_of_used hb hc hf) hframe
    (fun c hc => w'.hdrForm hram hc) fun c _ hc i hi => ?_
  exact hframe.payload w' hc hi

lemma release (s : Safe r boot created h bs) (hram : r.stop ≤ 2 ^ 32) {b : Block} (hb : b ∈ bs)
    (hf : b.free = false) (hkeep : ∀ x ∈ created, x.cap ≠ b.payload 16)
    (hcall : kfree h (b.payload 16) = some h') :
    Safe r boot created h' (FirstFit.release 16 (b.payload 16) bs) := by
  obtain ⟨h₁, hcall₁, w', hframe⟩ := kfree_live s.wf (mem_live.mpr ⟨b, hb, hf, rfl⟩)
  obtain rfl := Option.some.inj (hcall.symm.trans hcall₁)
  refine s.headers w' (fun c hc hcf hx => ?_) hframe (kfree_form s.wf hram hb hf hcall)
    fun c hc _ i hi => hframe.payload s.wf hc hi
  obtain ⟨x, hx, hp⟩ := hx
  exact mem_release_of_used hc hcf (hp ▸ hkeep x hx)

/-- A write that forges nothing. -/
lemma write (s : Safe r boot created h bs) {m' : Mem} (w' : WF r { h with mem := m' } bs)
    (hunforged : ∀ cap, HasMagic m' cap →
      HasMagic h.mem cap ∧ capPermissions m' cap = capPermissions h.mem cap) :
    Safe r boot created { h with mem := m' } bs := by
  refine ⟨w', s.blocks, fun cap hcap => ?_⟩
  obtain ⟨hold, hperm⟩ := hunforged cap hcap
  refine (s.genuine cap hold).imp_right ?_
  rintro ⟨x, hx, ⟨rfl, e⟩ | hlow⟩
  · exact ⟨x, hx, .inl ⟨rfl, hperm.trans e⟩⟩
  · exact ⟨x, hx, .inr hlow⟩

/-- Creating a capability in a payload of its own. -/
lemma create (s : Safe r boot created h bs) (hram : r.stop ≤ 2 ^ 32) {b : Block} (hb : b ∈ bs)
    (hf : b.free = false) (hsize : 16 ≤ b.size) (hnew : ∀ x ∈ created, x.cap ≠ b.payload 16)
    (process : Int) (permissions : UInt32) :
    Safe r boot (⟨b.payload 16, process, permissions⟩ :: created)
      { h with mem := fillCapability h.mem (b.payload 16) process permissions } bs := by
  have e := agree_fillCapability h.mem (b.payload 16) process permissions
  have hmagic := hasMagic_fillCapability h.mem (b.payload 16) process permissions
  have hperm := permissions_fillCapability h.mem (b.payload 16) process permissions
  have hpay : b.payload 16 = b.addr + 16 := rfl
  have hfin : b.fin 16 = b.addr + 16 + b.size := rfl
  have w' : WF r { h with mem := fillCapability h.mem (b.payload 16) process permissions } bs :=
    s.wf.payload_write hb (e.mono le_rfl (by omega))
  have hform : HdrForm (fillCapability h.mem (b.payload 16) process permissions) b.addr :=
    w'.hdrForm hram hb
  generalize fillCapability h.mem (b.payload 16) process permissions = m' at *
  refine ⟨w', ?_, fun cap hcap => ?_⟩
  · rintro x (_ | ⟨_, hx⟩)
    · exact ⟨b, hb, hf, rfl, hsize⟩
    · exact s.blocks x hx
  · rcases eq_or_ne cap (b.payload 16) with rfl | hne
    · exact .inr ⟨_, List.mem_cons_self, .inl ⟨rfl, hperm⟩⟩
    rcases eq_or_ne (cap + 8) (b.payload 16) with hlow | hlow
    · exact .inr ⟨_, List.mem_cons_self, .inr hlow⟩
    -- every other magic number is apart from the new struct
    have hapart : cap + 16 ≤ b.payload 16 ∨ b.payload 16 + 16 ≤ cap + 8 := by
      have hhdr := hcap.hdr hform
      rcases hne.lt_or_gt with hlt | hlt
      · have hbelow := hcap.apart hmagic hlt
        omega
      · have habove := hmagic.apart hcap hlt
        omega
    have hold : HasMagic h.mem cap := hcap.congr fun x hlo hhi => e x (by omega)
    refine (s.genuine cap hold).imp_right ?_
    rintro ⟨x, hx, ⟨rfl, hx'⟩ | hlow'⟩
    · refine ⟨x, List.mem_cons_of_mem _ hx, .inl ⟨rfl, ?_⟩⟩
      rw [← hx']
      refine capPermissions_congr fun y hlo hhi => e y ?_
      obtain ⟨c, hc, _, hcp, hcsize⟩ := s.blocks x hx
      have hbc : b ≠ c := by
        rintro rfl
        exact hnew x hx hcp.symm
      have hapart' := s.wf.tiles.payloads_apart hb hc hbc
      have hcpay : c.payload 16 = c.addr + 16 := rfl
      have hcfin : c.fin 16 = c.addr + 16 + c.size := rfl
      omega
    · exact ⟨x, List.mem_cons_of_mem _ hx, .inr hlow'⟩

/-- What passes the check. -/
lemma check (s : Safe r boot created h bs) (hram : r.stop ≤ 2 ^ 32) {cap : Nat} {operation : UInt32}
    (hcheck : checkCapability h.mem cap operation ≠ 0) :
    HasMagic boot cap ∨ ∃ x ∈ created, x.cap = cap ∧ x.permissions &&& operation ≠ 0 := by
  unfold checkCapability at hcheck
  split at hcheck
  · exact absurd rfl hcheck
  rename_i hvalid
  split at hcheck
  swap
  · exact absurd rfl hcheck
  rename_i hbit
  have hcap : HasMagic h.mem cap := not_not.mp (not_or.mp hvalid).2
  refine (s.genuine cap hcap).imp_right ?_
  rintro ⟨x, hx, ⟨rfl, hperm⟩ | hlow⟩
  · refine ⟨x, hx, rfl, fun h0 => hbit ?_⟩
    rw [hperm, ← UInt32.toNat_and, h0]
    rfl
  · -- the permissions of these bytes are in the link of the header behind them
    obtain ⟨b, hb, _, hp, _⟩ := s.blocks x hx
    have hpay : b.payload 16 = b.addr + 16 := rfl
    obtain rfl : cap = b.addr + 8 := by omega
    rw [HdrForm.permissions (s.wf.hdrForm hram hb), Nat.zero_and] at hbit
    exact absurd rfl hbit

end Safe

namespace Tokens

/-- The invariant of histories, and the heap is safe. -/
def Inv (r : Region) (boot : Mem) (s : Tokens) : Prop :=
  ∃ bs, Safe r boot s.created s.heap bs ∧ s.livePtrs.Perm (live 16 bs)

variable {r : Region} {boot : Mem} {s : Tokens}

lemma init_inv (r : Region) (m : Mem) : Inv r (init r m).heap.mem (init r m) :=
  ⟨_, ⟨mmInit_wf r rfl, nofun, fun _ hcap => .inl hcap⟩, .nil⟩

lemma kmalloc_inv (hram : r.stop ≤ 2 ^ 32) (hs : Inv r boot s) (size : UInt32) :
    ∃ s', s.step (.heap (.kmalloc size)) = some s' ∧ Inv r boot s' := by
  obtain ⟨bs, hsafe, hlive⟩ := hs
  rcases Mm.History.kmalloc_cases hsafe.wf hlive size with
    ⟨_, hstep⟩ | ⟨b, h', hfind, hcall, hstep, _, hlive'⟩
  · exact ⟨s, congrArg (Option.map _) hstep, bs, hsafe, hlive⟩
  · exact ⟨_, congrArg (Option.map _) hstep, _, hsafe.alloc hram hfind hcall, hlive'⟩

lemma kfree_inv (hram : r.stop ≤ 2 ^ 32) (hs : Inv r boot s) {p : Nat}
    (hop : s.ok (.heap (.kfree p))) (hkeep : s.Unforged (.heap (.kfree p))) :
    ∃ s', s.step (.heap (.kfree p)) = some s' ∧ Inv r boot s' := by
  obtain ⟨bs, hsafe, hlive⟩ := hs
  rcases Mm.History.kfree_cases hsafe.wf hlive hop with
    ⟨_, hstep⟩ | ⟨b, hb, h', hf, rfl, hcall, hstep, _, hlive'⟩
  · exact ⟨s, congrArg (Option.map _) hstep, bs, hsafe, hlive⟩
  · exact ⟨_, congrArg (Option.map _) hstep, _, hsafe.release hram hb hf hkeep hcall, hlive'⟩

lemma write_inv (hs : Inv r boot s) {a : Nat} {v : UInt8} (hop : s.ok (.heap (.write a v)))
    (hunforged : s.Unforged (.heap (.write a v))) :
    ∃ s', s.step (.heap (.write a v)) = some s' ∧ Inv r boot s' := by
  obtain ⟨bs, hsafe, hlive⟩ := hs
  have hop' : s.toHistory.ok (.write a v) := hop
  obtain ⟨b, hb, _, _, hlo, hhi⟩ := Mm.History.exists_of_write hsafe.wf hlive hop'
  exact ⟨_, rfl, bs, hsafe.write (Mm.History.write_wf hsafe.wf hb hlo hhi v) hunforged, hlive⟩

lemma create_inv (hram : r.stop ≤ 2 ^ 32) (hs : Inv r boot s) (process : Int)
    (permissions : UInt32) :
    ∃ s', s.step (.create process permissions) = some s' ∧ Inv r boot s' := by
  obtain ⟨bs, hsafe, hlive⟩ := hs
  rcases Mm.History.kmalloc_cases hsafe.wf hlive sizeofCapability with
    ⟨hnone, _⟩ | ⟨b, h', hfind, hcall, _, w', hlive'⟩
  · have hstep : s.step (.create process permissions) = some s := by
      simp [step, createCapability, kmalloc_none hsafe.wf hnone]
    exact ⟨s, hstep, bs, hsafe, hlive⟩
  · have hpay : b.payload 16 ≠ 0 := b.payload_ne_zero (by decide)
    have hstep : s.step (.create process permissions) = some
        ⟨⟨{ h' with mem := fillCapability h'.mem (b.payload 16) process permissions },
          b.payload 16 :: s.livePtrs⟩, ⟨b.payload 16, process, permissions⟩ :: s.created⟩ := by
      simp [step, createCapability, hcall, hpay]
    obtain ⟨_, _, _, hgranted, _⟩ := kmalloc_block hsafe.wf hfind
    have hnew : ∀ x ∈ s.created, x.cap ≠ b.payload 16 := by
      intro x hx e
      obtain ⟨c, hc, hcf, hcp, _⟩ := hsafe.blocks x hx
      have hb : b ∈ bs := List.mem_of_find?_eq_some hfind
      have hbc := hsafe.wf.tiles.payload_inj (by decide) hb hc (hcp.trans e).symm
      exact ne_of_find hfind hcf hbc
    have hsafe' := (hsafe.alloc hram hfind hcall).create hram (mem_alloc hfind) rfl hgranted hnew
    exact ⟨_, hstep, _, hsafe' process permissions, hlive'⟩

/-- The allocator and `create_capability` forge no capability. -/
theorem step_inv (hram : r.stop ≤ 2 ^ 32) (s : Tokens) (op : TokenOp) (hs : Inv r boot s)
    (hop : s.ok op ∧ s.Unforged op) : ∃ s', s.step op = some s' ∧ Inv r boot s' := by
  cases op with
  | create process permissions => exact create_inv hram hs process permissions
  | heap op =>
    cases op with
    | kmalloc size => exact kmalloc_inv hram hs size
    | kfree p => exact kfree_inv hram hs hop.1 hop.2
    | write a v => exact write_inv hs hop.1 hop.2

end Tokens

/-- In a run in which no task forges or frees capabilities, what passes the check has been in memory
since boot, or is a capability that was created with one of the permissions asked for; of a single
permission this is the permission. -/
theorem capability_sound (r : Region) (hram : r.stop ≤ 2 ^ 32) (m : Mem) (ops : List TokenOp)
    (hok : Run.Admissible Tokens.step (fun s op => s.ok op ∧ s.Unforged op) (Tokens.init r m) ops) :
    ∃ s, Tokens.run r m ops = some s ∧ ∀ cap operation,
      checkCapability s.heap.mem cap operation ≠ 0 →
      HasMagic (Tokens.init r m).heap.mem cap ∨
      ∃ x ∈ s.created, x.cap = cap ∧ x.permissions &&& operation ≠ 0 ∧
        ∀ k, operation.toNat = 2 ^ k → x.permissions &&& operation = operation := by
  obtain ⟨s, hrun, bs, hsafe, _⟩ := hok.inv (Tokens.init_inv r m) (Tokens.step_inv hram)
  refine ⟨s, hrun, fun cap operation hcheck => (hsafe.check hram hcheck).imp_right ?_⟩
  rintro ⟨x, hx, hcap, hbit⟩
  exact ⟨x, hx, hcap, hbit, fun k hk => single_bit hk hbit⟩

/-- A capability for permission 1 on a heap that was used before. -/
theorem capability_sound_small :
    ∃ s, Tokens.run smallRegion (fun _ => 0) [.heap (.kmalloc 8), .create 5 1] = some s ∧
      checkCapability s.heap.mem 4136 1 ≠ 0 ∧
      (HasMagic (Tokens.init smallRegion fun _ => 0).heap.mem 4136 ∨
        ∃ x ∈ s.created, x.cap = 4136 ∧ x.permissions &&& 1 ≠ 0) := by
  have hok : Run.Admissible Tokens.step (fun s op => s.ok op ∧ s.Unforged op)
      (Tokens.init smallRegion fun _ => 0) [.heap (.kmalloc 8), .create 5 1] := by
    refine ⟨⟨trivial, trivial⟩, ?_⟩
    split
    · refine ⟨⟨trivial, trivial⟩, ?_⟩
      split <;> trivial
    · trivial
  obtain ⟨s, hrun, hsound⟩ := capability_sound smallRegion (by decide) (fun _ => 0) _ hok
  have hcheck : (Tokens.run smallRegion (fun _ => 0) [.heap (.kmalloc 8), .create 5 1]).map
      (fun s => checkCapability s.heap.mem 4136 1) = some 1 := by decide +kernel
  rw [hrun, Option.map_some, Option.some.injEq] at hcheck
  have hcheck' : checkCapability s.heap.mem 4136 1 ≠ 0 := by
    rw [hcheck]
    decide
  refine ⟨s, hrun, hcheck', (hsound 4136 1 hcheck').imp_right ?_⟩
  rintro ⟨x, hx, hcap, hbit, _⟩
  exact ⟨x, hx, hcap, hbit⟩

/-- The check passes, but no capability was created there with all the permissions asked for. -/
def Overgranted (s : Tokens) (cap : Nat) (operation : UInt32) : Prop :=
  checkCapability s.heap.mem cap operation ≠ 0 ∧
    ∀ x ∈ s.created, x.cap = cap → x.permissions &&& operation ≠ operation

instance (s : Tokens) (cap : Nat) (operation : UInt32) : Decidable (Overgranted s cap operation) :=
  inferInstanceAs (Decidable (_ ∧ _))

/-- A task writes permission 1 and the magic number into its own payload. -/
def forgeOps : List TokenOp :=
  [.heap (.kmalloc 16), .heap (.write 4116 1)] ++
    (List.range 8).map fun i => .heap (.write (4120 + i) (UInt8.ofNat (capabilityMagic / 256 ^ i)))

/-- A capability for permission 1 is freed, and another one without permissions is created 8 bytes
lower. -/
def reuseOps : List TokenOp :=
  [.heap (.kmalloc 16), .create 5 1, .heap (.kmalloc 16), .heap (.kmalloc 8), .heap (.kfree 4112),
    .heap (.kfree 4144), .heap (.kfree 4176), .heap (.kmalloc 8), .create 6 0]

/-- A capability that was never created; two permissions of which one was granted; and a freed
capability with half of a magic number for its permissions. -/
theorem capability_sound_fails :
    (∃ s, Run.Admissible Tokens.step Tokens.ok (Tokens.init smallRegion fun _ => 0) forgeOps ∧
      Tokens.run smallRegion (fun _ => 0) forgeOps = some s ∧ s.created = [] ∧
      Overgranted s 4112 1) ∧
    (∃ s, Tokens.run smallRegion (fun _ => 0) [.create 5 1] = some s ∧ Overgranted s 4112 3) ∧
    ∃ s, Run.Admissible Tokens.step Tokens.ok (Tokens.init smallRegion fun _ => 0) reuseOps ∧
      Tokens.run smallRegion (fun _ => 0) reuseOps = some s ∧ Overgranted s 4144 2 := by
  refine ⟨?_, ?_, ?_⟩
  · have hmap : (Tokens.run smallRegion (fun _ => 0) forgeOps).map
        (fun s => decide (s.created = [] ∧ Overgranted s 4112 1)) = some true := by decide +kernel
    obtain ⟨s, hrun, hs⟩ := Option.map_eq_some_iff.mp hmap
    exact ⟨s, by decide +kernel, hrun, of_decide_eq_true hs⟩
  · have hmap : (Tokens.run smallRegion (fun _ => 0) [.create 5 1]).map
        (fun s => decide (Overgranted s 4112 3)) = some true := by decide +kernel
    obtain ⟨s, hrun, hs⟩ := Option.map_eq_some_iff.mp hmap
    exact ⟨s, hrun, of_decide_eq_true hs⟩
  · have hmap : (Tokens.run smallRegion (fun _ => 0) reuseOps).map
        (fun s => decide (Overgranted s 4144 2)) = some true := by decide +kernel
    obtain ⟨s, hrun, hs⟩ := Option.map_eq_some_iff.mp hmap
    exact ⟨s, by decide +kernel, hrun, of_decide_eq_true hs⟩

end Hydra.LibHydra
