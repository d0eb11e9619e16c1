import Hydra.Lib.Numeral

/-!
# Internet addresses as text

`inet_addr` and `inet_ntoa` of `lib/libnet/socket.c`. The first reads what the second writes
(`inet_round_trip`). It reads more than that: it counts the dots of the text and looks at nothing
else, so a part may be empty, or too large, in which case it runs over into its neighbours
(`inetAddr_dotted_quads`).
-/

namespace Hydra.LibNet
open Numeral

/-- The loop of `inet_addr`: the `parts` before the present one, and `current_part`. Nothing if
there is an invalid character. -/
def inetAddrLoop : List UInt32 → UInt32 → List UInt8 → Option (List UInt32 × UInt32)
  | parts, currentPart, [] => some (parts, currentPart)
  | parts, currentPart, c :: cp =>
    if parts.length < 4 then
      if isDigit c then inetAddrLoop parts (currentPart * 10 + (c - chr '0').toUInt32) cp
      else if c = chr '.' then inetAddrLoop (parts ++ [currentPart]) 0 cp
      else none
    else some (parts, currentPart)

/-- `(parts[0] << 24) | (parts[1] << 16) | (parts[2] << 8) | parts[3]` -/
def pack (a b c d : UInt32) : UInt32 := a <<< 24 ||| b <<< 16 ||| c <<< 8 ||| d

/-- C `inet_addr`. -/
def inetAddr (cp : List UInt8) : UInt32 :=
  match inetAddrLoop [] 0 cp with
  | some ([a, b, c], d) => pack a b c d
  | _ => 0

/-- The three digits of a part in `inet_ntoa`. -/
def threeDigits (a : UInt32) : List UInt8 :=
  [chr '0' + (a / 100).toUInt8, chr '0' + (a / 10 % 10).toUInt8, chr '0' + (a % 10).toUInt8]

/-- C `inet_ntoa`. -/
def inetNtoa (addr : UInt32) : List UInt8 :=
  let a := addr >>> 24 &&& 0xFF
  let b := addr >>> 16 &&& 0xFF
  let c := addr >>> 8 &&& 0xFF
  let d := addr &&& 0xFF
  threeDigits a ++ chr '.' :: (threeDigits b ++ chr '.' :: (threeDigits c ++ chr '.' ::
    threeDigits d))

/-- C `htons`, which is `ntohs` too. -/
def htons (hostshort : UInt16) : UInt16 :=
  (hostshort &&& 0xFF) <<< 8 ||| (hostshort >>> 8 &&& 0xFF)

/-! ## Runs of digits -/

/-- Four runs of digits, which may be empty. -/
structure Runs where
  a : List UInt8
  b : List UInt8
  c : List UInt8
  d : List UInt8
  digits : ∀ ch ∈ a ++ (b ++ (c ++ d)), isDigit ch = true

namespace Runs

/-- The runs with single dots between them. -/
def text (r : Runs) : List UInt8 := r.a ++ chr '.' :: (r.b ++ chr '.' :: (r.c ++ chr '.' :: r.d))

/-- The value of a run in 32 bits. -/
def part (run : List UInt8) : UInt32 := UInt32.ofNat (decimal 0 run)

/-- The address of the parts. -/
def address (r : Runs) : UInt32 := pack (part r.a) (part r.b) (part r.c) (part r.d)

/-- The run is a number from 0 to 255. -/
def IsOctet (run : List UInt8) : Prop := run ≠ [] ∧ decimal 0 run ≤ 255

/-- Every run is a number from 0 to 255. -/
def IsQuad (r : Runs) : Prop := IsOctet r.a ∧ IsOctet r.b ∧ IsOctet r.c ∧ IsOctet r.d

/-- Nothing is left of the numbers in the address. -/
def Vanishes (r : Runs) : Prop :=
  2 ^ 8 ∣ decimal 0 r.a ∧ 2 ^ 16 ∣ decimal 0 r.b ∧ 2 ^ 24 ∣ decimal 0 r.c ∧ 2 ^ 32 ∣ decimal 0 r.d

end Runs

/-- One more digit of the accumulator. -/
lemma ofNat_digit {c : UInt8} (h : isDigit c = true) (n : Nat) :
    UInt32.ofNat n * 10 + (c - chr '0').toUInt32 =
      UInt32.ofNat (n * 10 + (c.toNat - (chr '0').toNat)) := by
  have hle : chr '0' ≤ c := by
    unfold isDigit at h
    simp only [Bool.and_eq_true, decide_eq_true_eq] at h
    exact h.1
  have hsub : (c - chr '0').toUInt32 = UInt32.ofNat (c.toNat - (chr '0').toNat) := by
    rw [← UInt8.toNat_sub_of_le _ _ hle]
    exact (UInt32.ofNat_toNat (x := (c - chr '0').toUInt32)).symm
  rw [hsub, UInt32.ofNat_add, UInt32.ofNat_mul]
  rfl

/-- A run of digits goes into the accumulator. -/
lemma inetAddrLoop_run {parts : List UInt32} (hparts : parts.length < 4) {run : List UInt8}
    (hrun : ∀ ch ∈ run, isDigit ch = true) (n : Nat) (cp : List UInt8) :
    inetAddrLoop parts (UInt32.ofNat n) (run ++ cp) =
      inetAddrLoop parts (UInt32.ofNat (decimal n run)) cp := by
  induction run generalizing n with
  | nil => rfl
  | cons c run ih =>
    obtain ⟨hc, hrun⟩ := List.forall_mem_cons.mp hrun
    rw [List.cons_append, inetAddrLoop, if_pos hparts, if_pos hc, ofNat_digit hc, ih hrun]
    rfl

lemma inetAddrLoop_dot {parts : List UInt32} (hparts : parts.length < 4) (currentPart : UInt32)
    (cp : List UInt8) : inetAddrLoop parts currentPart (chr '.' :: cp) =
      inetAddrLoop (parts ++ [currentPart]) 0 cp := by
  rw [inetAddrLoop, if_pos hparts, if_neg (by decide), if_pos rfl]

/-- Behind the fourth dot the loop ends with four parts. -/
lemma inetAddrLoop_full {parts : List UInt32} (hparts : parts.length = 4) (currentPart : UInt32)
    (cp : List UInt8) : inetAddrLoop parts currentPart cp = some (parts, currentPart) := by
  cases cp with
  | nil => rfl
  | cons c cp => rw [inetAddrLoop, if_neg (by omega)]

/-- What the loop has read when it ends with three parts: a run of digits, and a dot if it was not
the last one. -/
lemma inetAddrLoop_inv {parts : List UInt32} {currentPart : UInt32} {cp : List UInt8}
    {r : List UInt32 × UInt32} (h : inetAddrLoop parts currentPart cp = some r)
    (hr : r.1.length = 3) (hparts : parts.length ≤ 3) :
    ∃ run, (∀ ch ∈ run, isDigit ch = true) ∧ (parts.length = 3 ∧ cp = run ∨
      parts.length < 3 ∧ ∃ rest p, cp = run ++ chr '.' :: rest ∧
        inetAddrLoop (parts ++ [p]) 0 rest = some r) := by
  induction cp generalizing currentPart with
  | nil =>
    obtain rfl := Option.some.inj h
    exact ⟨[], List.forall_mem_nil _, .inl ⟨hr, rfl⟩⟩
  | cons c cp ih =>
    rw [inetAddrLoop, if_pos (by omega)] at h
    split at h
    · next hdigit =>
      obtain ⟨run, hrun, ⟨hlen, rfl⟩ | ⟨hlen, rest, p, rfl, hrest⟩⟩ := ih h
      · exact ⟨c :: cp, List.forall_mem_cons.mpr ⟨hdigit, hrun⟩, .inl ⟨hlen, rfl⟩⟩
      · exact ⟨c :: run, List.forall_mem_cons.mpr ⟨hdigit, hrun⟩, .inr ⟨hlen, rest, p, rfl, hrest⟩⟩
    · split at h
      · next hdot =>
        rw [hdot]
        refine ⟨[], List.forall_mem_nil _, .inr ⟨?_, cp, currentPart, rfl, h⟩⟩
        by_contra hlen
        -- this would be the fourth dot
        rw [inetAddrLoop_full (by rw [List.length_append, List.length_singleton]; omega)] at h
        obtain rfl := Option.some.inj h
        rw [List.length_append, List.length_singleton] at hr
        omega
      · cases h

namespace Runs

lemma digits_a (r : Runs) : ∀ ch ∈ r.a, isDigit ch = true := fun ch h =>
  r.digits ch (List.mem_append_left _ h)

lemma digits_b (r : Runs) : ∀ ch ∈ r.b, isDigit ch = true := fun ch h =>
  r.digits ch (List.mem_append_right _ (List.mem_append_left _ h))

lemma digits_c (r : Runs) : ∀ ch ∈ r.c, isDigit ch = true := fun ch h =>
  r.digits ch (List.mem_append_right _ (List.mem_append_right _ (List.mem_append_left _ h)))

lemma digits_d (r : Runs) : ∀ ch ∈ r.d, isDigit ch = true := fun ch h =>
  r.digits ch (List.mem_append_right _ (List.mem_append_right _ (List.mem_append_right _ h)))

/-- `inet_addr` packs the values of any four runs. -/
lemma inetAddr_text (r : Runs) : inetAddr r.text = r.address := by
  have hloop : inetAddrLoop [] 0 r.text = some ([part r.a, part r.b, part r.c], part r.d) := by
    have h₀ : ([] : List UInt32).length < 4 := by simp
    have h₁ : [part r.a].length < 4 := by simp
    have h₂ : [part r.a, part r.b].length < 4 := by simp
    have h₃ : [part r.a, part r.b, part r.c].length < 4 := by simp
    have hd := inetAddrLoop_run h₃ r.digits_d 0 []
    rw [List.append_nil] at hd
    unfold text
    refine (inetAddrLoop_run h₀ r.digits_a 0 _).trans ((inetAddrLoop_dot h₀ _ _).trans ?_)
    refine (inetAddrLoop_run h₁ r.digits_b 0 _).trans ((inetAddrLoop_dot h₁ _ _).trans ?_)
    exact (inetAddrLoop_run h₂ r.digits_c 0 _).trans ((inetAddrLoop_dot h₂ _ _).trans hd)
  unfold inetAddr
  rw [hloop]
  rfl

end Runs

/-- A text with another result than 0 consists of four runs. -/
lemma exists_runs {cp : List UInt8} (h : inetAddr cp ≠ 0) : ∃ r : Runs, r.text = cp := by
  unfold inetAddr at h
  split at h
  · next hloop =>
    obtain ⟨a, ha, ⟨hlen, _⟩ | ⟨_, cp₁, _, rfl, h₁⟩⟩ := inetAddrLoop_inv hloop rfl (by simp)
    · cases hlen
    obtain ⟨b, hb, ⟨hlen, _⟩ | ⟨_, cp₂, _, rfl, h₂⟩⟩ := inetAddrLoop_inv h₁ rfl (by simp)
    · cases hlen
    obtain ⟨c, hc, ⟨hlen, _⟩ | ⟨_, cp₃, _, rfl, h₃⟩⟩ := inetAddrLoop_inv h₂ rfl (by simp)
    · cases hlen
    obtain ⟨d, hd, ⟨_, rfl⟩ | ⟨hlen, _⟩⟩ := inetAddrLoop_inv h₃ rfl (by simp)
    · refine ⟨⟨a, b, c, cp₃, ?_⟩, rfl⟩
      simp only [List.forall_mem_append]
      exact ⟨ha, hb, hc, hd⟩
    · simp at hlen
  · exact absurd rfl h

/-- A run ends at the first dot. -/
lemma run_unique {run run' rest rest' : List UInt8} (h : ∀ ch ∈ run, isDigit ch = true)
    (h' : ∀ ch ∈ run', isDigit ch = true)
    (heq : run ++ chr '.' :: rest = run' ++ chr '.' :: rest') : run = run' ∧ rest = rest' := by
  have htake : ∀ {run rest : List UInt8}, (∀ ch ∈ run, isDigit ch = true) →
      (run ++ chr '.' :: rest).takeWhile isDigit = run := by
    intro run rest hrun
    rw [List.takeWhile_append_of_pos hrun, List.takeWhile_cons_of_neg (by decide), List.append_nil]
  have hrun : run = run' := by rw [← htake h, heq, htake h']
  subst hrun
  exact ⟨rfl, (List.cons.inj (List.append_cancel_left heq)).2⟩

lemma Runs.text_inj {r r' : Runs} (heq : r.text = r'.text) : r = r' := by
  obtain ⟨ha, heq⟩ := run_unique r.digits_a r'.digits_a heq
  obtain ⟨hb, heq⟩ := run_unique r.digits_b r'.digits_b heq
  obtain ⟨hc, hd⟩ := run_unique r.digits_c r'.digits_c heq
  cases r
  cases r'
  simp_all

/-! ## The address -/

/-- The upper bits of a part are lost when it is shifted to its place. -/
lemma shift_eq_zero (a : UInt32) (k : UInt32) (hk : k.toNat < 32) :
    a <<< k = 0 ↔ 2 ^ (32 - k.toNat) ∣ a.toNat := by
  have hpow : 2 ^ (32 - k.toNat) * 2 ^ k.toNat = 2 ^ 32 := by
    rw [← Nat.pow_add]
    congr 1
    omega
  rw [← UInt32.toNat_inj, UInt32.toNat_shiftLeft, Nat.mod_eq_of_lt hk, Nat.shiftLeft_eq, ← hpow]
  show a.toNat * _ % _ = 0 ↔ _
  rw [← Nat.dvd_iff_mod_eq_zero]
  exact Nat.mul_dvd_mul_iff_right (Nat.two_pow_pos _)

lemma part_toNat (run : List UInt8) : (Runs.part run).toNat = decimal 0 run % 2 ^ 32 :=
  UInt32.toNat_ofNat'

lemma dvd_part {k : Nat} (hk : k ≤ 32) (run : List UInt8) :
    2 ^ k ∣ (Runs.part run).toNat ↔ 2 ^ k ∣ decimal 0 run := by
  rw [part_toNat, Nat.dvd_mod_iff (Nat.pow_dvd_pow 2 hk)]

lemma Runs.address_eq_zero (r : Runs) : r.address = 0 ↔ r.Vanishes := by
  have hd : part r.d = 0 ↔ 2 ^ 32 ∣ decimal 0 r.d := by
    rw [← UInt32.toNat_inj, part_toNat]
    exact (Nat.dvd_iff_mod_eq_zero).symm
  have hor : ∀ x y : UInt32, x ||| y = 0 ↔ x = 0 ∧ y = 0 := fun x y => by
    rw [← UInt32.toNat_inj, UInt32.toNat_or, ← UInt32.toNat_inj, ← UInt32.toNat_inj]
    exact Nat.or_eq_zero_iff
  unfold address pack Vanishes
  rw [hor, hor, hor, hd, shift_eq_zero _ _ (by decide), shift_eq_zero _ _ (by decide),
    shift_eq_zero _ _ (by decide), and_assoc, and_assoc]
  exact and_congr (dvd_part (by decide) r.a) (and_congr (dvd_part (by decide) r.b)
    (and_congr_left' (dvd_part (by decide) r.c)))

/-! ## The round trip -/

/-- `'0' + d` is the character of the digit. -/
lemma chr_add_digit {d : UInt32} (h : d.toNat < 10) : chr '0' + d.toUInt8 = digitChar d.toNat := by
  have hzero : chr '0' = UInt8.ofNat 48 := rfl
  have hd : d.toUInt8 = UInt8.ofNat d.toNat := rfl
  unfold digitChar
  rw [if_pos h, hzero, hd, UInt8.ofNat_add]

lemma digitChar_digit {d : Nat} (h : d < 10) :
    isDigit (digitChar d) = true ∧ (digitChar d).toNat - (chr '0').toNat = d := by
  have hall : ∀ d < 10, isDigit (digitChar d) = true ∧
      (digitChar d).toNat - (chr '0').toNat = d := by decide
  exact hall d h

lemma threeDigits_eq {a : UInt32} (h : a.toNat < 256) :
    (∀ ch ∈ threeDigits a, isDigit ch = true) ∧ Runs.part (threeDigits a) = a := by
  have h₁ : a.toNat / 100 < 10 := by omega
  have h₂ : a.toNat / 10 % 10 < 10 := Nat.mod_lt _ (by decide)
  have h₃ : a.toNat % 10 < 10 := Nat.mod_lt _ (by decide)
  have htext : threeDigits a =
      [digitChar (a.toNat / 100), digitChar (a.toNat / 10 % 10), digitChar (a.toNat % 10)] := by
    unfold threeDigits
    rw [chr_add_digit (d := a / 100) h₁, chr_add_digit (d := a / 10 % 10) h₂,
      chr_add_digit (d := a % 10) h₃]
    rfl
  rw [htext]
  refine ⟨?_, ?_⟩
  · simp [digitChar_digit h₁, digitChar_digit h₂, digitChar_digit h₃]
  · have hvalue : (a.toNat / 100 * 10 + a.toNat / 10 % 10) * 10 + a.toNat % 10 = a.toNat := by omega
    unfold Runs.part decimal
    simp only [List.foldl_cons, List.foldl_nil, (digitChar_digit h₁).2, (digitChar_digit h₂).2,
      (digitChar_digit h₃).2, Nat.zero_mul, Nat.zero_add, hvalue]
    exact UInt32.ofNat_toNat

lemma octet_lt (a : UInt32) : (a &&& 0xFF).toNat < 256 := by
  rw [UInt32.toNat_and]
  exact Nat.lt_of_le_of_lt Nat.and_le_right (by decide)

/-- The four parts of an address make the address again. -/
lemma pack_octets (addr : UInt32) :
    pack (addr >>> 24 &&& 0xFF) (addr >>> 16 &&& 0xFF) (addr >>> 8 &&& 0xFF) (addr &&& 0xFF) =
      addr := by
  unfold pack
  rw [← UInt32.toBitVec_inj]
  simp only [UInt32.toBitVec_or, UInt32.toBitVec_shiftLeft, UInt32.toBitVec_and,
    UInt32.toBitVec_shiftRight]
  generalize addr.toBitVec = x
  -- every bit is in one of the parts
  refine BitVec.eq_of_getLsbD_eq fun i hi => ?_
  interval_cases i <;> simp

/-- The four runs that `inet_ntoa` writes. -/
def ntoaRuns (addr : UInt32) : Runs where
  a := threeDigits (addr >>> 24 &&& 0xFF)
  b := threeDigits (addr >>> 16 &&& 0xFF)
  c := threeDigits (addr >>> 8 &&& 0xFF)
  d := threeDigits (addr &&& 0xFF)
  digits := by
    simp only [List.forall_mem_append]
    exact ⟨(threeDigits_eq (octet_lt _)).1, (threeDigits_eq (octet_lt _)).1,
      (threeDigits_eq (octet_lt _)).1, (threeDigits_eq (octet_lt _)).1⟩

lemma inetAddr_ntoa (addr : UInt32) : inetAddr (inetNtoa addr) = addr := by
  have haddress : (ntoaRuns addr).address = addr := by
    unfold Runs.address ntoaRuns
    simp only [(threeDigits_eq (octet_lt _)).2]
    exact pack_octets addr
  exact (Runs.inetAddr_text (ntoaRuns addr)).trans haddress

/-- `inet_addr` undoes `inet_ntoa`, and `inet_ntoa` undoes `inet_addr` on every text that it can
produce. -/
theorem inet_round_trip :
    (∀ addr, inetAddr (inetNtoa addr) = addr) ∧
      ∀ s ∈ Set.range inetNtoa, inetNtoa (inetAddr s) = s := by
  refine ⟨inetAddr_ntoa, ?_⟩
  rintro s ⟨addr, rfl⟩
  rw [inetAddr_ntoa]

theorem inet_round_trip_localhost :
    inetNtoa (inetAddr (inetNtoa 0x7f000001)) = inetNtoa 0x7f000001 :=
  inet_round_trip.2 _ ⟨0x7f000001, rfl⟩

/-! ## What is accepted -/

/-- `inet_addr` returns the address of four numbers from 0 to 255, of one digit at least, with
single dots between them, and 0 for every other text. -/
def AcceptsQuads (cp : List UInt8) : Prop :=
  (∀ r : Runs, r.text = cp → r.IsQuad → inetAddr cp = r.address) ∧
    ((¬∃ r : Runs, r.text = cp ∧ r.IsQuad) → inetAddr cp = 0)

/-- For every text `inet_addr` accepts nothing but dotted quads exactly if the text is not four runs
of digits with dots between them, or is a dotted quad, or the numbers vanish when they are shifted
to their places. -/
theorem inetAddr_dotted_quads (cp : List UInt8) :
    AcceptsQuads cp ↔ ∀ r : Runs, r.text = cp → r.IsQuad ∨ r.Vanishes := by
  constructor
  · rintro ⟨_, hzero⟩ r rfl
    by_cases hquad : r.IsQuad
    · exact .inl hquad
    · right
      have hnone : ¬∃ r' : Runs, r'.text = r.text ∧ r'.IsQuad := by
        rintro ⟨r', htext, hquad'⟩
        exact hquad (Runs.text_inj htext ▸ hquad')
      rw [← Runs.address_eq_zero, ← Runs.inetAddr_text]
      exact hzero hnone
  · intro h
    refine ⟨?_, fun hnone => ?_⟩
    · rintro r rfl _
      exact Runs.inetAddr_text r
    · by_contra hne
      obtain ⟨r, rfl⟩ := exists_runs hne
      rcases h r rfl with hquad | hvanish
      · exact hnone ⟨r, rfl, hquad⟩
      · rw [Runs.inetAddr_text] at hne
        exact hne ((Runs.address_eq_zero r).mpr hvanish)

/-- `"1.2.3."` is read as 1.2.3.0, and `"1.2.3.256"` as 1.2.3.0 with one more in front of it. -/
theorem inetAddr_dotted_quads_fails :
    inetAddr [chr '1', chr '.', chr '2', chr '.', chr '3', chr '.'] = 0x01020300 ∧
      inetAddr [chr '1', chr '.', chr '2', chr '.', chr '3', chr '.', chr '2', chr '5', chr '6'] =
        0x01020300 ∧
      ¬AcceptsQuads [chr '1', chr '.', chr '2', chr '.', chr '3', chr '.'] := by
  refine ⟨by decide +kernel, by decide +kernel, fun h => ?_⟩
  have hnone : ¬∃ r : Runs,
      r.text = [chr '1', chr '.', chr '2', chr '.', chr '3', chr '.'] ∧ r.IsQuad := by
    rintro ⟨r, htext, hquad⟩
    have hsame : r = ⟨[chr '1'], [chr '2'], [chr '3'], [], by decide +kernel⟩ := Runs.text_inj htext
    rw [hsame] at hquad
    exact hquad.2.2.2.1 rfl
  exact absurd (h.2 hnone) (by decide +kernel)

end Hydra.LibNet
