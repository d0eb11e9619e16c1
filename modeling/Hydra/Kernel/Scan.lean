import Hydra.Kernel.Printk

/-!
# The format pointer

`printk` moves its pointer in three places: at the end of every round, behind a `%`, and behind the
`l` of `%l`. Only the loop looks for the terminator. So a format that ends in the middle of a
conversion sends the pointer past its end: the terminator is taken for the character of an unknown
conversion, and is transmitted (`printk_stays`).

Here the format is the memory from its first byte on. `printk` of lists agrees with the pointer on
every format that is complete (`scan_complete`).
-/

namespace Hydra.Kernel
open ByteMem Numeral

/-- What one round of `printk` does at a character: the pointer and the arguments behind it, the
addresses examined after the first one, and what is transmitted, the characters of the format among
it. -/
structure Round where
  next : Nat
  args : VaList
  examined : List Nat
  text : List UInt8
  sent : List UInt8

/-- The body of the loop of `printk`, with its pointer at `p`. -/
def scanRound (mem : Memory) (fmt : Mem) (p : Nat) (args : VaList) : Round :=
  if fmt p ≠ chr '%' then ⟨p + 1, args, [], [fmt p], uartPutc (fmt p)⟩
  else
    let f := fmt (p + 1)
    if f = chr 'c' then
      ⟨p + 2, args.rest, [p + 1], [], uartPutc (UInt8.ofNat (args 0).toNat)⟩
    else if f = chr 's' then ⟨p + 2, args.rest, [p + 1], [], uartPuts (mem.string (args 0))⟩
    else if f = chr 'd' ∨ f = chr 'i' then
      ⟨p + 2, args.rest, [p + 1], [], printNum (intArg (args 0) % 2 ^ 64).toNat 10⟩
    else if f = chr 'x' then
      ⟨p + 2, args.rest, [p + 1], [], printNum ((args 0).toNat % 2 ^ 32) 16⟩
    else if f = chr 'l' then
      let g := fmt (p + 2)
      if g = chr 'x' then ⟨p + 3, args.rest, [p + 1, p + 2], [], printNum (args 0).toNat 16⟩
      else if g = chr 'd' then ⟨p + 3, args.rest, [p + 1, p + 2], [], printNum (args 0).toNat 10⟩
      else
        ⟨p + 3, args, [p + 1, p + 2], [chr '%', chr 'l', g],
          uartPutc (chr '%') ++ uartPutc (chr 'l') ++ uartPutc g⟩
    else if f = chr '%' then ⟨p + 2, args, [p + 1], [chr '%'], uartPutc (chr '%')⟩
    else ⟨p + 2, args, [p + 1], [chr '%', f], uartPutc (chr '%') ++ uartPutc f⟩

/-- What `printk` has done when it ends: where its pointer is, the addresses it has examined, the
characters of the format that it has transmitted, and all that it has transmitted. -/
structure Scan where
  stop : Nat
  examined : List Nat
  text : List UInt8
  sent : List UInt8

/-- C `printk` with its pointer at `p`, for `n` rounds at most. -/
def scan (mem : Memory) (fmt : Mem) : Nat → Nat → VaList → Option Scan
  | 0, _, _ => none
  | n + 1, p, args =>
    if fmt p = 0 then some ⟨p, [p], [], []⟩
    else
      let r := scanRound mem fmt p args
      (scan mem fmt n r.next r.args).map fun s =>
        ⟨s.stop, p :: r.examined ++ s.examined, r.text ++ s.text, r.sent ++ s.sent⟩

/-- The format does not end in the middle of a conversion, with `%` or `%l`. -/
def complete : List UInt8 → Bool
  | [] => true
  | c :: fmt =>
    if c ≠ chr '%' then complete fmt
    else
      match fmt with
      | [] => false
      | f :: fmt =>
        if f = chr 'l' then
          match fmt with
          | [] => false
          | _ :: fmt => complete fmt
        else complete fmt

/-- `printk` ends at the terminator of its format, the byte at `len`. All that it examines is there
or before it, and no zero byte is transmitted for a character of the format. -/
def StaysInFormat (mem : Memory) (fmt : Mem) (len : Nat) (args : VaList) : Prop :=
  ∃ n s, scan mem fmt n 0 args = some s ∧ s.stop = len ∧ (∀ a ∈ s.examined, a ≤ len) ∧ 0 ∉ s.text

/-! ## One round -/

variable {mem : Memory} {fmt : Mem} {p : Nat} {args : VaList} {format : List UInt8}

/-- What a round does inside the string: it takes characters off the format, as `printk` of the list
does. -/
structure Inside (mem : Memory) (fmt : Mem) (p : Nat) (args : VaList) (r : Round)
    (format rest : List UInt8) : Prop where
  next : r.next + rest.length = p + format.length
  forth : p < r.next
  spells : Spells fmt r.next rest
  examined : ∀ a ∈ r.examined, a ≤ p + format.length
  text : 0 ∉ r.text
  complete : complete format = complete rest
  printk : printk mem format args = (printk mem rest r.args).map (r.sent ++ ·)

lemma scanRound_lit {c : UInt8} (hc : c ≠ chr '%') (hp : fmt p = c) :
    scanRound mem fmt p args = ⟨p + 1, args, [], [c], uartPutc c⟩ := by
  unfold scanRound
  rw [hp, if_pos hc]

/-- A conversion of two characters. -/
lemma scanRound_short (mem : Memory) (args : VaList) {f : UInt8} (hp : fmt p = chr '%')
    (hf : fmt (p + 1) = f) (hl : f ≠ chr 'l') (rest : List UInt8) :
    ∃ args' text sent, scanRound mem fmt p args = ⟨p + 2, args', [p + 1], text, sent⟩ ∧
      (∀ c ∈ text, c = chr '%' ∨ c = f) ∧
      printk mem (chr '%' :: f :: rest) args = (printk mem rest args').map (sent ++ ·) := by
  unfold scanRound
  cases rest with
  | nil | cons =>
    rw [printk]
    simp only [hp, hf, hl, ne_eq, not_true, if_false]
    split_ifs
    all_goals exact ⟨_, _, _, rfl, by simp, rfl⟩

/-- A conversion with `l`. -/
lemma scanRound_long (mem : Memory) (args : VaList) {g : UInt8} (hp : fmt p = chr '%')
    (hf : fmt (p + 1) = chr 'l') (hg : fmt (p + 2) = g) (rest : List UInt8) :
    ∃ args' text sent, scanRound mem fmt p args = ⟨p + 3, args', [p + 1, p + 2], text, sent⟩ ∧
      (∀ c ∈ text, c = chr '%' ∨ c = chr 'l' ∨ c = g) ∧
      (g ≠ chr 'x' → g ≠ chr 'd' → g ∈ text) ∧
      printk mem (chr '%' :: chr 'l' :: g :: rest) args = (printk mem rest args').map (sent ++ ·) := by
  have hl : ¬(chr 'l' = chr 'd' ∨ chr 'l' = chr 'i') := by decide
  rw [printk]
  unfold scanRound
  simp only [hp, hf, hg, hl, ne_eq, not_true, if_false, if_true, show chr 'l' ≠ chr 'c' by decide,
    show chr 'l' ≠ chr 's' by decide, show chr 'l' ≠ chr 'x' by decide]
  split_ifs with hx hd
  · exact ⟨_, _, _, rfl, by simp, fun hne => absurd hx hne, rfl⟩
  · exact ⟨_, _, _, rfl, by simp, fun _ hne => absurd hd hne, rfl⟩
  · exact ⟨_, _, _, rfl, by simp, by simp, rfl⟩

lemma printk_lit {c : UInt8} (hc : c ≠ chr '%') (rest : List UInt8) (args : VaList) :
    printk mem (c :: rest) args = (printk mem rest args).map (uartPutc c ++ ·) := by
  obtain _ | ⟨f, _ | ⟨g, rest⟩⟩ := rest
  all_goals exact if_pos hc

lemma complete_lit {c : UInt8} (hc : c ≠ chr '%') (rest : List UInt8) :
    complete (c :: rest) = complete rest := by
  obtain _ | ⟨f, _ | ⟨g, rest⟩⟩ := rest
  all_goals exact if_pos hc

lemma complete_short {f : UInt8} (hl : f ≠ chr 'l') (rest : List UInt8) :
    complete (chr '%' :: f :: rest) = complete rest := by
  obtain _ | ⟨g, rest⟩ := rest
  all_goals exact if_neg hl

lemma inside_lit {c : UInt8} (hc : c ≠ 0) (hlit : c ≠ chr '%') (hp : fmt p = c)
    (hrest : Spells fmt (p + 1) format) :
    Inside mem fmt p args (scanRound mem fmt p args) (c :: format) format := by
  rw [scanRound_lit hlit hp]
  refine ⟨by simp; omega, by simp, hrest, by simp, ?_, complete_lit hlit format,
    printk_lit hlit format args⟩
  simpa using hc.symm

lemma inside_short {f : UInt8} (hf : f ≠ 0) (hl : f ≠ chr 'l') (hp : fmt p = chr '%')
    (hpf : fmt (p + 1) = f) (hrest : Spells fmt (p + 2) format) :
    Inside mem fmt p args (scanRound mem fmt p args) (chr '%' :: f :: format) format := by
  obtain ⟨args', text, sent, hround, htext, hprintk⟩ := scanRound_short mem args hp hpf hl format
  rw [hround]
  refine ⟨by simp; omega, by simp, hrest, by simp, ?_, complete_short hl format, hprintk⟩
  intro h0
  rcases htext 0 h0 with h0 | h0
  · exact absurd h0 (by decide)
  · exact hf h0.symm

lemma inside_long {g : UInt8} (hg : g ≠ 0) (hp : fmt p = chr '%') (hpf : fmt (p + 1) = chr 'l')
    (hpg : fmt (p + 2) = g) (hrest : Spells fmt (p + 3) format) :
    Inside mem fmt p args (scanRound mem fmt p args) (chr '%' :: chr 'l' :: g :: format)
      format := by
  obtain ⟨args', text, sent, hround, htext, _, hprintk⟩ := scanRound_long mem args hp hpf hpg format
  rw [hround]
  refine ⟨by simp; omega, by simp, hrest, by simp, ?_, rfl, hprintk⟩
  intro h0
  rcases htext 0 h0 with h0 | h0 | h0
  · exact absurd h0 (by decide)
  · exact absurd h0 (by decide)
  · exact hg h0.symm

/-- A round stays inside the string, or transmits the terminator. -/
lemma scanRound_cases (mem : Memory) (args : VaList) (h : Spells fmt p format)
    (hne : format ≠ []) :
    (∃ rest, Inside mem fmt p args (scanRound mem fmt p args) format rest) ∨
      complete format = false ∧ 0 ∈ (scanRound mem fmt p args).text := by
  obtain _ | ⟨c, rest⟩ := format
  · exact absurd rfl hne
  obtain ⟨hc, hp, hrest⟩ := h
  by_cases hlit : c ≠ chr '%'
  · exact .inl ⟨rest, inside_lit hc hlit hp hrest⟩
  obtain rfl := not_not.mp hlit
  obtain _ | ⟨f, rest⟩ := rest
  · -- the terminator is the character behind the `%`
    have hnul : fmt (p + 1) = 0 := hrest
    refine .inr ⟨rfl, ?_⟩
    unfold scanRound
    rw [hp, hnul]
    exact List.mem_cons_of_mem _ List.mem_cons_self
  obtain ⟨hf, hpf, hrest⟩ := hrest
  by_cases hl : f ≠ chr 'l'
  · exact .inl ⟨rest, inside_short hf hl hp hpf hrest⟩
  obtain rfl := not_not.mp hl
  obtain _ | ⟨g, rest⟩ := rest
  · -- the terminator is the character behind the `l`
    have hnul : fmt (p + 2) = 0 := hrest
    refine .inr ⟨rfl, ?_⟩
    obtain ⟨args', text, sent, hround, _, htext, _⟩ := scanRound_long mem args hp hpf hnul []
    rw [hround]
    exact htext (by decide) (by decide)
  obtain ⟨hg, hpg, hrest⟩ := hrest
  exact .inl ⟨rest, inside_long hg hp hpf hpg hrest⟩

/-! ## The loop -/

/-- A complete format is read to its terminator, as `printk` of the list does it. -/
lemma scan_complete (mem : Memory) {n : Nat} (hn : format.length < n) (h : Spells fmt p format)
    (hc : complete format = true) (args : VaList) :
    ∃ s, scan mem fmt n p args = some s ∧ s.stop = p + format.length ∧
      (∀ a ∈ s.examined, a ≤ p + format.length) ∧ 0 ∉ s.text ∧
      printk mem format args = some s.sent := by
  induction n generalizing p format args with
  | zero => cases hn
  | succ n ih =>
    unfold scan
    by_cases hne : format = []
    · subst hne
      rw [if_pos h.end]
      exact ⟨_, rfl, rfl, by simp, by simp, rfl⟩
    rw [if_neg (h.ne_zero hne)]
    obtain ⟨rest, hin⟩ | ⟨hfalse, _⟩ := scanRound_cases mem args h hne
    · have hlen := hin.next
      have hforth := hin.forth
      obtain ⟨s, hs, hstop, hex, htext, hsent⟩ :=
        ih (by omega) hin.spells (hin.complete ▸ hc) (scanRound mem fmt p args).args
      dsimp only
      rw [hs, Option.map_some]
      refine ⟨_, rfl, hstop.trans hlen, ?_, ?_, ?_⟩
      · intro a ha
        rcases List.mem_append.mp ha with ha | ha
        · rcases List.mem_cons.mp ha with rfl | ha
          · omega
          · exact hin.examined a ha
        · rw [← hlen]
          exact hex a ha
      · exact fun h0 => (List.mem_append.mp h0).elim hin.text htext
      · rw [hin.printk, hsent, Option.map_some]
    · rw [hc] at hfalse
      cases hfalse

/-- Of an incomplete format the terminator is transmitted. -/
lemma scan_incomplete {n : Nat} {s : Scan} (h : Spells fmt p format)
    (hc : complete format = false) (hs : scan mem fmt n p args = some s) : 0 ∈ s.text := by
  induction n generalizing p format args s with
  | zero => cases hs
  | succ n ih =>
    have hne : format ≠ [] := by
      rintro rfl
      cases hc
    unfold scan at hs
    rw [if_neg (h.ne_zero hne), Option.map_eq_some_iff] at hs
    obtain ⟨s', hs', rfl⟩ := hs
    obtain ⟨rest, hin⟩ | ⟨_, hnul⟩ := scanRound_cases mem args h hne
    · exact List.mem_append_right _ (ih hin.spells (hin.complete ▸ hc) hs')
    · exact List.mem_append_left _ hnul

/-- In every memory that has a string at its beginning, `printk` stays inside the string and
transmits no zero byte of it exactly if the string does not end in the middle of a conversion. -/
theorem printk_stays (mem : Memory) (fmt : Mem) (format : List UInt8) (args : VaList)
    (h : Spells fmt 0 format) :
    StaysInFormat mem fmt format.length args ↔ complete format = true := by
  constructor
  · rintro ⟨n, s, hs, _, _, htext⟩
    by_contra hc
    exact htext (scan_incomplete h (Bool.eq_false_iff.mpr hc) hs)
  · intro hc
    obtain ⟨s, hs, hstop, hex, htext, _⟩ := scan_complete mem (Nat.lt_succ_self _) h hc args
    rw [Nat.zero_add] at hstop hex
    exact ⟨_, s, hs, hstop, hex, htext⟩

theorem printk_stays_percent :
    StaysInFormat ⟨fun _ => [], fun _ => 0⟩ (paste [chr '%', chr 'd', 0] fun _ => 1) 2 fun _ => 5 :=
  (printk_stays ⟨fun _ => [], fun _ => 0⟩ (paste [chr '%', chr 'd', 0] fun _ => 1)
    [chr '%', chr 'd'] (fun _ => 5) (by decide)).mpr rfl

/-- `printk("50%")`, and another string behind it: the terminator of the format is transmitted, and
so is the other string. -/
theorem printk_stays_fails :
    scan ⟨fun _ => [], fun _ => 0⟩ (paste [chr '5', chr '0', chr '%', 0, chr '!', 0] fun _ => 1) 5 0
        (fun _ => 0) =
      some ⟨5, [0, 1, 2, 3, 4, 5], [chr '5', chr '0', chr '%', 0, chr '!'],
        [chr '5', chr '0', chr '%', 0, chr '!']⟩ ∧
    ¬StaysInFormat ⟨fun _ => [], fun _ => 0⟩
      (paste [chr '5', chr '0', chr '%', 0, chr '!', 0] fun _ => 1) 3 fun _ => 0 := by
  refine ⟨rfl, ?_⟩
  rintro ⟨n, s, hs, _, _, htext⟩
  have h : Spells (paste [chr '5', chr '0', chr '%', 0, chr '!', 0] fun _ => 1) 0
      [chr '5', chr '0', chr '%'] := by decide
  exact htext (scan_incomplete h rfl hs)

end Hydra.Kernel
