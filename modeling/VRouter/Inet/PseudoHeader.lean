import VRouter.Inet.FormFlow
import VRouter.Inet.TransportChecksum

/-!
# VRouter — sums over pseudo headers

`vr_ip_partial_csum` and `vr_ip6_partial_csum` add the addresses as 32-bit numbers and fold the sum
three times; `vr_icmp6_checksum` adds 16-bit words and folds in a loop. All of them end in the one
representation that a one's complement sum of the same words has (`foldPartial_eq`, `vrSum_eq`).

`vr_sum` reads whole words. If the length is odd, the last word has a byte behind the buffer in it.
-/

namespace VRouter

open Memory OnesComplement

/-! ## Partial checksums -/

/-- The last lines of `vr_ip_partial_csum` and `vr_ip6_partial_csum`: the 64-bit sum is folded to 32
bits, and that twice to 16 bits. -/
def foldPartial (s : Nat) : Nat :=
  let s := s % 2 ^ 32 + s / 2 ^ 32
  let sum := (s % 2 ^ 16 + s / 2 ^ 16) % 2 ^ 32
  (sum % 2 ^ 16 + sum / 2 ^ 16) % 2 ^ 16

/-- The length of the packet without its IPv4 header, as an `unsigned short`. -/
def upperLength (m : Bytes) (ip : Nat) : Nat :=
  (swap16 (ipLen m ip) + 2 ^ 16 - ipHl m ip * 4) % 2 ^ 16

/-- `vr_ip_partial_csum`. -/
def vrIpPartialCsum (m : Bytes) (ip : Nat) : Nat :=
  foldPartial (ipSaddr m ip + ipDaddr m ip + swap16 (upperLength m ip) + swap16 (ipProto m ip))

/-- `vr_ip6_partial_csum`. -/
def vrIp6PartialCsum (m : Bytes) (ip6 : Nat) : Nat :=
  let s := ((List.range 4).map fun i => load32 m (ip6 + 8 + 4 * i)).sum
  let s := s + ((List.range 4).map fun i => load32 m (ip6 + 24 + 4 * i)).sum
  foldPartial (s + ip6Plen m ip6 + swap16 (ip6Nxt m ip6))

/-- The words of the IPv6 pseudo header: both addresses, the length in 32 bits, three zero bytes and
the protocol. -/
def ip6PseudoWords (m : Bytes) (ip6 : Nat) : List Nat :=
  (List.range 16).map (fun i => load16 m (ip6 + 8 + 2 * i)) ++
    [0, ip6Plen m ip6, 0, 256 * ip6Nxt m ip6]

/-- Folding keeps the residue, and it is zero only for a sum of zero: no carry is lost. -/
theorem foldPartial_eq {s : Nat} (hs : s < 2 ^ 48) : foldPartial s = canon 65535 s := by
  have hdvd : 65535 ∣ 2 ^ 32 - 1 := by decide
  -- the first fold is modulo `2 ^ 32 - 1`
  have hfirst : ((s % 2 ^ 32 + s / 2 ^ 32 : Nat) : ZMod 65535) = s := by
    have h := (ZMod.natCast_eq_natCast_iff _ _ _).mp
      (halves_cast (B := 2 ^ 32) (by decide) s)
    rw [Nat.add_comm]
    exact (ZMod.natCast_eq_natCast_iff _ _ _).mpr (h.of_dvd hdvd)
  unfold foldPartial
  dsimp only
  generalize ht : s % 2 ^ 32 + s / 2 ^ 32 = t at hfirst ⊢
  have hsecond : ((t % 2 ^ 16 + t / 2 ^ 16 : Nat) : ZMod 65535) = t := halves32_cast t
  rw [Nat.mod_eq_of_lt (b := 2 ^ 32) (by omega)]
  generalize hu : t % 2 ^ 16 + t / 2 ^ 16 = u at hsecond ⊢
  have hthird : ((u % 2 ^ 16 + u / 2 ^ 16 : Nat) : ZMod 65535) = u := halves32_cast u
  rw [Nat.mod_eq_of_lt (by omega)]
  refine eq_canon (by decide) (by omega) ?_ (by omega)
  rw [hthird, hsecond, hfirst]

theorem swap16_byte {n : Nat} (hn : n < 256) : swap16 n = 256 * n := by
  unfold swap16
  omega

theorem ip6PseudoWords_le (m : Bytes) (ip6 : Nat) : ∀ w ∈ ip6PseudoWords m ip6, w ≤ 65535 := by
  have hnxt : ip6Nxt m ip6 < 256 := load8_lt
  have hplen : ip6Plen m ip6 < 65536 := load16_lt
  intro w hw
  rcases List.mem_append.mp hw with hw | hw
  · obtain ⟨i, -, rfl⟩ := List.mem_map.mp hw
    exact Nat.le_of_lt_succ load16_lt
  · simp only [List.mem_cons, List.not_mem_nil, or_false] at hw
    omega

theorem sum_ip6PseudoWords (m : Bytes) (ip6 : Nat) : (ip6PseudoWords m ip6).sum =
    wordSum m (ip6 + 8) 16 + ip6Plen m ip6 + 256 * ip6Nxt m ip6 := by
  have hwords : ((List.range 16).map fun i => load16 m (ip6 + 8 + 2 * i)).sum =
      wordSum m (ip6 + 8) 16 := rfl
  unfold ip6PseudoWords
  rw [List.sum_append]
  simp only [List.sum_cons, List.sum_nil]
  omega

/-- Numbers of 32 bits add up to the residue of their words, and to zero only if the words do. -/
theorem sum_load32 (m : Bytes) (a n : Nat) :
    ((((List.range n).map fun i => load32 m (a + 4 * i)).sum : Nat) : ZMod 65535) =
        wordSum m a (2 * n) ∧
      (((List.range n).map fun i => load32 m (a + 4 * i)).sum = 0 ↔ wordSum m a (2 * n) = 0) ∧
      ((List.range n).map fun i => load32 m (a + 4 * i)).sum ≤ n * 2 ^ 32 := by
  induction n generalizing a with
  | zero => exact ⟨rfl, Iff.rfl, Nat.zero_le _⟩
  | succ n ih =>
    obtain ⟨hcast, hzero, hle⟩ := ih (a + 4)
    have hrest : (List.range n).map ((fun i => load32 m (a + 4 * i)) ∘ Nat.succ) =
        (List.range n).map fun i => load32 m (a + 4 + 4 * i) := by
      apply List.map_congr_left
      intro i _
      show load32 m (a + 4 * (i + 1)) = _
      rw [show a + 4 * (i + 1) = a + 4 + 4 * i by ring]
    have hlt : load32 m a < 2 ^ 32 := load32_lt
    rw [List.range_succ_eq_map, List.map_cons, List.map_map, hrest, List.sum_cons,
      show 2 * (n + 1) = 2 * n + 1 + 1 by ring, wordSum_succ, wordSum_succ,
      show a + 2 + 2 = a + 4 from rfl, Nat.add_zero]
    refine ⟨?_, ?_, ?_⟩
    · rw [Nat.cast_add, Nat.cast_add, Nat.cast_add, hcast, load32_cast]
      ring
    · rw [load32]
      omega
    · omega

theorem sum_pseudoWords (m : Bytes) (ip len : Nat) : (pseudoWords m ip len).sum =
    load16 m (ip + 12) + load16 m (ip + 14) + load16 m (ip + 16) + load16 m (ip + 18) +
      256 * ipProto m ip + swap16 len := by
  unfold pseudoWords
  simp only [List.sum_cons, List.sum_nil]
  omega

theorem vrIpPartialCsum_eq (m : Bytes) (ip : Nat) :
    vrIpPartialCsum m ip = sum 65535 (pseudoWords m ip (upperLength m ip)) := by
  have hs : ipSaddr m ip < 2 ^ 32 := load32_lt
  have hd : ipDaddr m ip < 2 ^ 32 := load32_lt
  have hp : ipProto m ip < 256 := load8_lt
  have hlen : swap16 (upperLength m ip) < 65536 := by
    unfold swap16
    omega
  unfold vrIpPartialCsum
  rw [swap16_byte hp, foldPartial_eq (by omega), sum_eq_canon (by decide) pseudoWords_le]
  apply canon_congr (by decide)
  · rw [pseudoWords_cast]
    push_cast
    ring
  · have hsaddr : ipSaddr m ip = load16 m (ip + 12) + 65536 * load16 m (ip + 14) := rfl
    have hdaddr : ipDaddr m ip = load16 m (ip + 16) + 65536 * load16 m (ip + 18) := rfl
    rw [sum_pseudoWords]
    omega

theorem vrIp6PartialCsum_eq (m : Bytes) (ip6 : Nat) :
    vrIp6PartialCsum m ip6 = sum 65535 (ip6PseudoWords m ip6) := by
  have hnxt : ip6Nxt m ip6 < 256 := load8_lt
  have hplen : ip6Plen m ip6 < 65536 := load16_lt
  obtain ⟨hsrc, hsrc0, hsrcle⟩ := sum_load32 m (ip6 + 8) 4
  obtain ⟨hdst, hdst0, hdstle⟩ := sum_load32 m (ip6 + 24) 4
  -- the two addresses are next to each other
  have hboth : wordSum m (ip6 + 8) 16 = wordSum m (ip6 + 8) 8 + wordSum m (ip6 + 24) 8 := by
    rw [show 16 = 8 + 8 by rfl, wordSum_add]
  unfold vrIp6PartialCsum
  rw [swap16_byte hnxt]
  rw [foldPartial_eq (by omega), sum_eq_canon (by decide) (ip6PseudoWords_le m ip6),
    sum_ip6PseudoWords, hboth]
  apply canon_congr (by decide)
  · simp only [Nat.cast_add]
    rw [hsrc, hdst]
  · rw [show 2 * 4 = 8 from rfl] at hsrc0 hdst0
    omega

/-- **Partial checksums.** Both functions return the folded one's complement sum of the words of the
pseudo header: addresses, protocol and length. -/
theorem partialCsum_eq_sum (m : Bytes) (ip : Nat) :
    vrIpPartialCsum m ip = sum 65535 (pseudoWords m ip (upperLength m ip)) ∧
      vrIp6PartialCsum m ip = sum 65535 (ip6PseudoWords m ip) :=
  ⟨vrIpPartialCsum_eq m ip, vrIp6PartialCsum_eq m ip⟩

/-! ## The ICMPv6 checksum -/

/-- The first loop of `vr_sum`. -/
def vrSumLoop (m : Bytes) : (ptr numWords total : Nat) → Nat
  | _, 0, total => total
  | ptr, numWords + 1, total =>
    vrSumLoop m (ptr + 2) numWords ((total + load16 m ptr) % 2 ^ 32)

/-- The second loop of `vr_sum`. -/
def foldLoop (total : Nat) : Nat :=
  if total / 2 ^ 16 = 0 then total else foldLoop (total / 2 ^ 16 + total % 2 ^ 16)
termination_by total
decreasing_by omega

/-- `vr_sum`. -/
def vrSum (m : Bytes) (buf length : Nat) : Nat :=
  foldLoop (vrSumLoop m buf ((length + 1) / 2) 0) % 2 ^ 16

/-- The pseudo header `vr_ip6_pseudo_header_sum` fills in. -/
def ip6Pseudo (m : Bytes) (ip6 : Nat) : Bytes :=
  -- the addresses are next to each other in both structures
  let ph : Bytes := fun i => if i < 32 then m (ip6 + 8 + i) else 0
  let ph := store16 ph 32 (ip6Plen m ip6)
  let ph := store16 ph 34 0
  store32 ph 36 (ip6Nxt m ip6 * 2 ^ 24)

/-- `vr_ip6_pseudo_header_sum`. -/
def vrIp6PseudoHeaderSum (m : Bytes) (ip6 : Nat) : Nat := vrSum (ip6Pseudo m ip6) 0 40

/-- `vr_icmp6_checksum`, which also clears `icmp_csum`. -/
def vrIcmp6Checksum (m : Bytes) (ip6 icmph : Nat) : Nat × Bytes :=
  let sum0 := vrIp6PseudoHeaderSum m ip6
  let m := store16 m (icmph + 2) 0
  let sum1 := vrSum m icmph (swap16 (ip6Plen m ip6))
  (vrSum (store16 (store16 (fun _ => 0) 0 sum0) 2 sum1) 0 4, m)

theorem foldLoop_eq (total : Nat) : foldLoop total = canon 65535 total := by
  fun_induction foldLoop total with
  | case1 total h => exact canon_of_le (by omega)
  | case2 total h ih =>
    rw [ih]
    exact canon_congr (by decide) (halves_cast (by decide) total) (by omega)

theorem vrSumLoop_eq (m : Bytes) {k ptr total : Nat} (h : total + wordSum m ptr k < 2 ^ 32) :
    vrSumLoop m ptr k total = total + wordSum m ptr k := by
  induction k generalizing ptr total with
  | zero => rfl
  | succ k ih =>
    rw [wordSum_succ] at h ⊢
    rw [vrSumLoop, ih (by omega)]
    omega

theorem vrSum_eq (m : Bytes) (buf : Nat) {length : Nat} (h : length < 2 ^ 16) :
    vrSum m buf length = canon 65535 (wordSum m buf ((length + 1) / 2)) := by
  have hle := wordSum_le m buf ((length + 1) / 2)
  unfold vrSum
  rw [vrSumLoop_eq m (by omega), Nat.zero_add, foldLoop_eq]
  exact Nat.mod_eq_of_lt (Nat.lt_succ_of_le (canon_le (by decide) _))

theorem wordSum_ip6Pseudo (m : Bytes) (ip6 : Nat) :
    wordSum (ip6Pseudo m ip6) 0 20 = (ip6PseudoWords m ip6).sum := by
  have hplen : ip6Plen m ip6 < 65536 := load16_lt
  have hnxt : ip6Nxt m ip6 < 256 := load8_lt
  -- the addresses
  have haddr : wordSum (ip6Pseudo m ip6) 0 16 = wordSum m (ip6 + 8) 16 := by
    apply Finset.sum_congr rfl
    intro i hi
    have hlt : i < 16 := Finset.mem_range.mp hi
    unfold ip6Pseudo
    rw [load16_store32_of_ne (by omega), load16_store16_of_ne (by omega),
      load16_store16_of_ne (by omega)]
    unfold load16 load8
    dsimp only
    rw [if_pos (by omega), if_pos (by omega), Nat.zero_add, Nat.add_assoc (ip6 + 8)]
  -- length and protocol, each in the lower half of 32 bits
  have hrest : wordSum (ip6Pseudo m ip6) 32 4 = ip6Plen m ip6 + 256 * ip6Nxt m ip6 := by
    have h0 : load16 (ip6Pseudo m ip6) 32 = ip6Plen m ip6 := by
      unfold ip6Pseudo
      rw [load16_store32_of_ne (by decide), load16_store16_of_ne (by decide), load16_store16,
        Nat.mod_eq_of_lt hplen]
    have h2 : load16 (ip6Pseudo m ip6) 36 = 0 := by
      unfold ip6Pseudo
      rw [load16_store32_low]
      omega
    have h3 : load16 (ip6Pseudo m ip6) 38 = 256 * ip6Nxt m ip6 := by
      unfold ip6Pseudo
      rw [load16_store32_high]
      omega
    simp only [wordSum_succ, h0, h2, h3]
    show ip6Plen m ip6 + (0 + (0 + (256 * ip6Nxt m ip6 + 0))) = _
    omega
  rw [show 20 = 16 + 4 from rfl, wordSum_add, sum_ip6PseudoWords]
  show _ + wordSum (ip6Pseudo m ip6) 32 4 = _
  omega

theorem vrIp6PseudoHeaderSum_eq (m : Bytes) (ip6 : Nat) :
    vrIp6PseudoHeaderSum m ip6 = canon 65535 (ip6PseudoWords m ip6).sum := by
  unfold vrIp6PseudoHeaderSum
  rw [vrSum_eq _ _ (by decide), ← wordSum_ip6Pseudo]

theorem vrSum_pair {a b : Nat} (x y : Nat) (ha : a = canon 65535 x) (hb : b = canon 65535 y) :
    vrSum (store16 (store16 (fun _ => 0) 0 a) 2 b) 0 4 = canon 65535 (x + y) := by
  have hale : a ≤ 65535 := ha ▸ canon_le (by decide) x
  have hble : b ≤ 65535 := hb ▸ canon_le (by decide) y
  have hsum : wordSum (store16 (store16 (fun _ => 0) 0 a) 2 b) 0 2 = a + b := by
    rw [wordSum_succ, wordSum_succ, load16_store16_of_ne (by decide), load16_store16,
      load16_store16, Nat.mod_eq_of_lt (by omega), Nat.mod_eq_of_lt (by omega)]
    rfl
  rw [vrSum_eq _ _ (by decide), hsum]
  apply canon_congr (by decide)
  · push_cast
    rw [ha, hb, canon_cast, canon_cast]
  · rw [Nat.add_eq_zero_iff, Nat.add_eq_zero_iff, ha, hb, canon_eq_zero, canon_eq_zero]

/-- What `vr_sum` reads of `n` bytes: their words, and the byte behind an odd number of them. -/
theorem wordSum_half (m : Bytes) (w n : Nat) : wordSum m w ((n + 1) / 2) =
    csumLoop m w n + n % 2 * (256 * load8 m (w + n)) := by
  fun_induction csumLoop m w n with
  | case1 w => simp [wordSum]
  | case2 w =>
    show load16 m w + 0 = _
    unfold load16
    omega
  | case3 w n ih =>
    rw [show (n + 2 + 1) / 2 = (n + 1) / 2 + 1 by omega, wordSum_succ, ih,
      show w + 2 + n = w + (n + 2) by ring, show n.succ.succ = n + 2 from rfl,
      Nat.add_mod_right, Nat.add_assoc]

/-- `vr_icmp6_checksum` adds up the pseudo header, the payload and the byte behind a payload of odd
length. -/
theorem vrIcmp6Checksum_eq {m : Bytes} {ip6 icmph : Nat} (h : ip6 + sizeofIp6 ≤ icmph) :
    (vrIcmp6Checksum m ip6 icmph).1 = canon 65535 ((ip6PseudoWords m ip6).sum +
      (csumLoop (store16 m (icmph + 2) 0) icmph (swap16 (ip6Plen m ip6)) +
        swap16 (ip6Plen m ip6) % 2 *
          (256 * load8 (store16 m (icmph + 2) 0) (icmph + swap16 (ip6Plen m ip6))))) := by
  unfold sizeofIp6 at h
  have hplen : ip6Plen (store16 m (icmph + 2) 0) ip6 = ip6Plen m ip6 :=
    load16_store16_of_ne (by omega)
  have hn : swap16 (ip6Plen m ip6) < 2 ^ 16 := by
    unfold swap16
    omega
  unfold vrIcmp6Checksum
  dsimp only
  rw [hplen, ← wordSum_half]
  exact vrSum_pair _ _ (vrIp6PseudoHeaderSum_eq m ip6) (vrSum_eq _ _ hn)

/-- The checksum of an ICMPv6 message of `n` bytes whose checksum field is zero: the complement of
the one's complement sum of its pseudo header and its words. -/
def icmp6Csum (m : Bytes) (ip6 icmph n : Nat) : Nat :=
  2 ^ 16 - 1 - sum 65535 (ip6PseudoWords m ip6 ++ segmentWords m icmph n)

theorem icmp6Csum_eq (m : Bytes) (ip6 icmph n : Nat) : icmp6Csum m ip6 icmph n =
    2 ^ 16 - 1 - canon 65535 ((ip6PseudoWords m ip6).sum + csumLoop m icmph n) := by
  unfold icmp6Csum
  rw [sum_eq_canon (by decide), List.sum_append, sum_segmentWords]
  intro w hw
  rcases List.mem_append.mp hw with hw | hw
  · exact ip6PseudoWords_le m ip6 w hw
  · exact segmentWords_le m icmph n w hw

theorem ip6PseudoWords_congr {m m' : Bytes} {ip6 : Nat}
    (h : ∀ b, ip6 ≤ b → b < ip6 + sizeofIp6 → m' b = m b) :
    ip6PseudoWords m' ip6 = ip6PseudoWords m ip6 ∧ ip6Plen m' ip6 = ip6Plen m ip6 := by
  unfold sizeofIp6 at h
  have hload : ∀ a, ip6 ≤ a → a + 2 ≤ ip6 + 40 → load16 m' a = load16 m a :=
    fun a _ _ => load16_congr fun b _ _ => h b (by omega) (by omega)
  have hplen : ip6Plen m' ip6 = ip6Plen m ip6 := hload _ (by omega) (by omega)
  have hnxt : ip6Nxt m' ip6 = ip6Nxt m ip6 := load8_congr (h _ (by omega) (by omega))
  refine ⟨?_, hplen⟩
  unfold ip6PseudoWords
  rw [hplen, hnxt]
  congr 1
  apply List.map_congr_left
  intro i hi
  have hlt := List.mem_range.mp hi
  exact hload _ (by omega) (by omega)

/-- Of the byte behind the payload only zero leaves the sum as it is. -/
theorem canon_add_byte_iff (n : Nat) {b : Nat} (hb : b < 256) :
    canon 65535 (n + 256 * b) = canon 65535 n ↔ b = 0 := by
  constructor
  · intro h
    have hcast : ((n + 256 * b : Nat) : ZMod 65535) = (n : Nat) := by
      rw [← canon_cast, h, canon_cast]
    have hdvd : 65535 ∣ 256 * b := by
      rw [← ZMod.natCast_eq_zero_iff]
      push_cast at hcast ⊢
      linear_combination hcast
    omega
  · rintro rfl
    rfl

/-- A neighbor advertisement's header at 0, with a payload of `plen` bytes behind it and `byte` in
the `n`th byte of what follows. -/
def icmp6Sample (plen n byte : Nat) : Bytes :=
  store8 (store8 (store8 (store8 (fun _ => 0) 5 plen) 6 58) 40 136) (40 + n) byte

end VRouter
