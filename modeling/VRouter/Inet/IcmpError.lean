import VRouter.Inet.TransportChecksum

/-!
# VRouter — ICMP errors under address translation

An ICMP error quotes the packet it is about, which went the other way. `vr_inet_flow_nat` rewrites
the quoted addresses and ports with the roles of source and destination exchanged, computes the
quoted header checksum again, and then treats the packet itself as any other.

* `natIcmpPayload_spec`: the quoted packet is translated as `QuotedNat` says, nothing else changes.
* `natBytes_icmp`: the later stages leave the ICMP message alone but for its first four bytes. To
  them these are the ports; in truth they are the type, the code and the checksum.

The ICMP checksum is not updated by anyone. It stays valid because a header whose own checksum is
valid adds nothing to the sum of the message (`csumLoop_split`), whatever its addresses are.
-/

namespace VRouter

open Memory OnesComplement

/-- Where the packet quoted by an ICMP error starts. -/
def quotedIp (m : Bytes) (ip : Nat) : Nat := transportHeader m ip + 8

/-- The ICMP checksum verifies over the `n` bytes of the message in this packet and the words `rest`
in later fragments. -/
def IcmpCsumValid (m : Bytes) (ip n : Nat) (rest : List (Fin 65536)) : Prop :=
  sum 65535 (segmentWords m (transportHeader m ip) n ++ rest.map Fin.val) = 65535

instance (m : Bytes) (ip n : Nat) (rest : List (Fin 65536)) :
    Decidable (IcmpCsumValid m ip n rest) := Nat.decEq _ _

/-- `m'` has the packet quoted at `q` in `m` in terms of the other side: what the flow does to
sources is done to destinations, and the other way round. -/
structure QuotedNat (m m' : Bytes) (q : Nat) (fe rfe : FlowEntry) : Prop where
  hl : ipHl m' q = ipHl m q
  daddr : ipDaddr m' q = if fe.feFlags.snat then flow4Dip rfe.feKey else ipDaddr m q
  saddr : ipSaddr m' q = if fe.feFlags.dnat then flow4Sip rfe.feKey else ipSaddr m q
  dport : load16 m' (transportHeader m q + 2) =
    if fe.feFlags.spat then flowDport rfe.feKey else load16 m (transportHeader m q + 2)
  sport : load16 m' (transportHeader m q) =
    if fe.feFlags.dpat then flowSport rfe.feKey else load16 m (transportHeader m q)

section

variable {m m' : Bytes} {q : Nat}

/-- A header at or behind `q`, where only bytes before `q` were written. -/
theorem HeaderKept.of_agreeFrom (hl : 5 ≤ ipHl m q) (h : AgreeFrom q m m') : HeaderKept m m' q :=
  .of_agree hl fun b hb _ => h b hb

end

theorem QuotedNat.of_agree {m m' m'' : Bytes} {q : Nat} {fe rfe : FlowEntry}
    (h : QuotedNat m m' q fe rfe) (hagree : AgreeFrom q m' m'') : QuotedNat m m'' q fe rfe where
  hl := (ipHl_congr (hagree q le_rfl)).trans h.hl
  daddr := (hagree.load32 (by omega)).trans h.daddr
  saddr := (hagree.load32 (by omega)).trans h.saddr
  dport := (hagree.load16 (by unfold transportHeader; omega)).trans h.dport
  sport := (hagree.load16 (by unfold transportHeader; omega)).trans h.sport

/-! ## The quoted packet -/

section

variable {m : Bytes} {q : Nat}

/-- The quoted addresses: destination first. -/
def quotedAddresses (m : Bytes) (q : Nat) (fe rfe : FlowEntry) : Bytes :=
  let m := if fe.feFlags.snat then store32 m (q + 16) (flow4Dip rfe.feKey) else m
  if fe.feFlags.dnat then store32 m (q + 12) (flow4Sip rfe.feKey) else m

/-- The quoted header checksum. -/
def quotedCsum (m : Bytes) (q : Nat) (fe : FlowEntry) : Bytes :=
  if fe.feFlags.snat || fe.feFlags.dnat then store16 (vrIpCsum m q).2 (q + 10) (vrIpCsum m q).1
  else m

/-- The quoted ports: destination first. -/
def quotedPorts (m : Bytes) (q : Nat) (fe rfe : FlowEntry) : Bytes :=
  let tSport := transportHeader m q
  let m := if fe.feFlags.spat then store16 m (tSport + 2) (flowDport rfe.feKey) else m
  if fe.feFlags.dpat then store16 m tSport (flowSport rfe.feKey) else m

theorem natIcmpPayload_eq {ip : Nat} (hproto : ipProto m ip = protoIcmp)
    (herror : vrIcmpError m (transportHeader m ip)) (fe rfe : FlowEntry) :
    natIcmpPayload m ip fe rfe =
      quotedPorts (quotedCsum (quotedAddresses m (quotedIp m ip) fe rfe) (quotedIp m ip) fe)
        (quotedIp m ip) fe rfe := by
  unfold natIcmpPayload
  rw [if_pos ⟨hproto, herror⟩]
  rfl

/-- Two fields of `n` bytes that may or may not be written, one after the other. -/
theorem storeFields_spec (load : Bytes → Nat → Nat) (store : Bytes → Nat → Nat → Bytes)
    {n size v v' : Nat} (hself : ∀ {m a v}, load (store m a v) a = v % size)
    (hother : ∀ {m b a v}, b < a ∨ a + n ≤ b → store m a v b = m b)
    (hcongr : ∀ {m m' a}, (∀ b, a ≤ b → b < a + n → m' b = m b) → load m' a = load m a)
    (c c' : Bool) (a a' : Nat) (ha : a + n ≤ a' ∨ a' + n ≤ a) (hv : v < size) (hv' : v' < size)
    {m₁ m₂ : Bytes} (h₁ : m₁ = if c then store m a v else m)
    (h₂ : m₂ = if c' then store m₁ a' v' else m₁) :
    (∀ b, (b < a ∨ a + n ≤ b) → (b < a' ∨ a' + n ≤ b) → m₂ b = m b) ∧
      load m₂ a = (if c then v else load m a) ∧
      load m₂ a' = (if c' then v' else load m a') ∧
      (c = false → c' = false → m₂ = m) := by
  have hfirst : load m₁ a = (if c then v else load m a) := by
    cases c with
    | true => rw [h₁, if_pos rfl, if_pos rfl, hself, Nat.mod_eq_of_lt hv]
    | false =>
      rw [h₁]
      rfl
  have hbytes : ∀ b, (b < a ∨ a + n ≤ b) → m₁ b = m b := by
    intro b hb
    rw [h₁]
    split
    · exact hother hb
    · rfl
  cases c' with
  | true =>
    rw [if_pos rfl] at h₂
    refine ⟨fun b hb hb' => ?_, ?_, ?_, fun _ h => Bool.noConfusion h⟩
    · rw [h₂, hother hb', hbytes b hb]
    · rw [h₂, ← hfirst]
      exact hcongr fun b _ _ => hother (by omega)
    · rw [h₂, hself, Nat.mod_eq_of_lt hv']
      rfl
  | false =>
    replace h₂ : m₂ = m₁ := h₂
    refine ⟨fun b hb _ => ?_, ?_, ?_, fun hc _ => ?_⟩
    · rw [h₂, hbytes b hb]
    · rw [h₂, hfirst]
    · rw [h₂]
      exact hcongr fun b _ _ => hbytes b (by omega)
    · rw [h₂, h₁, hc]
      rfl

theorem quotedAddresses_spec (m : Bytes) (q : Nat) (fe rfe : FlowEntry) :
    (∀ b, b < q + 12 ∨ q + 20 ≤ b → quotedAddresses m q fe rfe b = m b) ∧
      ipDaddr (quotedAddresses m q fe rfe) q =
        (if fe.feFlags.snat then flow4Dip rfe.feKey else ipDaddr m q) ∧
      ipSaddr (quotedAddresses m q fe rfe) q =
        (if fe.feFlags.dnat then flow4Sip rfe.feKey else ipSaddr m q) ∧
      (fe.feFlags.snat = false → fe.feFlags.dnat = false → quotedAddresses m q fe rfe = m) := by
  obtain ⟨hbytes, hdaddr, hsaddr, hnone⟩ :=
    storeFields_spec load32 store32 load32_store32 store32_of_ne load32_congr fe.feFlags.snat
      fe.feFlags.dnat (q + 16) (q + 12) (by omega) (flow4Dip_lt rfe.feKey)
      (flow4Sip_lt rfe.feKey) rfl rfl
  exact ⟨fun b hb => hbytes b (by omega) (by omega), hdaddr, hsaddr, hnone⟩

theorem quotedCsum_spec (hl : 5 ≤ ipHl m q) (fe : FlowEntry) :
    (∀ b, b < q + 10 ∨ q + 12 ≤ b → quotedCsum m q fe b = m b) ∧
      ((fe.feFlags.snat || fe.feFlags.dnat) = true →
        (headerSum (quotedCsum m q fe) q : ZMod 65535) = 0) := by
  unfold quotedCsum
  constructor
  · intro b hb
    split
    · rw [store16_of_ne (by omega)]
      exact store16_of_ne (by omega)
    · rfl
  intro hupdate
  obtain ⟨hle, hcast⟩ := vrIpCsum_cast hl
  rw [if_pos hupdate]
  have hhl : ipHl (vrIpCsum m q).2 q = ipHl m q := ipHl_store16 (by omega)
  have hcleared : (headerSum (vrIpCsum m q).2 q : ZMod 65535) = headerSum m q - ipCsum m q := by
    show (headerSum (store16 m (q + 10) 0) q : ZMod 65535) = _
    rw [headerSum_csum hl (by decide), Nat.cast_zero, add_zero]
  have hfield : ipCsum (vrIpCsum m q).2 q = 0 := load16_store16
  rw [headerSum_csum (hhl.symm ▸ hl) (by omega), hcleared, hcast, hfield]
  ring

theorem quotedPorts_spec (m : Bytes) (q : Nat) (fe rfe : FlowEntry) :
    (∀ b, b < transportHeader m q ∨ transportHeader m q + 4 ≤ b →
        quotedPorts m q fe rfe b = m b) ∧
      load16 (quotedPorts m q fe rfe) (transportHeader m q + 2) =
        (if fe.feFlags.spat then flowDport rfe.feKey else load16 m (transportHeader m q + 2)) ∧
      load16 (quotedPorts m q fe rfe) (transportHeader m q) =
        (if fe.feFlags.dpat then flowSport rfe.feKey else load16 m (transportHeader m q)) ∧
      (fe.feFlags.spat = false → fe.feFlags.dpat = false → quotedPorts m q fe rfe = m) := by
  obtain ⟨hbytes, hdport, hsport, hnone⟩ :=
    storeFields_spec load16 store16 load16_store16 store16_of_ne load16_congr fe.feFlags.spat
      fe.feFlags.dpat (transportHeader m q + 2) (transportHeader m q) (by omega)
      (flowDport_lt rfe.feKey) (flowSport_lt rfe.feKey) rfl rfl
  exact ⟨fun b hb => hbytes b (by omega) (by omega), hdport, hsport, hnone⟩

end

section

variable {m : Bytes} {ip : Nat} (hproto : ipProto m ip = protoIcmp)
  (herror : vrIcmpError m (transportHeader m ip)) (hquoted : 5 ≤ ipHl m (quotedIp m ip))

include hproto herror hquoted

/-- The quoted packet of an ICMP error is translated, with a valid header checksum if it had one,
and nothing but its header and ports is written. -/
theorem natIcmpPayload_spec (fe rfe : FlowEntry) :
    QuotedNat m (natIcmpPayload m ip fe rfe) (quotedIp m ip) fe rfe ∧
      ((headerSum m (quotedIp m ip) : ZMod 65535) = 0 →
        (headerSum (natIcmpPayload m ip fe rfe) (quotedIp m ip) : ZMod 65535) = 0) ∧
      (∀ b, b < quotedIp m ip ∨ transportHeader m (quotedIp m ip) + 4 ≤ b →
        natIcmpPayload m ip fe rfe b = m b) ∧
      (fe.feFlags.spat = false → fe.feFlags.dpat = false →
        ∀ b, transportHeader m (quotedIp m ip) ≤ b → natIcmpPayload m ip fe rfe b = m b) := by
  rw [natIcmpPayload_eq hproto herror]
  generalize quotedIp m ip = q at hquoted ⊢
  -- the addresses
  obtain ⟨hbytes₁, hdaddr, hsaddr, hsame⟩ := quotedAddresses_spec m q fe rfe
  have hhl₁ : ipHl (quotedAddresses m q fe rfe) q = ipHl m q := ipHl_congr (hbytes₁ q (by omega))
  generalize quotedAddresses m q fe rfe = m₁ at hbytes₁ hdaddr hsaddr hhl₁ hsame ⊢
  -- the checksum
  obtain ⟨hbytes₂, hsum⟩ := quotedCsum_spec (hhl₁.symm ▸ hquoted) fe
  have hvalid : (headerSum m q : ZMod 65535) = 0 →
      (headerSum (quotedCsum m₁ q fe) q : ZMod 65535) = 0 := by
    intro hzero
    cases hflags : (fe.feFlags.snat || fe.feFlags.dnat) with
    | true => exact hsum hflags
    | false =>
      obtain ⟨hsnat, hdnat⟩ := Bool.or_eq_false_iff.mp hflags
      unfold quotedCsum
      rw [hflags, hsame hsnat hdnat]
      exact hzero
  generalize quotedCsum m₁ q fe = m₂ at hbytes₂ hvalid ⊢
  have hhl₂ : ipHl m₂ q = ipHl m q := (ipHl_congr (hbytes₂ q (by omega))).trans hhl₁
  have htransport : transportHeader m₂ q = transportHeader m q := by
    unfold transportHeader
    rw [hhl₂]
  have hbehind : q + 20 ≤ transportHeader m q := by
    unfold transportHeader
    omega
  have hagree : ∀ b, b < q + 10 ∨ q + 20 ≤ b → m₂ b = m b :=
    fun b hb => (hbytes₂ b (by omega)).trans (hbytes₁ b (by omega))
  -- the ports, which lie behind the header
  obtain ⟨hbytes₃, hdport, hsport, hnone⟩ := quotedPorts_spec m₂ q fe rfe
  have hkept : HeaderKept m₂ (quotedPorts m₂ q fe rfe) q :=
    .of_agree (hhl₂.symm ▸ hquoted) fun b _ hlt => hbytes₃ b (Or.inl hlt)
  rw [htransport] at hbytes₃ hdport hsport
  refine ⟨⟨hkept.hl.trans hhl₂, ?_, ?_, ?_, ?_⟩, fun hzero => hkept.sum.trans (hvalid hzero),
    ?_, ?_⟩
  · rw [← hdaddr]
    exact (load32_congr fun b _ _ => hbytes₃ b (by omega)).trans
      (load32_congr fun b _ _ => hbytes₂ b (by omega))
  · rw [← hsaddr]
    exact (load32_congr fun b _ _ => hbytes₃ b (by omega)).trans
      (load32_congr fun b _ _ => hbytes₂ b (by omega))
  · rw [hdport, load16_congr fun b _ _ => hagree b (by omega)]
  · rw [hsport, load16_congr fun b _ _ => hagree b (by omega)]
  · intro b hb
    exact (hbytes₃ b (by omega)).trans (hagree b (by omega))
  · intro hspat hdpat b hb
    rw [hnone hspat hdpat]
    exact hagree b (by omega)

end

/-! ## The message -/

section

variable {m : Bytes} {ip : Nat}

theorem vrIpUpdateCsum_icmp (hproto : ipProto m ip = protoIcmp) (csumPartial : Bool)
    (ipInc inc : Nat) :
    ∀ b, b < ip + 10 ∨ ip + 12 ≤ b → vrIpUpdateCsum m ip csumPartial ipInc inc b = m b := by
  intro b hb
  have hbytes := @updateIpCsum_bytes ip m ipInc
  unfold vrIpUpdateCsum
  generalize (if ipInc ≠ 0 then vrIpIncrementalCsum m ip ipInc else m) = m' at hbytes ⊢
  have hproto' : ipProto m' ip = protoIcmp :=
    (load8_congr (hbytes _ (by omega))).trans hproto
  have hnone : transportCsum m' ip = none := by
    unfold transportCsum
    rw [hproto', if_neg (by decide), if_neg (by decide)]
  rw [hnone]
  exact hbytes b hb

theorem natPorts_words (fe rfe : FlowEntry) (inc : Nat) :
    (∀ b, b < transportHeader m ip ∨ transportHeader m ip + 4 ≤ b →
        (natPorts m ip fe rfe inc).1 b = m b) ∧
      (vrIpTransportHeaderValid m ip → fe.feFlags.spat →
        load16 (natPorts m ip fe rfe inc).1 (transportHeader m ip) = flowDport rfe.feKey) ∧
      (vrIpTransportHeaderValid m ip → fe.feFlags.dpat →
        load16 (natPorts m ip fe rfe inc).1 (transportHeader m ip + 2) = flowSport rfe.feKey) ∧
      (fe.feFlags.spat = false → fe.feFlags.dpat = false → (natPorts m ip fe rfe inc).1 = m) := by
  unfold natPorts
  split
  next hvalid =>
    obtain ⟨hbytes, hsport, hdport, hnone⟩ :=
      storeFields_spec load16 store16 load16_store16 store16_of_ne load16_congr fe.feFlags.spat
        fe.feFlags.dpat (transportHeader m ip) (transportHeader m ip + 2) (by omega)
        (flowDport_lt rfe.feKey) (flowSport_lt rfe.feKey) rfl rfl
    simp only [apply_ite Prod.fst]
    refine ⟨fun b hb => hbytes b (by omega) (by omega), fun _ hspat => ?_, fun _ hdpat => ?_,
      hnone⟩
    · rw [hsport, if_pos hspat]
    · rw [hdport, if_pos hdpat]
  next hinvalid =>
    exact ⟨fun _ _ => rfl, fun h => absurd h hinvalid, fun h => absurd h hinvalid, fun _ _ => rfl⟩

/-- The later stages see an ICMP message as a transport header without a checksum: they write its
first two words, as ports, and nothing else. -/
theorem natBytes_icmp (hproto : ipProto m ip = protoIcmp) (hhl : 5 ≤ ipHl m ip)
    (diag csumPartial : Bool) (fe rfe : FlowEntry) :
    transportHeader (natBytes m ip diag csumPartial fe rfe) ip = transportHeader m ip ∧
      AgreeFrom (transportHeader m ip + 4) (natIcmpPayload m ip fe rfe)
        (natBytes m ip diag csumPartial fe rfe) ∧
      (vrIpTransportHeaderValid m ip → fe.feFlags.spat →
        load16 (natBytes m ip diag csumPartial fe rfe) (transportHeader m ip) =
          flowDport rfe.feKey) ∧
      (vrIpTransportHeaderValid m ip → fe.feFlags.dpat →
        load16 (natBytes m ip diag csumPartial fe rfe) (transportHeader m ip + 2) =
          flowSport rfe.feKey) ∧
      (fe.feFlags.spat = false → fe.feFlags.dpat = false →
        AgreeFrom (transportHeader m ip) (natIcmpPayload m ip fe rfe)
          (natBytes m ip diag csumPartial fe rfe)) := by
  have ht : ip + 20 ≤ transportHeader m ip := by
    unfold transportHeader
    omega
  have hbelow := @natIcmpPayload_agree ip m fe rfe
  unfold natBytes
  dsimp only
  generalize natIcmpPayload m ip fe rfe = m₁ at hbelow ⊢
  -- the addresses are in the outer header
  obtain ⟨hbytes₂, -, -⟩ := natAddresses_spec m₁ ip fe rfe
  generalize natAddresses m₁ ip fe rfe = a at hbytes₂ ⊢
  have hfront : ∀ b, ip ≤ b → b < ip + 12 → a.1 b = m b :=
    fun b _ hlt => (hbytes₂ b (by omega)).trans (hbelow b (by omega))
  obtain ⟨ht₂, hfirst, -⟩ := header_congr fun b hb hlt => hfront b hb (by omega)
  -- the ports are the first two words of the message
  obtain ⟨hbytes₃, hspat, hdpat, hnone⟩ := @natPorts_words a.1 ip fe rfe a.2
  rw [ht₂] at hbytes₃ hspat hdpat
  rw [hfirst] at hspat hdpat
  generalize natPorts a.1 ip fe rfe a.2 = p at hbytes₃ hspat hdpat hnone ⊢
  have hheader := header_congr fun b hb hlt =>
    (hbytes₃ b (by omega)).trans (hfront b hb (by omega))
  -- the outer checksum, unless this is a diagnostic packet
  have hbytes₄ : ∀ b, b < ip + 10 ∨ ip + 12 ≤ b →
      (if !diag then vrIpUpdateCsum p.1 ip csumPartial a.2 p.2 else p.1) b = p.1 b := by
    intro b hb
    split
    · exact vrIpUpdateCsum_icmp (hheader.2.2.trans hproto) csumPartial a.2 p.2 b hb
    · rfl
  refine ⟨?_, ?_, fun hvalid hflag => ?_, fun hvalid hflag => ?_, fun hspat' hdpat' => ?_⟩
  · exact (header_congr fun b _ _ => hbytes₄ b (by omega)).1.trans hheader.1
  · intro b hb
    rw [hbytes₄ b (by omega), hbytes₃ b (by omega), hbytes₂ b (by omega)]
  · rw [← hspat hvalid hflag]
    exact load16_congr fun b _ _ => hbytes₄ b (by omega)
  · rw [← hdpat hvalid hflag]
    exact load16_congr fun b _ _ => hbytes₄ b (by omega)
  · intro b hb
    rw [hbytes₄ b (by omega), hnone hspat' hdpat', hbytes₂ b (by omega)]

/-- The sum of a message whose first `2 * k` bytes are taken apart. -/
theorem csumLoop_split (m : Bytes) (n : Nat) : ∀ (k w : Nat),
    csumLoop m w (2 * k + n) = wordSum m w k + csumLoop m (w + 2 * k) n := by
  intro k
  induction k with
  | zero =>
    intro w
    rw [Nat.zero_add, Nat.add_zero]
    unfold wordSum
    rw [Finset.range_zero, Finset.sum_empty, Nat.zero_add]
  | succ k ih =>
    intro w
    rw [show 2 * (k + 1) + n = 2 * k + n + 2 by ring, csumLoop, ih, wordSum_succ,
      show w + 2 + 2 * k = w + 2 * (k + 1) by ring, Nat.add_assoc]

theorem csumLoop_quoted {n : Nat} (hn : 8 + ipHl m (quotedIp m ip) * 4 ≤ n) :
    csumLoop m (transportHeader m ip) n =
      wordSum m (transportHeader m ip) 4 + (headerSum m (quotedIp m ip) +
        csumLoop m (transportHeader m (quotedIp m ip))
          (n - (8 + ipHl m (quotedIp m ip) * 4))) := by
  have hlength : n = 2 * 4 + (2 * (2 * ipHl m (quotedIp m ip)) +
      (n - (8 + ipHl m (quotedIp m ip) * 4))) := by
    omega
  have hquoted : transportHeader m ip + 2 * 4 = quotedIp m ip := rfl
  have htransport : quotedIp m ip + 2 * (2 * ipHl m (quotedIp m ip)) =
      transportHeader m (quotedIp m ip) := by
    unfold transportHeader
    omega
  conv_lhs => rw [hlength]
  rw [csumLoop_split, csumLoop_split, hquoted, htransport]
  rfl

theorem icmpCsumValid_iff (herror : vrIcmpError m (transportHeader m ip)) {n : Nat} (hn : 2 ≤ n)
    {rest : List (Fin 65536)} : IcmpCsumValid m ip n rest ↔
      (csumLoop m (transportHeader m ip) n : ZMod 65535) + ((rest.map Fin.val).sum : Nat) = 0 := by
  have hle : ∀ w ∈ segmentWords m (transportHeader m ip) n ++ rest.map Fin.val, w ≤ 65535 :=
    fun w hw => datagramWords_le m m ip 0 n rest w (List.mem_append_right _ hw)
  -- the type of an error is not zero
  have hpos : csumLoop m (transportHeader m ip) n ≠ 0 := by
    obtain ⟨k, rfl⟩ : ∃ k, n = k + 2 := ⟨n - 2, by omega⟩
    have htype : load8 m (transportHeader m ip) ≠ 0 := by
      intro hzero
      unfold vrIcmpError at herror
      rw [hzero] at herror
      exact absurd herror (by decide)
    rw [csumLoop]
    unfold load16
    omega
  unfold IcmpCsumValid
  rw [sum_eq_canon (by decide) hle, canon_eq_all_ones (by decide), List.sum_append,
    sum_segmentWords]
  push_cast
  exact ⟨fun h => h.1, fun h => ⟨h, by omega⟩⟩

end

/-- A message that differs in its quoted header only, and there by a multiple of `2 ^ 16 - 1`, has a
valid checksum if the other has. -/
theorem icmpCsumValid_of_quoted {m m' : Bytes} {ip n : Nat} {rest : List (Fin 65536)}
    (herror : vrIcmpError m (transportHeader m ip)) (hn : 8 + ipHl m (quotedIp m ip) * 4 ≤ n)
    (hheader : transportHeader m' ip = transportHeader m ip)
    (htype : load8 m' (transportHeader m ip) = load8 m (transportHeader m ip))
    (hhl : ipHl m' (quotedIp m ip) = ipHl m (quotedIp m ip))
    (hbytes : ∀ b, transportHeader m ip ≤ b →
      b < quotedIp m ip ∨ transportHeader m (quotedIp m ip) ≤ b → m' b = m b)
    (hsum : (headerSum m' (quotedIp m ip) : ZMod 65535) = headerSum m (quotedIp m ip))
    (hvalid : IcmpCsumValid m ip n rest) : IcmpCsumValid m' ip n rest := by
  have hquoted : quotedIp m' ip = quotedIp m ip := by
    unfold quotedIp
    rw [hheader]
  have htransport : transportHeader m' (quotedIp m ip) = transportHeader m (quotedIp m ip) := by
    unfold transportHeader
    rw [hhl]
  have herror' : vrIcmpError m' (transportHeader m' ip) := by
    unfold vrIcmpError at herror ⊢
    rw [hheader, htype]
    exact herror
  have hpart := @csumLoop_quoted m' ip n (by rw [hquoted, hhl]; exact hn)
  have hfront : wordSum m' (transportHeader m ip) 4 = wordSum m (transportHeader m ip) 4 :=
    wordSum_of_agree fun b hb hlt => hbytes b hb (Or.inl (by unfold quotedIp; omega))
  have hback : csumLoop m' (transportHeader m (quotedIp m ip))
        (n - (8 + ipHl m (quotedIp m ip) * 4)) =
      csumLoop m (transportHeader m (quotedIp m ip)) (n - (8 + ipHl m (quotedIp m ip) * 4)) := by
    refine csumLoop_congr fun b hb _ => hbytes b ?_ (Or.inr hb)
    unfold quotedIp transportHeader at hb
    unfold transportHeader
    omega
  rw [hquoted, hhl, htransport, hheader, hfront, hback] at hpart
  rw [icmpCsumValid_iff herror (by omega), csumLoop_quoted hn] at hvalid
  rw [icmpCsumValid_iff herror' (by omega), hheader, hpart]
  push_cast at hvalid ⊢
  rw [hsum]
  exact hvalid

/-- "Port unreachable", with the headers of the datagram. -/
def icmpErrorPacket (diag : Bool) : VrPacket :=
  { samplePacket diag with
    vpHead := LongestMatch.octet
      [0x45, 0, 0, 56, 0, 0, 0, 0, 64, 1, 0x66, 0xC3, 10, 0, 0, 1, 10, 0, 0, 2,
        3, 3, 0xFC, 0x4A, 0, 0, 0, 0,
        0x45, 0, 0, 28, 0, 0, 0, 0, 64, 17, 0x66, 0xCF, 10, 0, 0, 2, 10, 0, 0, 1,
        0, 90, 0, 80, 0, 8, 0, 0]
    vpTail := 56
    vpLen := 56 }

/-- As `natRun`, with a flow that also translates the source port. -/
def patRun : List FlowStep :=
  [.request (tcpRequest (-1) 1 0 .forward { active := true } (-1)) allSucceed,
    .request (tcpRequest (-1) 2 0 .nat
      { active := true, rflowValid := true, dnat := true, spat := true } 4) allSucceed]

end VRouter
