import VRouter.Inet.HeaderChecksum

/-!
# VRouter — the TCP checksum under translation

The TCP checksum covers the addresses, by way of the pseudo header, and the segment. The segment may
continue in later fragments, whose words translation does not see and does not change. A partial
checksum is the folded sum of the pseudo header alone.
-/

namespace VRouter

open Memory OnesComplement

/-! ## Sums over a segment -/

/-- The words of `n` bytes, the last one padded with a zero byte if `n` is odd. -/
def segmentWords (m : Bytes) : Nat → Nat → List Nat
  | _, 0 => []
  | w, 1 => [load8 m w]
  | w, n + 2 => load16 m w :: segmentWords m (w + 2) n

theorem sum_segmentWords (m : Bytes) (w n : Nat) : (segmentWords m w n).sum = csumLoop m w n := by
  fun_induction segmentWords m w n with
  | case1 => rfl
  | case2 w => rw [List.sum_singleton, csumLoop]
  | case3 w n ih => rw [List.sum_cons, ih, csumLoop]

theorem segmentWords_le (m : Bytes) (w n : Nat) : ∀ x ∈ segmentWords m w n, x ≤ 65535 := by
  fun_induction segmentWords m w n with
  | case1 => exact fun x hx => absurd hx List.not_mem_nil
  | case2 w =>
    intro x hx
    rw [List.mem_singleton.mp hx]
    exact Nat.le_trans (Nat.le_of_lt load8_lt) (by decide)
  | case3 w n ih =>
    intro x hx
    rcases List.mem_cons.mp hx with rfl | hx
    · exact Nat.le_of_lt_succ load16_lt
    · exact ih x hx

variable {m m' : Bytes} {ip c t n csum inc j len w : Nat}

theorem csumLoop_congr (h : ∀ b, w ≤ b → b < w + n → m' b = m b) :
    csumLoop m' w n = csumLoop m w n := by
  fun_induction csumLoop m w n with
  | case1 => rfl
  | case2 w =>
    rw [csumLoop, load8_congr (h w le_rfl (by omega))]
  | case3 w n ih =>
    have hword : load16 m' w = load16 m w := load16_congr fun b hb hlt => h b hb (by omega)
    rw [csumLoop, hword, ih fun b hb hlt => h b (by omega) (by omega)]

/-- If only word `j` of the bytes changes, and it is a whole one, the sum changes by as much. -/
theorem csumLoop_change :
    ∀ {w n : Nat}, 2 * j + 2 ≤ n → (∀ b, b < w + 2 * j ∨ w + 2 * j + 2 ≤ b → m' b = m b) →
      csumLoop m' w n + load16 m (w + 2 * j) = csumLoop m w n + load16 m' (w + 2 * j) := by
  induction j with
  | zero =>
    intro w n hn h
    obtain ⟨n, rfl⟩ : ∃ k, n = k + 2 := ⟨n - 2, by omega⟩
    rw [csumLoop, csumLoop, csumLoop_congr fun b hb _ => h b (by omega)]
    simp only [Nat.mul_zero, Nat.add_zero]
    omega
  | succ j ih =>
    intro w n hn h
    obtain ⟨n, rfl⟩ : ∃ k, n = k + 2 := ⟨n - 2, by omega⟩
    have hword : load16 m' w = load16 m w := load16_congr fun b _ _ => h b (by omega)
    have hstep := ih (w := w + 2) (n := n) (by omega) fun b hb => h b (by omega)
    rw [show w + 2 + 2 * j = w + 2 * (j + 1) by ring] at hstep
    rw [csumLoop, csumLoop]
    omega

theorem csumLoop_store16 {v : Nat} (hn : 2 * j + 2 ≤ n) (hv : v < 65536) :
    ((csumLoop (store16 m (w + 2 * j) v) w n : Nat) : ZMod 65535) =
      csumLoop m w n + v - load16 m (w + 2 * j) := by
  have h : csumLoop (store16 m (w + 2 * j) v) w n + load16 m (w + 2 * j) =
      csumLoop m w n + load16 (store16 m (w + 2 * j) v) (w + 2 * j) :=
    csumLoop_change hn fun b hb => store16_of_ne hb
  rw [load16_store16, Nat.mod_eq_of_lt hv] at h
  have h' := congrArg (Nat.cast (R := ZMod 65535)) h
  push_cast at h'
  linear_combination h'

/-! ## Valid checksums -/

/-- The words of the pseudo header: the addresses, the protocol and the length of the segment. -/
def pseudoWords (m : Bytes) (ip len : Nat) : List Nat :=
  [load16 m (ip + 12), load16 m (ip + 14), load16 m (ip + 16), load16 m (ip + 18),
    256 * ipProto m ip, swap16 len]

/-- The checksum verifies: the one's complement sum of the pseudo header, the `n` bytes of the
segment in this packet and the words `rest` in later fragments is all ones. -/
def TcpCsumValid (m : Bytes) (ip len n : Nat) (rest : List (Fin 65536)) : Prop :=
  sum 65535 (pseudoWords m ip len ++
    (segmentWords m (transportHeader m ip) n ++ rest.map Fin.val)) = 65535

instance (m : Bytes) (ip len n : Nat) (rest : List (Fin 65536)) :
    Decidable (TcpCsumValid m ip len n rest) := Nat.decEq _ _

/-- A partial checksum: the folded sum of the pseudo header. -/
def PartialCsumValid (m : Bytes) (ip len : Nat) : Prop :=
  load16 m (transportHeader m ip + 16) = sum 65535 (pseudoWords m ip len)

theorem pseudoWords_le : ∀ w ∈ pseudoWords m ip len, w ≤ 65535 := by
  have hword : ∀ a, load16 m a ≤ 65535 := fun a => Nat.le_of_lt_succ load16_lt
  have hproto : ipProto m ip < 256 := load8_lt
  have hlen : swap16 len ≤ 65535 := by
    unfold swap16
    omega
  intro w hw
  unfold pseudoWords at hw
  simp only [List.mem_cons, List.not_mem_nil, or_false] at hw
  rcases hw with rfl | rfl | rfl | rfl | rfl | rfl
  · exact hword _
  · exact hword _
  · exact hword _
  · exact hword _
  · omega
  · exact hlen

theorem pseudoWords_cast (m : Bytes) (ip len : Nat) :
    (((pseudoWords m ip len).sum : Nat) : ZMod 65535) =
      ipSaddr m ip + ipDaddr m ip + (256 * ipProto m ip + swap16 len : Nat) := by
  unfold ipSaddr ipDaddr
  rw [load32_cast, load32_cast]
  unfold pseudoWords
  simp only [List.sum_cons, List.sum_nil]
  push_cast
  ring

theorem pseudoWords_pos (len : Nat) (hproto : ipProto m ip ≠ 0) :
    (pseudoWords m ip len).sum ≠ 0 := by
  unfold pseudoWords
  simp only [List.sum_cons]
  omega

theorem datagramWords_le (m m' : Bytes) (ip len n : Nat) (rest : List (Fin 65536)) :
    ∀ w ∈ pseudoWords m ip len ++ (segmentWords m' (transportHeader m ip) n ++ rest.map Fin.val),
      w ≤ 65535 := by
  intro w hw
  rcases List.mem_append.mp hw with hw | hw
  · exact pseudoWords_le w hw
  · rcases List.mem_append.mp hw with hw | hw
    · exact segmentWords_le _ _ _ w hw
    · obtain ⟨x, -, rfl⟩ := List.mem_map.mp hw
      exact Nat.le_of_lt_succ x.isLt

theorem tcpCsumValid_iff {rest : List (Fin 65536)} (hproto : ipProto m ip ≠ 0) :
    TcpCsumValid m ip len n rest ↔
      (((pseudoWords m ip len).sum : Nat) : ZMod 65535) +
        (csumLoop m (transportHeader m ip) n : Nat) + ((rest.map Fin.val).sum : Nat) = 0 := by
  have hpos := pseudoWords_pos len hproto
  unfold TcpCsumValid
  rw [sum_eq_canon (by decide) (datagramWords_le _ _ _ _ _ _), canon_eq_all_ones (by decide),
    List.sum_append, List.sum_append, sum_segmentWords]
  push_cast
  rw [add_assoc]
  exact ⟨fun h => h.1, fun h => ⟨h, by omega⟩⟩

/-! ## The stages of translation -/

/-- Bytes that translation does not read from the addresses: everything outside them. -/
theorem natAddresses_spec (m : Bytes) (ip : Nat) (fe rfe : FlowEntry) :
    (∀ b, b < ip + 12 ∨ ip + 20 ≤ b → (natAddresses m ip fe rfe).1 b = m b) ∧
      (natAddresses m ip fe rfe).2 < 2 ^ 32 ∧
      (ipSaddr (natAddresses m ip fe rfe).1 ip : ZMod 65535) +
          ipDaddr (natAddresses m ip fe rfe).1 ip =
        ipSaddr m ip + ipDaddr m ip + (natAddresses m ip fe rfe).2 := by
  refine natAddresses_induct ⟨fun _ _ => rfl, by omega, by rw [Nat.cast_zero, add_zero]⟩ ?_
  rintro r j v hj hv ⟨hbytes, hinc, hsum⟩
  refine ⟨fun b hb => (store32_of_ne (by omega)).trans (hbytes b hb),
    vrIncrementalDiff_lt load32_lt hv hinc, ?_⟩
  rw [vrIncrementalDiff_cast load32_lt hv hinc]
  unfold ipSaddr ipDaddr at hsum ⊢
  obtain rfl | rfl := hj
  · rw [load32_store32, load32_store32_of_ne (by omega), Nat.mod_eq_of_lt hv]
    linear_combination hsum
  · rw [load32_store32, load32_store32_of_ne (by omega), Nat.mod_eq_of_lt hv]
    linear_combination hsum

theorem natPorts_spec (hn : 4 ≤ n) (hinc : inc < 2 ^ 32) (fe rfe : FlowEntry) :
    (∀ b, b < transportHeader m ip ∨ transportHeader m ip + 4 ≤ b →
        (natPorts m ip fe rfe inc).1 b = m b) ∧
      (natPorts m ip fe rfe inc).2 < 2 ^ 32 ∧
      (csumLoop (natPorts m ip fe rfe inc).1 (transportHeader m ip) n : ZMod 65535) + inc =
        (csumLoop m (transportHeader m ip) n : Nat) + (natPorts m ip fe rfe inc).2 := by
  refine natPorts_induct ⟨fun _ _ => rfl, hinc, rfl⟩ ?_
  rintro r j v hj hv ⟨hbytes, hlt, hsum⟩
  have hold : load16 r.1 (transportHeader m ip + 2 * j) < 2 ^ 32 :=
    Nat.lt_trans load16_lt (by decide)
  refine ⟨fun b hb => (store16_of_ne (by omega)).trans (hbytes b hb),
    vrIncrementalDiff_lt hold (by omega) hlt, ?_⟩
  rw [vrIncrementalDiff_cast hold (by omega) hlt, csumLoop_store16 (by omega) hv]
  linear_combination hsum

theorem addDiff_lt {a : Nat} (ha : a ≤ 65535) (hinc : inc < 2 ^ 32) :
    endAround (2 ^ 32 - 1) a inc < 2 ^ 32 := by
  have := endAround_le (M := 2 ^ 32 - 1) (a := a) (b := inc) (by omega) (by omega)
  omega

theorem updatedCsum_full (ipInc : Nat) (hcsum : csum ≤ 65535) (hinc : inc < 2 ^ 32) :
    updatedCsum false csum ipInc inc ≤ 65535 ∧
      ((updatedCsum false csum ipInc inc : Nat) : ZMod 65535) = csum - inc := by
  have hdvd : 65535 ∣ 2 ^ 32 - 1 := by decide
  have ha : 2 ^ 16 - 1 - csum ≤ 65535 := by omega
  have hlt := addDiff_lt ha hinc
  unfold updatedCsum
  simp only [Bool.false_eq_true, if_false]
  rw [addCarry_eq (by omega) hinc, complement_cast (fold16_le hlt), fold16_cast hlt,
    endAround_cast hdvd, complement_cast hcsum]
  exact ⟨by omega, by ring⟩

/-- A partial checksum that is not zero takes over the difference of the addresses. -/
theorem updatedCsum_partial {ipInc : Nat} (inc : Nat) (hcsum : csum ≤ 65535) (hne : csum ≠ 0)
    (hinc : ipInc < 2 ^ 32) : updatedCsum true csum ipInc inc ≤ 65535 ∧
      updatedCsum true csum ipInc inc ≠ 0 ∧
      ((updatedCsum true csum ipInc inc : Nat) : ZMod 65535) = csum + ipInc := by
  have hdvd : 65535 ∣ 2 ^ 32 - 1 := by decide
  have hlt := addDiff_lt hcsum hinc
  unfold updatedCsum
  simp only [if_true]
  rw [addCarry_eq (by omega) hinc]
  refine ⟨fold16_le hlt, fun hzero => ?_, ?_⟩
  · rw [fold16_eq hlt, canon_eq_zero, endAround_eq_zero] at hzero
    exact hne hzero.1
  · rw [fold16_cast hlt, endAround_cast hdvd]

/-! ## Translation of a packet with a transport checksum -/

/-- What the checksum stage needs to know of a packet: where its transport header is, that it has a
checksum in byte `c` of that, and that it is no later fragment. -/
structure CsumAt (m : Bytes) (ip t c : Nat) : Prop where
  header : transportHeader m ip = t
  csump : transportCsum m ip = some (t + c)
  valid : vrIpTransportHeaderValid m ip = true

theorem CsumAt.proto (h : CsumAt m ip t c) : ipProto m ip = protoTcp ∨ ipProto m ip = protoUdp := by
  have hcsump := h.csump
  unfold transportCsum at hcsump
  split at hcsump
  · exact Or.inl ‹_›
  · split at hcsump
    · exact Or.inr ‹_›
    · cases hcsump

theorem CsumAt.proto_ne (h : CsumAt m ip t c) : ipProto m ip ≠ 0 := by
  rcases h.proto with hproto | hproto
  · rw [hproto]
    decide
  · rw [hproto]
    decide

/-- Only the version, the length, the fragment offset and the protocol of the header matter. -/
theorem header_congr (hbytes : ∀ b, ip ≤ b → b < ip + 10 → m' b = m b) :
    transportHeader m' ip = transportHeader m ip ∧
      vrIpTransportHeaderValid m' ip = vrIpTransportHeaderValid m ip ∧
      ipProto m' ip = ipProto m ip := by
  have hfirst := load8_congr (hbytes ip le_rfl (by omega))
  have hfrag : load16 m' (ip + 6) = load16 m (ip + 6) :=
    load16_congr fun b _ _ => hbytes b (by omega) (by omega)
  refine ⟨?_, ?_, load8_congr (hbytes _ (by omega) (by omega))⟩
  · unfold transportHeader ipHl
    rw [hfirst]
  · unfold vrIpTransportHeaderValid ipVersion ipFragOff
    rw [hfirst, hfrag]

theorem CsumAt.of_agree (h : CsumAt m ip t c) (m' : Bytes)
    (hbytes : ∀ b, ip ≤ b → b < ip + 10 → m' b = m b) :
    CsumAt m' ip t c ∧ ipProto m' ip = ipProto m ip := by
  obtain ⟨hheader, hvalid, hproto⟩ := header_congr hbytes
  refine ⟨⟨hheader.trans h.header, ?_, hvalid.trans h.valid⟩, hproto⟩
  rw [← h.csump]
  unfold transportCsum
  rw [hproto, hheader]

theorem updateIpCsum_bytes (m : Bytes) (ipInc : Nat) : ∀ b, b < ip + 10 ∨ ip + 12 ≤ b →
    (if ipInc ≠ 0 then vrIpIncrementalCsum m ip ipInc else m) b = m b := by
  intro b hb
  split
  · exact store16_of_ne (by omega)
  · rfl

/-- On such a packet `vr_ip_update_csum` writes to the two checksums only. -/
theorem vrIpUpdateCsum_csumAt (h : CsumAt m ip t c) (ht : ip + 12 ≤ t) (csumPartial : Bool)
    (ipInc inc : Nat) : ∃ m', (∀ b, b < ip + 10 ∨ ip + 12 ≤ b → m' b = m b) ∧
      vrIpUpdateCsum m ip csumPartial ipInc inc =
        store16 m' (t + c) (updatedCsum csumPartial (load16 m (t + c)) ipInc inc) := by
  have hbytes := @updateIpCsum_bytes ip m ipInc
  refine ⟨if ipInc ≠ 0 then vrIpIncrementalCsum m ip ipInc else m, hbytes, ?_⟩
  unfold vrIpUpdateCsum
  dsimp only
  generalize (if ipInc ≠ 0 then vrIpIncrementalCsum m ip ipInc else m) = m' at hbytes ⊢
  have h' := (h.of_agree m' fun b _ hlt => hbytes b (by omega)).1
  have hload : load16 m' (t + c) = load16 m (t + c) :=
    load16_congr fun b _ _ => hbytes b (by omega)
  rw [h'.csump]
  dsimp only
  rw [if_pos h'.valid, hload]

section

variable {rest : List (Fin 65536)}

theorem pseudoWords_congr (hbytes : ∀ b, b = ip + 9 ∨ ip + 12 ≤ b ∧ b < ip + 20 → m' b = m b) :
    pseudoWords m' ip len = pseudoWords m ip len := by
  unfold pseudoWords ipProto load16 load8
  rw [hbytes (ip + 12) (by omega), hbytes (ip + 12 + 1) (by omega), hbytes (ip + 14) (by omega),
    hbytes (ip + 14 + 1) (by omega), hbytes (ip + 16) (by omega), hbytes (ip + 16 + 1) (by omega),
    hbytes (ip + 18) (by omega), hbytes (ip + 18 + 1) (by omega), hbytes (ip + 9) (by omega)]

variable (h : CsumAt m ip t (2 * j)) (ht : ip + 20 ≤ t) (hj : 2 ≤ j) (fe rfe : FlowEntry)
include h ht hj

/-- What translation makes of a packet with a transport checksum: the checksum is updated by the
differences that the pseudo header and the segment have taken over. -/
theorem natBytes_csumAt (len : Nat) (hn : 2 * j + 2 ≤ n) (csumPartial : Bool) :
    ∃ (m' : Bytes) (ipInc inc : Nat), natBytes m ip false csumPartial fe rfe = m' ∧
      ipInc < 2 ^ 32 ∧ inc < 2 ^ 32 ∧ CsumAt m' ip t (2 * j) ∧
      load16 m' (t + 2 * j) = updatedCsum csumPartial (load16 m (t + 2 * j)) ipInc inc % 65536 ∧
      (((pseudoWords m' ip len).sum : Nat) : ZMod 65535) = (pseudoWords m ip len).sum + ipInc ∧
      (csumLoop m' t n : ZMod 65535) + ipInc + load16 m (t + 2 * j) =
        csumLoop m t n + inc + load16 m' (t + 2 * j) := by
  have hicmp : natIcmpPayload m ip fe rfe = m := by
    unfold natIcmpPayload
    rw [if_neg]
    rintro ⟨hproto, -⟩
    rcases h.proto with hproto' | hproto' <;> exact absurd (hproto.symm.trans hproto') (by decide)
  obtain ⟨hbytes₁, hipInc, haddr⟩ := natAddresses_spec m ip fe rfe
  unfold natBytes
  dsimp only
  rw [hicmp]
  generalize natAddresses m ip fe rfe = a at hbytes₁ hipInc haddr ⊢
  obtain ⟨h₁, hproto₁⟩ := h.of_agree a.1 fun b _ hlt => hbytes₁ b (by omega)
  obtain ⟨hbytes₂, hinc, hports⟩ := natPorts_spec (n := n) (by omega) hipInc fe rfe
  rw [h₁.header] at hbytes₂ hports
  generalize natPorts a.1 ip fe rfe a.2 = p at hbytes₂ hinc hports ⊢
  have h₂ := (h₁.of_agree p.1 fun b _ hlt => hbytes₂ b (by omega)).1
  obtain ⟨m', hbytes₃, hupdate⟩ :=
    vrIpUpdateCsum_csumAt h₂ (by omega) csumPartial a.2 p.2
  have hcsum : load16 p.1 (t + 2 * j) = load16 m (t + 2 * j) :=
    load16_congr fun b _ _ => (hbytes₂ b (by omega)).trans (hbytes₁ b (by omega))
  rw [if_pos (by rfl), hupdate, hcsum]
  generalize hv : updatedCsum csumPartial (load16 m (t + 2 * j)) a.2 p.2 = v
  have hcsum' : load16 m' (t + 2 * j) = load16 m (t + 2 * j) :=
    (load16_congr fun b _ _ => hbytes₃ b (by omega)).trans hcsum
  refine ⟨_, a.2, p.2, rfl, hipInc, hinc, (h₂.of_agree _ fun b _ hlt =>
    (store16_of_ne (by omega)).trans (hbytes₃ b (by omega))).1, by rw [load16_store16, hv], ?_, ?_⟩
  · -- the pseudo header is the one after the address stage
    have hpseudo : pseudoWords (store16 m' (t + 2 * j) v) ip len = pseudoWords a.1 ip len :=
      pseudoWords_congr fun b hb => ((store16_of_ne (by omega)).trans (hbytes₃ b (by omega))).trans
        (hbytes₂ b (by omega))
    rw [hpseudo, pseudoWords_cast, pseudoWords_cast, hproto₁]
    linear_combination haddr
  · -- the segment is the one after the port stage, but for the checksum
    have hchange : csumLoop (store16 m' (t + 2 * j) v) t n + load16 m' (t + 2 * j) =
        csumLoop m' t n + load16 (store16 m' (t + 2 * j) v) (t + 2 * j) :=
      csumLoop_change hn fun b hb => store16_of_ne hb
    have hstore := congrArg (Nat.cast (R := ZMod 65535)) hchange
    push_cast at hstore
    rw [csumLoop_congr fun b hb _ => hbytes₁ b (by omega)] at hports
    have hkept : csumLoop m' t n = csumLoop p.1 t n :=
      csumLoop_congr fun b hb _ => hbytes₃ b (by omega)
    rw [hkept, hcsum'] at hstore
    linear_combination hstore + hports

theorem CsumAt.natBytes (csumPartial : Bool) :
    CsumAt (natBytes m ip false csumPartial fe rfe) ip t (2 * j) := by
  obtain ⟨m', ipInc, inc, rfl, -, -, h', -⟩ :=
    natBytes_csumAt h ht hj fe rfe 0 le_rfl csumPartial
  exact h'

theorem csumValid_natBytes (hn : 2 * j + 2 ≤ n) (hvalid : TcpCsumValid m ip len n rest) :
    TcpCsumValid (natBytes m ip false false fe rfe) ip len n rest := by
  obtain ⟨m', ipInc, inc, rfl, -, hinc, h', hnew, hpseudo, hsegment⟩ :=
    natBytes_csumAt h ht hj fe rfe len hn false
  obtain ⟨hle, hcast⟩ :=
    @updatedCsum_full (load16 m (t + 2 * j)) inc ipInc (Nat.le_of_lt_succ load16_lt) hinc
  rw [hnew, Nat.mod_eq_of_lt (by omega), hcast] at hsegment
  rw [tcpCsumValid_iff h.proto_ne, h.header] at hvalid
  rw [tcpCsumValid_iff h'.proto_ne, h'.header, hpseudo]
  linear_combination hvalid + hsegment

theorem partialCsum_natBytes (hvalid : load16 m (t + 2 * j) = sum 65535 (pseudoWords m ip len)) :
    load16 (natBytes m ip false true fe rfe) (t + 2 * j) =
      sum 65535 (pseudoWords (natBytes m ip false true fe rfe) ip len) := by
  obtain ⟨m', ipInc, inc, rfl, hipInc, -, h', hnew, hpseudo, -⟩ :=
    natBytes_csumAt h ht hj fe rfe len le_rfl true
  rw [sum_eq_canon (by decide) pseudoWords_le] at hvalid
  have hne : load16 m (t + 2 * j) ≠ 0 := by
    rw [hvalid]
    exact fun hzero => pseudoWords_pos len h.proto_ne ((canon_eq_zero _ _).mp hzero)
  obtain ⟨hle, hnew0, hcast⟩ :=
    updatedCsum_partial inc (Nat.le_of_lt_succ load16_lt) hne hipInc
  rw [hnew, Nat.mod_eq_of_lt (by omega), sum_eq_canon (by decide) pseudoWords_le]
  apply eq_canon (by decide) hle
  · rw [hcast, hvalid, canon_cast, hpseudo]
  · exact ⟨fun hzero => absurd hzero hnew0,
      fun hzero => absurd hzero (pseudoWords_pos len h'.proto_ne)⟩

end

/-! ## Translation of a TCP packet -/

/-- A TCP packet that is no later fragment, with its transport header. -/
structure IsTcp (m : Bytes) (ip t : Nat) : Prop where
  header : transportHeader m ip = t
  proto : ipProto m ip = protoTcp
  valid : vrIpTransportHeaderValid m ip = true

theorem IsTcp.csumAt (h : IsTcp m ip t) : CsumAt m ip t 16 := by
  refine ⟨h.header, ?_, h.valid⟩
  unfold transportCsum
  rw [if_pos h.proto, h.header]

/-- A TCP packet that is no later fragment and not a diagnostic packet is translated by a flow that
has a reverse flow, whatever its flags. If its TCP checksum was valid, it is valid afterwards; if it
was partial and the folded sum of the pseudo header, it is that again. -/
theorem tcpCsum_after_nat {s : FlowSys} {fe rfe : Nat} (hrflow : 0 ≤ (s.entry fe).feRflow)
    (hrfe : s.vrFlowGetEntry (s.entry fe).feRflow = some rfe)
    (lookup : Nat → Nat → Option PacketNexthop) (dvrf : Nat) (pkt : VrPacket)
    (hdiag : pkt.diag = false) (hhl : 5 ≤ ipHl pkt.vpHead pkt.vpNetworkH)
    (hproto : ipProto pkt.vpHead pkt.vpNetworkH = protoTcp)
    (hfirst : vrIpTransportHeaderValid pkt.vpHead pkt.vpNetworkH) {n : Nat} (hn : 20 ≤ n)
    (len : Nat) (rest : List (Fin 65536)) :
    ∃ pkt', vrInetFlowNat s lookup fe pkt dvrf = (.forward, some pkt') ∧
      (pkt.csumPartial = false → TcpCsumValid pkt.vpHead pkt.vpNetworkH len n rest →
        TcpCsumValid pkt'.vpHead pkt.vpNetworkH len n rest) ∧
      (pkt.csumPartial = true → PartialCsumValid pkt.vpHead pkt.vpNetworkH len →
        PartialCsumValid pkt'.vpHead pkt.vpNetworkH len) := by
  have htcp : IsTcp pkt.vpHead pkt.vpNetworkH (transportHeader pkt.vpHead pkt.vpNetworkH) :=
    ⟨rfl, hproto, hfirst⟩
  have hcsum := htcp.csumAt
  have ht : pkt.vpNetworkH + 20 ≤ transportHeader pkt.vpHead pkt.vpNetworkH := by
    unfold transportHeader
    omega
  unfold vrInetFlowNat
  rw [if_neg (by omega), hrfe]
  refine ⟨_, rfl, fun hpartial hvalid => ?_, fun hpartial hvalid => ?_⟩
  · rw [hdiag, hpartial]
    exact csumValid_natBytes (j := 8) hcsum ht (by decide) _ _ (by omega) hvalid
  · rw [hdiag, hpartial]
    unfold PartialCsumValid
    rw [(hcsum.natBytes (j := 8) ht (by decide) _ _ true).header]
    exact partialCsum_natBytes (j := 8) hcsum ht (by decide) _ _ hvalid

theorem natRun_reverse : ∃ s : FlowSys, 0 ≤ (s.entry 0).feRflow ∧
    s.vrFlowGetEntry (s.entry 0).feRflow = some 4 ∧ (s.entry 0).feFlags.dnat := by
  exact ⟨smallEnd natRun rfl, by decide, rfl, rfl⟩

theorem tcpCsum_after_nat_dnat : ∃ (s : FlowSys) (pkt' : VrPacket),
    vrInetFlowNat s noLookup 0 (samplePacket false) 0 = (.forward, some pkt') ∧
      TcpCsumValid pkt'.vpHead 0 20 20 [] := by
  obtain ⟨s, hrflow, hrfe, -⟩ := natRun_reverse
  obtain ⟨pkt', hnat, hfull, -⟩ := tcpCsum_after_nat hrflow hrfe noLookup 0
    (samplePacket false) rfl (by decide) (by decide) (by decide) le_rfl 20 []
  exact ⟨s, pkt', hnat, hfull rfl (by decide)⟩

/-- The TCP checksum of a diagnostic packet is left alone and no longer valid. -/
theorem tcpCsum_after_nat_of_diag : ∃ (s : FlowSys) (pkt' : VrPacket),
    TcpCsumValid (samplePacket true).vpHead 0 20 20 [] ∧
      vrInetFlowNat s noLookup 0 (samplePacket true) 0 = (.forward, some pkt') ∧
      ¬ TcpCsumValid pkt'.vpHead 0 20 20 [] := by
  exact ⟨smallEnd natRun rfl, _, by decide, rfl, by decide +kernel⟩

end VRouter
