import VRouter.Inet.FlowNat
import VRouter.Flow.Run

/-!
# VRouter — the IPv4 header checksum

Each rewrite of a header is a change of its word sum modulo `2 ^ 16 - 1`, and the incremental
checksum takes the change back. So the sum of a header stays what it was (`HeaderKept`), whatever
rewrites are made in whatever order.
-/

namespace VRouter

open Memory OnesComplement

/-! ## The arithmetic of differences -/

variable {pkt pkt' : VrPacket} {diff a old new n ip d : Nat} {m m' : Bytes}

theorem addCarry_eq {b : Nat} (ha : a < 2 ^ 32) (hb : b < 2 ^ 32) :
    (if (a + b) % 2 ^ 32 < b then ((a + b) % 2 ^ 32 + 1) % 2 ^ 32 else (a + b) % 2 ^ 32) =
      endAround (2 ^ 32 - 1) a b := by
  unfold endAround
  split
  · split <;> omega
  · split <;> omega

theorem vrIncrementalDiff_eq (hold : old < 2 ^ 32) (hnew : new < 2 ^ 32) (hdiff : diff < 2 ^ 32) :
    vrIncrementalDiff old new diff =
      endAround (2 ^ 32 - 1) diff (endAround (2 ^ 32 - 1) (2 ^ 32 - 1 - old) new) := by
  have htmp := @addCarry_eq (2 ^ 32 - 1 - old) new (by omega) hnew
  have hle : endAround (2 ^ 32 - 1) (2 ^ 32 - 1 - old) new ≤ 2 ^ 32 - 1 :=
    endAround_le (by omega) (by omega)
  unfold vrIncrementalDiff
  dsimp only
  rw [htmp]
  exact addCarry_eq hdiff (by omega)

theorem vrIncrementalDiff_lt (hold : old < 2 ^ 32) (hnew : new < 2 ^ 32) (hdiff : diff < 2 ^ 32) :
    vrIncrementalDiff old new diff < 2 ^ 32 := by
  rw [vrIncrementalDiff_eq hold hnew hdiff]
  have hle : endAround (2 ^ 32 - 1) (2 ^ 32 - 1 - old) new ≤ 2 ^ 32 - 1 :=
    endAround_le (by omega) (by omega)
  have := endAround_le (a := diff) (by omega) hle
  omega

theorem vrIncrementalDiff_cast (hold : old < 2 ^ 32) (hnew : new < 2 ^ 32) (hdiff : diff < 2 ^ 32) :
    ((vrIncrementalDiff old new diff : Nat) : ZMod 65535) = diff + new - old := by
  have hdvd : 65535 ∣ 2 ^ 32 - 1 := by decide
  rw [vrIncrementalDiff_eq hold hnew hdiff, endAround_cast hdvd, endAround_cast hdvd,
    Nat.cast_sub (by omega), (ZMod.natCast_eq_zero_iff (2 ^ 32 - 1) 65535).mpr hdvd]
  ring

theorem fold16_eq (hn : n < 2 ^ 32) : fold (2 ^ 16) n = canon 65535 n :=
  fold_eq_canon (B := 2 ^ 16) (by decide) (by omega)

theorem fold16_le (hn : n < 2 ^ 32) : fold (2 ^ 16) n ≤ 65535 := by
  rw [fold16_eq hn]
  exact canon_le (by decide) n

theorem fold16_cast (hn : n < 2 ^ 32) : ((fold (2 ^ 16) n : Nat) : ZMod 65535) = n := by
  rw [fold16_eq hn, canon_cast]

theorem complement_cast (hn : n ≤ 65535) : ((2 ^ 16 - 1 - n : Nat) : ZMod 65535) = -n := by
  have hzero : ((2 ^ 16 - 1 : Nat) : ZMod 65535) = 0 := ZMod.natCast_self 65535
  rw [Nat.cast_sub (show n ≤ 2 ^ 16 - 1 from hn), hzero, zero_sub]

theorem load32_cast (m : Bytes) (a : Nat) :
    ((load32 m a : Nat) : ZMod 65535) = load16 m a + load16 m (a + 2) := by
  have hbase : ((65536 : Nat) : ZMod 65535) = 1 := base_cast (by decide)
  unfold load32
  rw [Nat.cast_add, Nat.cast_mul, hbase, one_mul]

theorem halves32_cast (v : Nat) : ((v % 65536 + v / 65536 : Nat) : ZMod 65535) = v := by
  rw [Nat.add_comm]
  exact halves_cast (by decide) v

/-! ## Header sums -/

/-- The sum of the header's words. -/
def headerSum (m : Bytes) (ip : Nat) : Nat := wordSum m ip (2 * ipHl m ip)

/-- The words of the header. -/
def headerWords (m : Bytes) (ip : Nat) : List Nat :=
  (List.range (2 * ipHl m ip)).map fun i => load16 m (ip + 2 * i)

/-- The checksum of a header verifies: the one's complement sum of its words is all ones. -/
def IpCsumValid (m : Bytes) (ip : Nat) : Prop := sum 65535 (headerWords m ip) = 65535

instance (m : Bytes) (ip : Nat) : Decidable (IpCsumValid m ip) := Nat.decEq _ _

/-- `m'` has the header length and, up to a multiple of `2 ^ 16 - 1`, the header sum of `m`. -/
structure HeaderKept (m m' : Bytes) (ip : Nat) : Prop where
  hl : ipHl m' ip = ipHl m ip
  sum : (headerSum m' ip : ZMod 65535) = headerSum m ip

theorem HeaderKept.refl (m : Bytes) (ip : Nat) : HeaderKept m m ip := ⟨rfl, rfl⟩

theorem sum_headerWords (m : Bytes) (ip : Nat) :
    OnesComplement.sum 65535 (headerWords m ip) = canon 65535 (headerSum m ip) := by
  rw [sum_eq_canon (by decide)]
  · rfl
  · intro w hw
    obtain ⟨i, -, rfl⟩ := List.mem_map.mp hw
    have := load16_lt (m := m) (a := ip + 2 * i)
    omega

theorem headerSum_pos (hl : 5 ≤ ipHl m ip) : headerSum m ip ≠ 0 := by
  intro hzero
  unfold headerSum at hzero
  have hfirst := Finset.sum_eq_zero_iff.mp hzero 0 (Finset.mem_range.mpr (by omega))
  rw [Nat.add_zero] at hfirst
  unfold load16 at hfirst
  unfold ipHl at hl
  omega

theorem ipCsumValid_iff (hl : 5 ≤ ipHl m ip) :
    IpCsumValid m ip ↔ (headerSum m ip : ZMod 65535) = 0 := by
  unfold IpCsumValid
  rw [sum_headerWords, canon_eq_all_ones (by decide)]
  exact ⟨fun h => h.1, fun h => ⟨h, headerSum_pos hl⟩⟩

/-! ### What writes to a header do to its sum -/

section

variable {v : Nat}

theorem ipHl_congr (h : m' ip = m ip) : ipHl m' ip = ipHl m ip := by
  unfold ipHl
  rw [load8_congr h]

theorem ipHl_store8 (ha : ip < a) : ipHl (store8 m a v) ip = ipHl m ip :=
  ipHl_congr (store8_of_ne (by omega))

theorem ipHl_store16 (ha : ip < a) : ipHl (store16 m a v) ip = ipHl m ip :=
  ipHl_congr (store16_of_ne (by omega))

theorem ipHl_store32 (ha : ip < a) : ipHl (store32 m a v) ip = ipHl m ip :=
  ipHl_congr (store32_of_ne (by omega))

theorem headerSum_change {x y : Nat} (hhl : ipHl m' ip = ipHl m ip)
    (h : wordSum m' ip (2 * ipHl m ip) + x = wordSum m ip (2 * ipHl m ip) + y) :
    (headerSum m' ip : ZMod 65535) = headerSum m ip + y - x := by
  have h' := congrArg (Nat.cast (R := ZMod 65535)) h
  push_cast at h'
  unfold headerSum
  rw [hhl]
  linear_combination h'

variable (hl : 5 ≤ ipHl m ip)

include hl

theorem headerSum_ttl (hv : v < 256) : (headerSum (store8 m (ip + 8) v) ip : ZMod 65535) =
    headerSum m ip + v - ipTtl m ip :=
  headerSum_change (ipHl_store8 (by omega)) (wordSum_store8_low (j := 4) (by omega) hv)

theorem headerSum_tos (hv : v < 256) : (headerSum (store8 m (ip + 1) v) ip : ZMod 65535) =
    headerSum m ip + (v * 2 ^ 8 : Nat) - (ipTos m ip * 2 ^ 8 : Nat) := by
  rw [Nat.mul_comm v, Nat.mul_comm (ipTos m ip)]
  exact headerSum_change (ipHl_store8 (by omega)) (wordSum_store8_high (j := 0) (by omega) hv)

theorem headerSum_csum (hv : v < 2 ^ 16) : (headerSum (store16 m (ip + 10) v) ip : ZMod 65535) =
    headerSum m ip + v - ipCsum m ip :=
  headerSum_change (ipHl_store16 (by omega)) (wordSum_store16 (j := 5) (by omega) hv)

theorem headerSum_address {j : Nat} (hj : j = 6 ∨ j = 8) (hv : v < 2 ^ 32) :
    (headerSum (store32 m (ip + 2 * j) v) ip : ZMod 65535) =
      headerSum m ip + v - load32 m (ip + 2 * j) := by
  rw [headerSum_change (ipHl_store32 (by omega)) (wordSum_store32 (by omega) hv), halves32_cast,
    load32_cast, Nat.cast_add (load16 _ _)]

theorem headerSum_incremental (hd : d < 2 ^ 32) :
    (headerSum (vrIpIncrementalCsum m ip d) ip : ZMod 65535) = headerSum m ip - d := by
  have hcsum : ipCsum m ip < 2 ^ 16 := load16_lt
  have hfold := fold16_le hd
  have hsum : 2 ^ 16 - 1 - ipCsum m ip + fold (2 ^ 16) d < 2 ^ 32 := by omega
  have hle := fold16_le hsum
  unfold vrIpIncrementalCsum
  rw [headerSum_csum hl (by omega), complement_cast hle, fold16_cast hsum, Nat.cast_add,
    complement_cast (by omega), fold16_cast hd]
  ring

omit hl in
theorem ipHl_incremental : ipHl (vrIpIncrementalCsum m ip d) ip = ipHl m ip := by
  exact ipHl_store16 (by omega)

theorem HeaderKept.of_agree (h : ∀ b, ip ≤ b → b < transportHeader m ip → m' b = m b) :
    HeaderKept m m' ip := by
  unfold transportHeader at h
  have hhl : ipHl m' ip = ipHl m ip := ipHl_congr (h ip le_rfl (by omega))
  refine ⟨hhl, ?_⟩
  unfold headerSum
  rw [hhl, wordSum_of_agree fun b hb hlt => h b hb (by omega)]

end

/-! ## The rewrites -/

section

variable (hl : 5 ≤ ipHl m ip)

include hl

theorem vrInetSetTos_kept {tos : Nat} (htos : tos < 256) :
    HeaderKept m (vrInetSetTos m ip tos) ip := by
  have hold : ipTos m ip < 256 := load8_lt
  unfold vrInetSetTos
  split
  · exact HeaderKept.refl m ip
  have hhl : ipHl (store8 m (ip + 1) tos) ip = ipHl m ip := ipHl_store8 (by omega)
  refine ⟨ipHl_incremental.trans hhl, ?_⟩
  rw [headerSum_incremental (hhl.symm ▸ hl)
      (vrIncrementalDiff_lt (by omega) (by omega) (by omega)),
    headerSum_tos hl htos, vrIncrementalDiff_cast (by omega) (by omega) (by omega)]
  ring

/-- Replacing the TTL by `v` and taking the difference back. -/
theorem setTtl_kept {v : Nat} (hv : v < 256) (hd : d < 2 ^ 32)
    (hcast : (d : ZMod 65535) = v - ipTtl m ip) :
    HeaderKept m (vrIpIncrementalCsum (store8 m (ip + 8) v) ip d) ip := by
  have hhl : ipHl (store8 m (ip + 8) v) ip = ipHl m ip := ipHl_store8 (by omega)
  refine ⟨ipHl_incremental.trans hhl, ?_⟩
  rw [headerSum_incremental (hhl.symm ▸ hl) hd, headerSum_ttl hl hv, hcast]
  ring

theorem vrIpDecrementTtl_kept (httl : 1 ≤ ipTtl m ip) :
    HeaderKept m (vrIpDecrementTtl m ip) ip := by
  have hold : ipTtl m ip < 256 := load8_lt
  have hnew : (ipTtl m ip + 2 ^ 32 - 1) % 2 ^ 32 = ipTtl m ip - 1 := by omega
  -- the byte is stored modulo 256
  have hbyte : store8 m (ip + 8) (ipTtl m ip + 2 ^ 8 - 1) = store8 m (ip + 8) (ipTtl m ip - 1) :=
    store8_congr (by omega)
  unfold vrIpDecrementTtl
  rw [hnew, hbyte]
  refine setTtl_kept hl (by omega) (vrIncrementalDiff_lt (by omega) (by omega) (by omega)) ?_
  rw [vrIncrementalDiff_cast (by omega) (by omega) (by omega), Nat.cast_zero, zero_add]

theorem overwriteTtl_kept {feTtl : Nat} (hfe : feTtl < 256) :
    HeaderKept m (overwriteTtl m ip feTtl) ip := by
  have hold : ipTtl m ip < 256 := load8_lt
  have hcast : ((vrIncrementalDiff (ipTtl m ip) feTtl 0 : Nat) : ZMod 65535) =
      feTtl - ipTtl m ip := by
    rw [vrIncrementalDiff_cast (by omega) (by omega) (by omega), Nat.cast_zero, zero_add]
  unfold overwriteTtl
  split
  · dsimp only
    split
    next => exact setTtl_kept hl hfe (vrIncrementalDiff_lt (by omega) (by omega) (by omega)) hcast
    next hzero =>
      -- a difference of zero needs no correction
      rw [not_not.mp hzero] at hcast
      refine ⟨ipHl_store8 (by omega), ?_⟩
      rw [headerSum_ttl hl hfe]
      linear_combination -hcast
  · exact HeaderKept.refl m ip

/-! ### Translation -/

theorem HeaderKept.of_agreeBelow (h : AgreeBelow (transportHeader m ip) m m') :
    HeaderKept m m' ip :=
  .of_agree hl fun b _ hb => h b hb

omit hl in
/-- The packet inside an ICMP error lies behind the ICMP header. -/
theorem natIcmpPayload_agree (fe rfe : FlowEntry) :
    AgreeBelow (transportHeader m ip) m (natIcmpPayload m ip fe rfe) := by
  unfold natIcmpPayload
  dsimp only
  split
  · generalize transportHeader m ip = n
    have hport : ∀ m', n ≤ transportHeader m' (n + 8) := by
      intro m'
      unfold transportHeader
      omega
    -- the writes from the last to the first, each behind `n`
    refine .trans ?_ (.ite (.store16 (hport _) _))
    refine .trans ?_ (.ite (.store16 (Nat.le_add_right_of_le (hport _)) _))
    refine .trans ?_ (.ite (.trans (.store16 (a := n + 8 + 10) (by omega) 0)
      (.store16 (by omega) _)))
    refine .trans ?_ (.ite (.store32 (by omega) _))
    exact .ite (.store32 (by omega) _)
  · exact AgreeBelow.refl _ m

omit hl in
theorem flow4Sip_lt (key : List LongestMatch.Octet) : flow4Sip key < 2 ^ 32 := load32_lt

omit hl in
theorem flow4Dip_lt (key : List LongestMatch.Octet) : flow4Dip key < 2 ^ 32 := load32_lt

omit hl in
theorem flowSport_lt (key : List LongestMatch.Octet) : flowSport key < 65536 := by
  unfold flowSport
  omega

omit hl in
theorem flowDport_lt (key : List LongestMatch.Octet) : flowDport key < 65536 := by
  unfold flowDport
  omega

omit hl in
/-- What holds at the start and survives the rewrite of one address holds after both. -/
@[elab_as_elim]
theorem natAddresses_induct {fe rfe : FlowEntry} {P : Bytes × Nat → Prop} (h0 : P (m, 0))
    (hstep : ∀ r j v, j = 6 ∨ j = 8 → v < 2 ^ 32 → P r →
      P (store32 r.1 (ip + 2 * j) v, vrIncrementalDiff (load32 r.1 (ip + 2 * j)) v r.2)) :
    P (natAddresses m ip fe rfe) := by
  have hs := flow4Dip_lt rfe.feKey
  have hd := flow4Sip_lt rfe.feKey
  unfold natAddresses
  dsimp only
  split
  · refine hstep _ 8 _ (.inr rfl) hd ?_
    split
    · exact hstep _ 6 _ (.inl rfl) hs h0
    · exact h0
  · split
    · exact hstep _ 6 _ (.inl rfl) hs h0
    · exact h0

omit hl in
/-- The same of the ports. -/
@[elab_as_elim]
theorem natPorts_induct {fe rfe : FlowEntry} {inc : Nat} {P : Bytes × Nat → Prop} (h0 : P (m, inc))
    (hstep : ∀ r j v, j < 2 → v < 65536 → P r → P (store16 r.1 (transportHeader m ip + 2 * j) v,
      vrIncrementalDiff (load16 r.1 (transportHeader m ip + 2 * j)) v r.2)) :
    P (natPorts m ip fe rfe inc) := by
  have hs := flowDport_lt rfe.feKey
  have hd := flowSport_lt rfe.feKey
  unfold natPorts
  dsimp only
  split
  · split
    · refine hstep _ 1 _ (by decide) hd ?_
      split
      · exact hstep _ 0 _ (by decide) hs h0
      · exact h0
    · split
      · exact hstep _ 0 _ (by decide) hs h0
      · exact h0
  · exact h0

omit hl in
theorem natPorts_agree (fe rfe : FlowEntry) (inc : Nat) :
    AgreeBelow (transportHeader m ip) m (natPorts m ip fe rfe inc).1 := by
  refine natPorts_induct (.refl _ m) ?_
  intro r j v _ _ h
  exact h.trans (.store16 (by omega) _)

theorem natAddresses_sum (fe rfe : FlowEntry) :
    ipHl (natAddresses m ip fe rfe).1 ip = ipHl m ip ∧ (natAddresses m ip fe rfe).2 < 2 ^ 32 ∧
      (headerSum (natAddresses m ip fe rfe).1 ip : ZMod 65535) =
        headerSum m ip + (natAddresses m ip fe rfe).2 := by
  refine natAddresses_induct ⟨rfl, by omega, by rw [Nat.cast_zero, add_zero]⟩ ?_
  rintro r j v hj hv ⟨hhl, hinc, hsum⟩
  refine ⟨(ipHl_store32 (by omega)).trans hhl, vrIncrementalDiff_lt load32_lt hv hinc, ?_⟩
  rw [headerSum_address (hhl.symm ▸ hl) (by omega) hv, hsum,
    vrIncrementalDiff_cast load32_lt hv hinc]
  ring

omit hl in
theorem transportHeader_le_transportCsum {csump : Nat} (h : transportCsum m ip = some csump) :
    transportHeader m ip ≤ csump := by
  unfold transportCsum at h
  split at h
  · cases h
    omega
  · split at h
    · cases h
      omega
    · cases h

theorem vrIpUpdateCsum_sum (csumPartial : Bool) {ipInc : Nat} (inc : Nat) (hinc : ipInc < 2 ^ 32) :
    ipHl (vrIpUpdateCsum m ip csumPartial ipInc inc) ip = ipHl m ip ∧
      (headerSum (vrIpUpdateCsum m ip csumPartial ipInc inc) ip : ZMod 65535) =
        headerSum m ip - ipInc := by
  unfold vrIpUpdateCsum
  dsimp only
  generalize hm : (if ipInc ≠ 0 then vrIpIncrementalCsum m ip ipInc else m) = m₁
  have hhl : ipHl m₁ ip = ipHl m ip := by
    subst hm
    split
    · exact ipHl_incremental
    · rfl
  have hsum : (headerSum m₁ ip : ZMod 65535) = headerSum m ip - ipInc := by
    subst hm
    split
    next => exact headerSum_incremental hl hinc
    next hzero => rw [not_not.mp hzero, Nat.cast_zero, sub_zero]
  cases hcsum : transportCsum m₁ ip with
  | none => exact ⟨hhl, hsum⟩
  | some csump =>
    have hbelow := transportHeader_le_transportCsum hcsum
    dsimp only
    split
    · have hkept := HeaderKept.of_agreeBelow (hhl.symm ▸ hl)
        (.store16 hbelow (updatedCsum csumPartial (load16 m₁ csump) ipInc inc))
      exact ⟨hkept.hl.trans hhl, hkept.sum.trans hsum⟩
    · exact ⟨hhl, hsum⟩

theorem natBytes_kept (csumPartial : Bool) (fe rfe : FlowEntry) :
    HeaderKept m (natBytes m ip false csumPartial fe rfe) ip := by
  have hicmp := HeaderKept.of_agreeBelow hl (natIcmpPayload_agree fe rfe)
  unfold natBytes
  dsimp only
  generalize natIcmpPayload m ip fe rfe = m₁ at hicmp ⊢
  obtain ⟨hhl₂, hinc, hsum₂⟩ := natAddresses_sum (hicmp.hl.symm ▸ hl) fe rfe
  generalize natAddresses m₁ ip fe rfe = a at hhl₂ hinc hsum₂ ⊢
  have hl₂ : 5 ≤ ipHl a.1 ip := by rw [hhl₂, hicmp.hl]; exact hl
  have hports := HeaderKept.of_agreeBelow hl₂ (natPorts_agree fe rfe a.2)
  generalize natPorts a.1 ip fe rfe a.2 = p at hports ⊢
  obtain ⟨hhl₄, hsum₄⟩ := vrIpUpdateCsum_sum (hports.hl.symm ▸ hl₂) csumPartial p.2 hinc
  refine ⟨((hhl₄.trans hports.hl).trans hhl₂).trans hicmp.hl, ?_⟩
  rw [if_pos (by rfl), hsum₄, hports.sum, hsum₂, hicmp.sum]
  ring

end

/-! ## Any rewrites in any order -/

/-- A rewrite of a packet's header by the datapath. -/
inductive HeaderRewrite where
  | decrementTtl
  | setTos (tos : Fin 256)
  /-- `vr_inet_flow_nat` on a flow entry of the flow table as it is then. -/
  | flowNat (flows : FlowSys) (lookup : Nat → Nat → Option PacketNexthop) (fe fmdDvrf : Nat)
  | replaceTtl (feTtl : Fin 256)

/-- One rewrite; `none` if translation drops the packet. -/
def HeaderRewrite.apply (pkt : VrPacket) : HeaderRewrite → Option VrPacket
  | .decrementTtl => some { pkt with vpHead := vrIpDecrementTtl pkt.vpHead pkt.vpNetworkH }
  | .setTos tos => some { pkt with vpHead := vrInetSetTos pkt.vpHead pkt.vpNetworkH tos }
  | .flowNat flows lookup fe fmdDvrf => (vrInetFlowNat flows lookup fe pkt fmdDvrf).2
  | .replaceTtl feTtl => some { pkt with vpHead := overwriteTtl pkt.vpHead pkt.vpNetworkH feTtl }

/-- A TTL is at least 1 when it is decremented. -/
def HeaderRewrite.Admissible (pkt : VrPacket) : HeaderRewrite → Prop
  | .decrementTtl => 1 ≤ ipTtl pkt.vpHead pkt.vpNetworkH
  | _ => True

/-- What the rewrites keep. -/
structure VrPacket.HeaderValid (pkt : VrPacket) : Prop where
  diag : pkt.diag = false
  hl : 5 ≤ ipHl pkt.vpHead pkt.vpNetworkH
  csum : IpCsumValid pkt.vpHead pkt.vpNetworkH

theorem VrPacket.HeaderValid.of_kept (h : pkt.HeaderValid) (hdiag : pkt'.diag = pkt.diag)
    (hnet : pkt'.vpNetworkH = pkt.vpNetworkH)
    (hkept : HeaderKept pkt.vpHead pkt'.vpHead pkt.vpNetworkH) : pkt'.HeaderValid := by
  have hl : 5 ≤ ipHl pkt'.vpHead pkt.vpNetworkH := by
    rw [hkept.hl]
    exact h.hl
  refine ⟨hdiag.trans h.diag, hnet ▸ hl, ?_⟩
  rw [hnet, ipCsumValid_iff hl, hkept.sum]
  exact (ipCsumValid_iff h.hl).mp h.csum

theorem vrInetFlowNat_kept {s : FlowSys} {lookup : Nat → Nat → Option PacketNexthop} {fe dvrf : Nat}
    (hpkt : pkt.HeaderValid) (h : (vrInetFlowNat s lookup fe pkt dvrf).2 = some pkt') :
    pkt'.HeaderValid := by
  unfold vrInetFlowNat at h
  dsimp only at h
  split at h
  · cases h
  split at h
  · cases h
  · cases h
    refine VrPacket.HeaderValid.of_kept hpkt rfl rfl ?_
    rw [hpkt.diag]
    exact natBytes_kept hpkt.hl _ _ _

theorem VrPacket.HeaderValid.apply {r : HeaderRewrite} (hpkt : pkt.HeaderValid)
    (hr : r.Admissible pkt) (h : r.apply pkt = some pkt') : pkt'.HeaderValid := by
  cases r with
  | decrementTtl =>
    cases h
    exact hpkt.of_kept rfl rfl (vrIpDecrementTtl_kept hpkt.hl hr)
  | setTos tos =>
    cases h
    exact hpkt.of_kept rfl rfl (vrInetSetTos_kept hpkt.hl tos.isLt)
  | flowNat flows lookup fe fmdDvrf => exact vrInetFlowNat_kept hpkt h
  | replaceTtl feTtl =>
    cases h
    exact hpkt.of_kept rfl rfl (overwriteTtl_kept hpkt.hl feTtl.isLt)

/-! ### The checksum from scratch -/

theorem csumLoop_even (m : Bytes) : ∀ (k w : Nat), csumLoop m w (2 * k) = wordSum m w k := by
  intro k
  induction k with
  | zero =>
    intro w
    rfl
  | succ k ih =>
    intro w
    rw [show 2 * (k + 1) = 2 * k + 2 by ring, wordSum_succ, csumLoop, ih]

theorem vrIpCsum_cast (hl : 5 ≤ ipHl m ip) : (vrIpCsum m ip).1 ≤ 65535 ∧
      ((vrIpCsum m ip).1 : ZMod 65535) = ipCsum m ip - headerSum m ip := by
  have hhl : ipHl (store16 m (ip + 10) 0) ip = ipHl m ip := ipHl_store16 (by omega)
  have hsum := headerSum_csum hl (v := 0) (by decide)
  have hlt : headerSum (store16 m (ip + 10) 0) ip < 2 ^ 32 := by
    have hle : headerSum (store16 m (ip + 10) 0) ip ≤ 2 * ipHl m ip * 65535 := by
      unfold headerSum
      rw [hhl]
      have := Finset.sum_le_card_nsmul (Finset.range (2 * ipHl m ip))
        (fun i => load16 (store16 m (ip + 10) 0) (ip + 2 * i)) 65535
        fun i _ => Nat.le_of_lt_succ load16_lt
      rwa [Finset.card_range, smul_eq_mul] at this
    have hmax : ipHl m ip < 16 := Nat.mod_lt _ (by decide)
    omega
  have hloop : csumLoop (store16 m (ip + 10) 0) ip (ipHl (store16 m (ip + 10) 0) ip * 4) =
      headerSum (store16 m (ip + 10) 0) ip := by
    unfold headerSum
    rw [show ipHl (store16 m (ip + 10) 0) ip * 4 =
      2 * (2 * ipHl (store16 m (ip + 10) 0) ip) by ring, csumLoop_even]
  unfold vrIpCsum
  dsimp only
  rw [hloop]
  generalize headerSum (store16 m (ip + 10) 0) ip = n at hsum hlt ⊢
  -- adding the carry and cutting off is what `fold` does
  have hfold : (n / 2 ^ 16 + n % 2 ^ 16 + (n / 2 ^ 16 + n % 2 ^ 16) / 2 ^ 16) % 2 ^ 16 =
      fold (2 ^ 16) n := by
    have hs : n / 2 ^ 16 + n % 2 ^ 16 < 2 ^ 17 - 1 := by omega
    unfold fold
    dsimp only
    split <;> omega
  rw [hfold, complement_cast (fold16_le hlt), fold16_cast hlt, hsum]
  exact ⟨by omega, by push_cast; ring⟩

/-- Equal up to the two representations of zero. -/
def EqUpToZeros (a b : Nat) : Prop := a = b ∨ a = 0 ∧ b = 65535 ∨ a = 65535 ∧ b = 0

theorem VrPacket.HeaderValid.csum_eq (h : pkt.HeaderValid) :
    EqUpToZeros (ipCsum pkt.vpHead pkt.vpNetworkH) (vrIpCsum pkt.vpHead pkt.vpNetworkH).1 := by
  obtain ⟨hle, hcast⟩ := vrIpCsum_cast h.hl
  apply eq_or_zeros (Nat.le_of_lt_succ load16_lt) hle
  rw [hcast, (ipCsumValid_iff h.hl).mp h.csum, sub_zero]
  rfl

/-- A header whose checksum verifies is rewritten any number of times, by TTL decrements, DSCP
rewrites, translation and TTL overwrites in any order, as a packet that is not a diagnostic one.
Then its checksum verifies and is the one that would be computed from scratch. -/
theorem ipCsum_after_rewrites {pkt pkt' : VrPacket} {rs : List HeaderRewrite}
    (hdiag : pkt.diag = false) (hhl : 5 ≤ ipHl pkt.vpHead pkt.vpNetworkH)
    (hvalid : IpCsumValid pkt.vpHead pkt.vpNetworkH)
    (hmeet : StepsMeet HeaderRewrite.apply HeaderRewrite.Admissible pkt rs)
    (hrun : runSteps HeaderRewrite.apply pkt rs = some pkt') :
    IpCsumValid pkt'.vpHead pkt'.vpNetworkH ∧
      EqUpToZeros (ipCsum pkt'.vpHead pkt'.vpNetworkH)
        (vrIpCsum pkt'.vpHead pkt'.vpNetworkH).1 := by
  have hpkt' : pkt'.HeaderValid :=
    runSteps_invariant_of_meet (fun _ _ _ hpkt hr happly => hpkt.apply hr happly)
      ⟨hdiag, hhl, hvalid⟩ hmeet hrun
  exact ⟨hpkt'.csum, hpkt'.csum_eq⟩

/-! ### A packet from 10.0.0.1 to 10.0.0.2 -/

/-- An IPv4 header without options and a TCP header, at the start of the buffer. -/
def samplePacket (diag : Bool) : VrPacket where
  vpHead := LongestMatch.octet
    [0x45, 0, 0, 40, 0, 0, 0, 0, 64, 6, 0x66, 0xCE, 10, 0, 0, 1, 10, 0, 0, 2,
      0, 80, 0, 90, 0, 0, 0, 0, 0, 0, 0, 0, 0x50, 0, 0, 0, 0x9B, 0x38, 0, 0]
  vpData := 0
  vpTail := 40
  vpLen := 40
  vpEnd := 64
  vpNetworkH := 0
  vpType := .ip
  vpTtl := 0
  csumPartial := false
  diag := diag
  vpNh := none

/-- The agent adds two flows; the second, in entry 0, has the first as its reverse flow and is
translated to its addresses. -/
def natRun : List FlowStep :=
  [.request (tcpRequest (-1) 1 0 .forward { active := true } (-1)) allSucceed,
    .request (tcpRequest (-1) 2 0 .nat { active := true, rflowValid := true, dnat := true } 4)
      allSucceed]

def noLookup : Nat → Nat → Option PacketNexthop := fun _ _ => none

/-- The checksum after all four rewrites. -/
theorem ipCsum_after_rewrites_all :
    ∃ s pkt', runSteps HeaderRewrite.apply (samplePacket false)
        [.decrementTtl, .setTos 8, .flowNat s noLookup 0 0, .replaceTtl 9] = some pkt' ∧
      IpCsumValid pkt'.vpHead pkt'.vpNetworkH ∧ ipDaddr pkt'.vpHead pkt'.vpNetworkH = 0 := by
  have hmeet : StepsMeet HeaderRewrite.apply HeaderRewrite.Admissible (samplePacket false)
      [.decrementTtl, .setTos 8, .flowNat (smallEnd natRun rfl) noLookup 0 0, .replaceTtl 9] :=
    ⟨(by decide : 1 ≤ ipTtl (samplePacket false).vpHead 0),
      fun _ _ => ⟨trivial, fun _ _ => ⟨trivial, fun _ _ => ⟨trivial, fun _ _ => trivial⟩⟩⟩⟩
  have hp : (runSteps HeaderRewrite.apply (samplePacket false)
      [.decrementTtl, .setTos 8, .flowNat (smallEnd natRun rfl) noLookup 0 0, .replaceTtl 9]).any
        (fun pkt => ipDaddr pkt.vpHead pkt.vpNetworkH == 0) = true := by decide +kernel
  obtain ⟨pkt', hrun, haddr⟩ := (Option.any_eq_true _ _).mp hp
  exact ⟨_, pkt', hrun, (ipCsum_after_rewrites rfl (by decide) (by decide) hmeet hrun).1,
    of_decide_eq_true haddr⟩

/-- The checksum of a diagnostic packet is left alone by translation, and no longer verifies. -/
theorem ipCsum_after_nat_of_diag :
    ∃ s pkt', 5 ≤ ipHl (samplePacket true).vpHead 0 ∧ IpCsumValid (samplePacket true).vpHead 0 ∧
      runSteps HeaderRewrite.apply (samplePacket true) [.flowNat s noLookup 0 0] = some pkt' ∧
      ¬ IpCsumValid pkt'.vpHead pkt'.vpNetworkH := by
  exact ⟨smallEnd natRun rfl, _, by decide, by decide, rfl, by decide +kernel⟩

end VRouter
