import VRouter.Tunnel.Output

/-!
# VRouter — transmission on Linux (`linux_xmit_segment`)

The headers of an overlay packet are completed when it leaves: its length, its identification and
its checksum. Nothing the receiver goes by is changed.
-/

namespace VRouter

open Memory

/-- What `linux_xmit_segment` asks for. -/
structure XmitEnv where
  devMtu : Nat
  vrUdpCoff : Bool
  /-- The identification of the inner header, or a new one. -/
  ipId : Nat
  /-- The complement of the kernel's `csum_tcpudp_magic`. -/
  udpCheck : Nat

/-- The tunnel header updates of `linux_xmit_segment`. -/
def xmitHeaders (x : XmitEnv) (diag : Bool) (total : Nat) (m : Bytes) (ip : Nat) : Bytes :=
  let m := store16 m (ip + 2) (swap16 total)
  let m := store16 m (ip + 4) x.ipId
  let m := setIpCsum m ip
  if ipProto m ip = protoUdp then
    let udph := transportHeader m ip
    let m := store16 m (udph + 4) (swap16 (total - ipHl m ip * 4))
    if x.vrUdpCoff && !diag then store16 (setIpCsum m ip) (udph + 6) x.udpCheck
    else setIpCsum (store16 m (udph + 6) 0) ip
  else m

/-- `linux_xmit_segment`, for a packet before its link header. A packet that is too long is
fragmented first. -/
def linuxXmitSegment (x : XmitEnv) (env : TunnelEnv) (pkt : TunnelPacket) : TunnelPacket :=
  if pktLen env pkt > x.devMtu || !vrPktTypeIsOverlay pkt.vpType then pkt
  else pkt.write fun m => xmitHeaders x pkt.diag (pktLen env pkt) m pkt.vpData

section

variable {m m' : Bytes} {ip proto total label ttl : Nat}

theorem IpCsumValid.of_agree (h : IpCsumValid m ip) (hl : ipHl m ip = 5)
    (hagree : ∀ b, ip ≤ b → b < ip + 20 → m' b = m b) : IpCsumValid m' ip := by
  have hlong : 5 ≤ ipHl m ip := Nat.le_of_eq hl.symm
  have hend : transportHeader m ip = ip + 20 := by
    unfold transportHeader
    rw [hl]
  have hkept : HeaderKept m m' ip :=
    HeaderKept.of_agree hlong fun b hb hb' => hagree b hb (hend ▸ hb')
  rw [ipCsumValid_iff (by rw [hkept.hl, hl]), hkept.sum]
  exact (ipCsumValid_iff hlong).mp h

theorem OuterHeader.store_behind {a v : Nat} (h : OuterHeader proto total m ip)
    (ha : ip + 10 ≤ a) : OuterHeader proto total (store16 m a v) ip :=
  h.copies fun i hi => store16_of_ne (.inl (by omega))

theorem OuterHeader.transportHeader_eq (h : OuterHeader proto total m ip) :
    transportHeader m ip = ip + 20 := by
  unfold transportHeader
  rw [h.hl]

theorem OuterHeader.csumValid (h : OuterHeader proto total m ip) :
    IpCsumValid (setIpCsum m ip) ip := setIpCsum_valid (Nat.le_of_eq h.hl.symm)

/-- The header after its length and identification are written. -/
theorem OuterHeader.setLen (h : OuterHeader proto total m ip) (id : Nat) :
    OuterHeader proto total (store16 (store16 m (ip + 2) (swap16 total)) (ip + 4) id) ip where
  hl := by
    rw [ipHl_store16 (by omega), ipHl_store16 (by omega)]
    exact h.hl
  proto := by
    unfold ipProto
    rw [load8_store16_of_ne (by omega), load8_store16_of_ne (by omega)]
    exact h.proto
  len := by
    unfold ipLen
    rw [load16_store16_of_ne (by omega), load16_store16]
    exact Nat.mod_eq_of_lt (swap16_lt _)

theorem MplsGre.xmit (h : MplsGre label ttl total m ip) (x : XmitEnv) (diag : Bool) :
    MplsGre label ttl total (xmitHeaders x diag total m ip) ip ∧
      IpCsumValid (xmitHeaders x diag total m ip) ip ∧
      AgreeFrom (ip + 20) m (xmitHeaders x diag total m ip) := by
  have houter := (h.toOuterHeader.setLen x.ipId).setCsum
  have heq : xmitHeaders x diag total m ip =
      setIpCsum (store16 (store16 m (ip + 2) (swap16 total)) (ip + 4) x.ipId) ip := by
    unfold xmitHeaders
    dsimp only
    rw [houter.proto, if_neg (by decide)]
  have hagree : AgreeFrom (ip + 20) m (xmitHeaders x diag total m ip) := by
    rw [heq]
    exact ((AgreeFrom.store16 (by omega) _).trans (AgreeFrom.store16 (by omega) _)).trans
      setIpCsum_agree
  obtain ⟨qos, hword⟩ := h.word
  refine ⟨⟨heq ▸ houter, (hagree.load16 (by omega)).trans h.flags,
    (hagree.load16 (by omega)).trans h.greProto, qos, (hagree.load32 (by omega)).trans hword⟩,
    ?_, hagree⟩
  rw [heq]
  exact (h.toOuterHeader.setLen x.ipId).csumValid

theorem MplsUdp.xmit (h : MplsUdp label ttl total m ip) (x : XmitEnv) (diag : Bool) :
    MplsUdp label ttl total (xmitHeaders x diag total m ip) ip ∧
      IpCsumValid (xmitHeaders x diag total m ip) ip ∧
      AgreeFrom (ip + 28) m (xmitHeaders x diag total m ip) := by
  have houter := (h.toOuterHeader.setLen x.ipId).setCsum
  have hagree : AgreeFrom (ip + 20) m
      (setIpCsum (store16 (store16 m (ip + 2) (swap16 total)) (ip + 4) x.ipId) ip) :=
    ((AgreeFrom.store16 (by omega) _).trans (AgreeFrom.store16 (by omega) _)).trans
      setIpCsum_agree
  unfold xmitHeaders
  dsimp only
  rw [houter.proto, if_pos rfl, houter.transportHeader_eq, houter.hl]
  generalize setIpCsum (store16 (store16 m (ip + 2) (swap16 total)) (ip + 4) x.ipId) ip = base
    at houter hagree
  have hlen := houter.store_behind (a := ip + 20 + 4) (v := swap16 (total - 5 * 4)) (by omega)
  have hdport : load16 (store16 base (ip + 20 + 4) (swap16 (total - 5 * 4))) (ip + 22) =
      swap16 51234 := by
    rw [load16_store16_of_ne (by omega), hagree.load16 (by omega), h.dport]
  have hudpLen : load16 (store16 base (ip + 20 + 4) (swap16 (total - 5 * 4))) (ip + 24) =
      swap16 (total - 20) := by
    rw [load16_store16]
    exact Nat.mod_eq_of_lt (swap16_lt _)
  have hagree' : AgreeFrom (ip + 28) m (store16 base (ip + 20 + 4) (swap16 (total - 5 * 4))) :=
    (hagree.mono (by omega)).trans (AgreeFrom.store16 (by omega) _)
  generalize store16 base (ip + 20 + 4) (swap16 (total - 5 * 4)) = written
    at hlen hdport hudpLen hagree'
  obtain ⟨qos, hword⟩ := h.word
  -- the checksum is computed before or after the UDP checksum is written
  split
  · have hrest : AgreeFrom (ip + 28) m
        (store16 (setIpCsum written ip) (ip + 20 + 6) x.udpCheck) :=
      (hagree'.trans (setIpCsum_agree.mono (by omega))).trans (AgreeFrom.store16 (by omega) _)
    refine ⟨⟨hlen.setCsum.store_behind (by omega), ?_, ?_, qos,
      (hrest.load32 (by omega)).trans hword⟩, ?_, hrest⟩
    · rw [load16_store16_of_ne (by omega), setIpCsum_agree.load16 (by omega), hdport]
    · rw [load16_store16_of_ne (by omega), setIpCsum_agree.load16 (by omega), hudpLen]
    · exact hlen.csumValid.of_agree hlen.setCsum.hl fun b _ hb => store16_of_ne (.inl (by omega))
  · have hrest : AgreeFrom (ip + 28) m (setIpCsum (store16 written (ip + 20 + 6) 0) ip) :=
      (hagree'.trans (AgreeFrom.store16 (by omega) _)).trans (setIpCsum_agree.mono (by omega))
    refine ⟨⟨(hlen.store_behind (by omega)).setCsum, ?_, ?_, qos,
      (hrest.load32 (by omega)).trans hword⟩, (hlen.store_behind (by omega)).csumValid, hrest⟩
    · rw [setIpCsum_agree.load16 (by omega), load16_store16_of_ne (by omega), hdport]
    · rw [setIpCsum_agree.load16 (by omega), load16_store16_of_ne (by omega), hudpLen]

end

section

variable {env : TunnelEnv} {pkt out : TunnelPacket} {label ttl n : Nat}

theorem Encapsulates.write {f : Bytes → Bytes} (h : Encapsulates n pkt out)
    (hf : AgreeFrom (out.vpData + n) out.vpHead (f out.vpHead)) :
    Encapsulates n pkt (out.write f) := by
  refine ⟨h.room, ?_⟩
  rw [← h.inner]
  unfold TunnelPacket.data
  rw [bytesAt_drop, bytesAt_drop]
  apply bytesAt_congr
  intro i _
  exact hf _ (by dsimp only [TunnelPacket.write_vpData]; omega)

theorem MplsGre.linuxXmitSegment (h : MplsGre label ttl (pktLen env out) out.vpHead out.vpData)
    (hencap : Encapsulates 28 pkt out)
    (hvalid : vrPktTypeIsOverlay out.vpType = false → IpCsumValid out.vpHead out.vpData)
    (x : XmitEnv) {w : TunnelPacket} (hw : w = VRouter.linuxXmitSegment x env out) :
    MplsGre label ttl (pktLen env w) w.vpHead w.vpData ∧ Encapsulates 28 pkt w ∧
      w.vpLen = out.vpLen ∧ (pktLen env out ≤ x.devMtu → IpCsumValid w.vpHead w.vpData) := by
  unfold VRouter.linuxXmitSegment at hw
  split at hw
  · next hkept =>
    subst hw
    refine ⟨h, hencap, rfl, fun hfits => hvalid ?_⟩
    simpa [Nat.not_lt.mpr hfits] using hkept
  · subst hw
    obtain ⟨hheader, hcsum, hagree⟩ := h.xmit x out.diag
    exact ⟨hheader, hencap.write (hagree.mono (by omega)), rfl, fun _ => hcsum⟩

theorem MplsUdp.linuxXmitSegment (h : MplsUdp label ttl (pktLen env out) out.vpHead out.vpData)
    (hencap : Encapsulates 32 pkt out) (hvalid : IpCsumValid out.vpHead out.vpData)
    (x : XmitEnv) {w : TunnelPacket} (hw : w = VRouter.linuxXmitSegment x env out) :
    MplsUdp label ttl (pktLen env w) w.vpHead w.vpData ∧ Encapsulates 32 pkt w ∧
      w.vpLen = out.vpLen ∧ IpCsumValid w.vpHead w.vpData := by
  unfold VRouter.linuxXmitSegment at hw
  split at hw
  · subst hw
    exact ⟨h, hencap, rfl, hvalid⟩
  · subst hw
    obtain ⟨hheader, hcsum, hagree⟩ := h.xmit x out.diag
    exact ⟨hheader, hencap.write (hagree.mono (by omega)), rfl, hcsum⟩

end

end VRouter
