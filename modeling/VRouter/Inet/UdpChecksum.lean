import VRouter.Inet.TransportChecksum

/-!
# VRouter — UDP checksums under address translation

A UDP checksum of zero says that there is none, and a sum that comes out as zero is sent as all
ones. `vr_ip_update_csum` knows neither rule: it updates the field as it does for TCP.

* `udpSum_natBytes`: translation adds a difference to the sum of the datagram and takes it off the
  checksum field.
* `updatedCsum_lt`: except from all ones, the new value of the field is never all ones, so a sum of
  zero is stored as `0`.

So a checksum that verified still does, but it may now read as "none"; and a field that was zero
stays zero only if the sum of the datagram stays the same.
-/

namespace VRouter

open Memory OnesComplement

/-- The checksum field of a UDP header. -/
def udpCsum (m : Bytes) (ip : Nat) : Nat := load16 m (transportHeader m ip + 6)

/-- The one's complement sum of a datagram and its pseudo header, the checksum field left out. -/
def udpSum (m : Bytes) (ip len n : Nat) (rest : List (Fin 65536)) : Nat :=
  sum 65535 (pseudoWords m ip len ++
    (segmentWords (store16 m (transportHeader m ip + 6) 0) (transportHeader m ip) n ++
      rest.map Fin.val))

section

variable {m : Bytes} {ip t len n : Nat} {rest : List (Fin 65536)}

theorem udpSum_eq_canon (m : Bytes) (ip len n : Nat) (rest : List (Fin 65536)) :
    udpSum m ip len n rest = canon 65535 ((pseudoWords m ip len).sum +
      (csumLoop (store16 m (transportHeader m ip + 6) 0) (transportHeader m ip) n +
        (rest.map Fin.val).sum)) := by
  unfold udpSum
  rw [sum_eq_canon (by decide) (datagramWords_le _ _ _ _ _ _), List.sum_append, List.sum_append,
    sum_segmentWords]

theorem udpSum_cast (hn : 8 ≤ n) : ((udpSum m ip len n rest : Nat) : ZMod 65535) =
    (pseudoWords m ip len).sum + csumLoop m (transportHeader m ip) n - udpCsum m ip +
      (rest.map Fin.val).sum := by
  have hstore := csumLoop_store16 (m := m) (w := transportHeader m ip) (j := 3) (v := 0)
    (by omega) (by decide)
  rw [udpSum_eq_canon, canon_cast]
  push_cast
  rw [hstore]
  unfold udpCsum
  ring

/-- Protocol and length alone make the sum nonzero, so it is known by its residue. -/
theorem udpSum_eq_iff {m' : Bytes} (hproto : ipProto m ip ≠ 0) (hproto' : ipProto m' ip ≠ 0) :
    udpSum m' ip len n rest = udpSum m ip len n rest ↔
      ((udpSum m' ip len n rest : Nat) : ZMod 65535) = (udpSum m ip len n rest : Nat) := by
  have hpos := pseudoWords_pos len hproto
  have hpos' := pseudoWords_pos len hproto'
  constructor
  · intro h
    rw [h]
  · rw [udpSum_eq_canon, udpSum_eq_canon, canon_cast, canon_cast]
    intro h
    exact canon_congr (by decide) h (by omega)

theorem udpSum_eq_all_ones (hproto : ipProto m ip ≠ 0) :
    udpSum m ip len n rest = 65535 ↔ ((udpSum m ip len n rest : Nat) : ZMod 65535) = 0 := by
  have hpos := pseudoWords_pos len hproto
  rw [udpSum_eq_canon, canon_eq_all_ones (by decide), canon_cast]
  exact ⟨fun h => h.1, fun h => ⟨h, by omega⟩⟩

/-- The checksum verifies if it makes up for the rest of the datagram. -/
theorem udpCsumValid_iff (hproto : ipProto m ip ≠ 0) (hn : 8 ≤ n) :
    TcpCsumValid m ip len n rest ↔
      ((udpSum m ip len n rest : Nat) : ZMod 65535) + udpCsum m ip = 0 := by
  rw [tcpCsumValid_iff hproto, udpSum_cast hn]
  constructor
  · intro h
    linear_combination h
  · intro h
    linear_combination h

/-- The complement of a sum is all ones only where nothing was added to zero. -/
theorem updatedCsum_lt {csum inc : Nat} (ipInc : Nat) (hcsum : csum < 65535) (hinc : inc < 2 ^ 32) :
    updatedCsum false csum ipInc inc < 65535 := by
  have ha : 2 ^ 16 - 1 - csum ≤ 65535 := by omega
  have hlt := addDiff_lt ha hinc
  have hne : canon 65535 (endAround (2 ^ 32 - 1) (2 ^ 16 - 1 - csum) inc) ≠ 0 := by
    rw [Ne, canon_eq_zero, endAround_eq_zero]
    omega
  unfold updatedCsum
  simp only [Bool.false_eq_true, if_false]
  rw [addCarry_eq (by omega) hinc, fold16_eq hlt]
  omega

theorem eq_zero_of_cast {v : Nat} (hv : v < 65535) (h : ((v : Nat) : ZMod 65535) = 0) : v = 0 := by
  rw [← Nat.cast_zero] at h
  rcases eq_or_zeros (by omega) (by omega) h with h | h | h
  · exact h
  · exact h.1
  · omega

/-- Translation adds `inc` to the sum of the datagram and updates the checksum field by it. -/
theorem udpSum_natBytes (len : Nat) (rest : List (Fin 65536)) (h : CsumAt m ip t 6)
    (ht : ip + 20 ≤ t) (hn : 8 ≤ n) (fe rfe : FlowEntry) : ∃ ipInc inc, inc < 2 ^ 32 ∧
      udpCsum (natBytes m ip false false fe rfe) ip = updatedCsum false (udpCsum m ip) ipInc inc ∧
      ((udpSum (natBytes m ip false false fe rfe) ip len n rest : Nat) : ZMod 65535) =
        udpSum m ip len n rest + inc := by
  obtain ⟨m', ipInc, inc, rfl, -, hinc, h', hnew, hpseudo, hsegment⟩ :=
    natBytes_csumAt (j := 3) h ht (by decide) fe rfe len hn false
  have hle := (updatedCsum_full ipInc (Nat.le_of_lt_succ (load16_lt (m := m) (a := t + 6)))
    hinc).1
  rw [Nat.mod_eq_of_lt (Nat.lt_succ_of_le hle)] at hnew
  refine ⟨ipInc, inc, hinc, ?_, ?_⟩
  · unfold udpCsum
    rw [h'.header, h.header]
    exact hnew
  · rw [udpSum_cast hn, udpSum_cast hn, hpseudo]
    unfold udpCsum
    rw [h'.header, h.header]
    linear_combination hsegment

end

/-- A UDP datagram without data from port `0xF583` of `10.0.0.1` to port 90 of `10.0.0.2`, with the
checksum given. -/
def udpDatagram (csum₁ csum₂ : LongestMatch.Octet) (diag : Bool) : VrPacket :=
  { samplePacket diag with
    vpHead := LongestMatch.octet
      [0x45, 0, 0, 28, 0, 0, 0, 0, 64, 17, 0x66, 0xCF, 10, 0, 0, 1, 10, 0, 0, 2,
        0xF5, 0x83, 0, 90, 0, 8, csum₁, csum₂]
    vpTail := 28
    vpLen := 28 }

end VRouter
