import VRouter.Inet.FormFlow

/-!
# VRouter — packets and their data

Headers are pushed in front of the data of a packet and pulled from it again. `TunnelPacket.data` is
what a packet holds, wherever that is in its buffer: a push puts bytes before it (`Pushed`), a pull
drops bytes from it (`pktPull_data`).
-/

namespace VRouter

open Memory LongestMatch

/-! ## Packets with forwarding metadata -/

/-- A packet given to a tunnel. Its offsets enclose its data, and `vp_ttl` is an `unsigned char`. -/
structure TunnelPacket extends VrPacket where
  vpInnerNetworkH : Nat
  /-- `VP_FLAG_MULTICAST`. -/
  multicast : Bool
  tail_eq : vpTail = vpData + vpLen
  ttl_lt : vpTtl < 2 ^ 8

/-- `struct vr_forwarding_md`. -/
structure ForwardingMd where
  fmdFlowIndex : Int
  fmdLabel : Int
  fmdDvrf : Int
  fmdOuterSrcIp : Nat
  fmdVlan : Nat
  fmdUdpSrcPort : Nat
  /-- `FMD_FLAG_LABEL_IS_VXLAN_ID`. -/
  labelIsVxlanId : Bool
  deriving DecidableEq, Repr

/-- The reasons the tunnel functions give to `vr_pfree`. -/
inductive TunnelDrop where
  | pull | push | misc | cksumErr | headAllocFail | mcastDfBit | invalidNh
  | invalidLabel | ttlExceeded | invalidProtocol | invalidPacket | invalidVnid
  deriving DecidableEq, Repr

/-- `htonl` and `ntohl`. -/
def swap32 (n : Nat) : Nat :=
  n % 2 ^ 8 * 2 ^ 24 + n / 2 ^ 8 % 2 ^ 8 * 2 ^ 16 + n / 2 ^ 16 % 2 ^ 8 * 2 ^ 8 + n / 2 ^ 24 % 2 ^ 8

theorem swap16_lt (n : Nat) : swap16 n < 2 ^ 16 := by
  unfold swap16
  omega

theorem swap16_bytes {a b : Nat} (ha : a < 256) (hb : b < 256) :
    swap16 (a * 256 + b) = b * 256 + a := by
  unfold swap16
  omega

theorem swap16_swap16 {n : Nat} (hn : n < 2 ^ 16) : swap16 (swap16 n) = n := by
  have hswap : swap16 (n % 256 * 256 + n / 256 % 256) = n / 256 % 256 * 256 + n % 256 :=
    swap16_bytes (by omega) (by omega)
  calc swap16 (swap16 n) = n / 256 % 256 * 256 + n % 256 := hswap
    _ = n := by omega

theorem swap32_lt (n : Nat) : swap32 n < 2 ^ 32 := by
  unfold swap32
  omega

theorem swap32_bytes {a b c d : Nat} (ha : a < 2 ^ 8) (hb : b < 2 ^ 8) (hc : c < 2 ^ 8)
    (hd : d < 2 ^ 8) : swap32 (a * 2 ^ 24 + b * 2 ^ 16 + c * 2 ^ 8 + d) =
      d * 2 ^ 24 + c * 2 ^ 16 + b * 2 ^ 8 + a := by
  unfold swap32
  omega

theorem swap32_swap32 {n : Nat} (hn : n < 2 ^ 32) : swap32 (swap32 n) = n := by
  have hswap : swap32 (n % 2 ^ 8 * 2 ^ 24 + n / 2 ^ 8 % 2 ^ 8 * 2 ^ 16 +
        n / 2 ^ 16 % 2 ^ 8 * 2 ^ 8 + n / 2 ^ 24 % 2 ^ 8) =
      n / 2 ^ 24 % 2 ^ 8 * 2 ^ 24 + n / 2 ^ 16 % 2 ^ 8 * 2 ^ 16 + n / 2 ^ 8 % 2 ^ 8 * 2 ^ 8 +
        n % 2 ^ 8 :=
    swap32_bytes (by omega) (by omega) (by omega) (by omega)
  calc swap32 (swap32 n) = n / 2 ^ 24 % 2 ^ 8 * 2 ^ 24 + n / 2 ^ 16 % 2 ^ 8 * 2 ^ 16 +
        n / 2 ^ 8 % 2 ^ 8 * 2 ^ 8 + n % 2 ^ 8 := hswap
    _ = n := by omega

/-! ## Bytes of a buffer -/

section

variable {m m' : Bytes} {a a' n k : Nat}

@[simp] theorem bytesAt_length : (bytesAt m a n).length = n := by
  simp [bytesAt]

theorem bytesAt_get? (h : k < n) : (bytesAt m a n)[k]? = some (m (a + k)) := by
  simp [bytesAt, h]

theorem bytesAt_congr (h : Copies n m a m' a') : bytesAt m' a' n = bytesAt m a n :=
  List.map_congr_left fun j hj => h j (List.mem_range.mp hj)

theorem bytesAt_drop : (bytesAt m a n).drop k = bytesAt m (a + k) (n - k) := by
  apply List.ext_getElem
  · simp
  · simp [bytesAt, Nat.add_assoc]

end

namespace TunnelPacket

variable {pkt out rx : TunnelPacket} {n k : Nat}

/-- The bytes of a packet, without those of its fragments. -/
def data (pkt : TunnelPacket) : List Octet := bytesAt pkt.vpHead pkt.vpData pkt.vpLen

@[simp] theorem data_length : pkt.data.length = pkt.vpLen := bytesAt_length

theorem copies_of_drop {rest : List Octet} (h : rx.data = (out.data ++ rest).drop k)
    (hn : k + n ≤ out.vpLen) : Copies n out.vpHead (out.vpData + k) rx.vpHead rx.vpData := by
  intro i hi
  have hlen : rx.vpLen = out.vpLen + rest.length - k := by
    have := congrArg List.length h
    simpa using this
  have hbyte : rx.data[i]? = ((out.data ++ rest).drop k)[i]? := by rw [h]
  rw [data, bytesAt_get? (by omega), List.getElem?_drop, List.getElem?_append_left
    (by simp; omega), data, bytesAt_get? (by omega)] at hbyte
  rw [Nat.add_assoc]
  exact Option.some.inj hbyte

end TunnelPacket

/-! ## `pkt_push` and `pkt_pull` -/

section

variable {pkt mid out : TunnelPacket} {n k len : Nat}

/-- `pkt_push`. -/
def pktPush (pkt : TunnelPacket) (len : Nat) : Option TunnelPacket :=
  if h : len ≤ pkt.vpData then
    some { pkt with
      vpData := pkt.vpData - len
      vpLen := pkt.vpLen + len
      tail_eq := by have := pkt.tail_eq; omega }
  else none

/-- `pkt_pull`. -/
def pktPull (pkt : TunnelPacket) (len : Nat) : Option TunnelPacket :=
  if h : pkt.vpData + len ≤ pkt.vpTail then
    some { pkt with
      vpData := pkt.vpData + len
      vpLen := pkt.vpLen - len
      tail_eq := by have := pkt.tail_eq; omega }
  else none

/-- A pull whose result is not looked at. -/
def pktPulled (pkt : TunnelPacket) (len : Nat) : TunnelPacket := (pktPull pkt len).getD pkt

/-- The packet with other bytes in its buffer. -/
def TunnelPacket.write (pkt : TunnelPacket) (f : Bytes → Bytes) : TunnelPacket :=
  { pkt with vpHead := f pkt.vpHead }

/-- `pkt_set_network_header`. -/
def pktSetNetworkHeader (pkt : TunnelPacket) (off : Nat) : TunnelPacket :=
  { pkt with vpNetworkH := off }

/-- The assignment to `vp_ttl`. -/
def TunnelPacket.setTtl (pkt : TunnelPacket) (ttl : Nat) : TunnelPacket :=
  { pkt with vpTtl := ttl % 2 ^ 8, ttl_lt := Nat.mod_lt _ (by decide) }

theorem TunnelPacket.setTtl_fields (pkt : TunnelPacket) (ttl : Nat) :
    (pkt.setTtl ttl).vpHead = pkt.vpHead ∧ (pkt.setTtl ttl).vpData = pkt.vpData ∧
      (pkt.setTtl ttl).vpLen = pkt.vpLen := ⟨rfl, rfl, rfl⟩

@[simp] theorem TunnelPacket.write_vpHead (pkt : TunnelPacket) (f : Bytes → Bytes) :
    (pkt.write f).vpHead = f pkt.vpHead := rfl

@[simp] theorem TunnelPacket.write_vpData (pkt : TunnelPacket) (f : Bytes → Bytes) :
    (pkt.write f).vpData = pkt.vpData := rfl

@[simp] theorem TunnelPacket.write_vpType (pkt : TunnelPacket) (f : Bytes → Bytes) :
    (pkt.write f).vpType = pkt.vpType := rfl

/-- `out` is `pkt` with `n` bytes more in front of its data. -/
structure Pushed (n : Nat) (pkt out : TunnelPacket) : Prop where
  data : out.vpData + n = pkt.vpData
  len : out.vpLen = pkt.vpLen + n
  agree : AgreeFrom pkt.vpData pkt.vpHead out.vpHead
  ttl : out.vpTtl = pkt.vpTtl
  diag : out.diag = pkt.diag

theorem Pushed.trans (h : Pushed n pkt mid) (h' : Pushed k mid out) : Pushed (n + k) pkt out where
  data := by have := h.data; have := h'.data; omega
  len := by have := h.len; have := h'.len; omega
  agree := h.agree.trans (h'.agree.mono (by have := h.data; omega))
  ttl := h'.ttl.trans h.ttl
  diag := h'.diag.trans h.diag

theorem Pushed.write {f : Bytes → Bytes} (h : Pushed n pkt out)
    (hf : AgreeFrom (out.vpData + n) out.vpHead (f out.vpHead)) : Pushed n pkt (out.write f) where
  data := h.data
  len := h.len
  agree := h.agree.trans (h.data ▸ hf)
  ttl := h.ttl
  diag := h.diag

theorem Pushed.drop_data (h : Pushed n pkt out) : out.data.drop n = pkt.data := by
  unfold TunnelPacket.data
  rw [bytesAt_drop, h.data, h.len, Nat.add_sub_cancel]
  apply bytesAt_congr
  intro i _
  exact h.agree _ (by omega)

theorem pktPush_pushed (h : pktPush pkt len = some out) : Pushed len pkt out := by
  unfold pktPush at h
  split at h
  · next hle =>
    cases h
    exact ⟨Nat.sub_add_cancel hle, rfl, AgreeFrom.refl _ _, rfl, rfl⟩
  · cases h

theorem pktPush_vpType (h : pktPush pkt len = some out) : out.vpType = pkt.vpType := by
  unfold pktPush at h
  split at h
  · cases h
    rfl
  · cases h

theorem pktPull_data (h : len ≤ pkt.vpLen) :
    ∃ out, pktPull pkt len = some out ∧ out.data = pkt.data.drop len := by
  have htail := pkt.tail_eq
  unfold pktPull
  rw [dif_pos (by omega)]
  refine ⟨_, rfl, ?_⟩
  unfold TunnelPacket.data
  rw [bytesAt_drop]

/-- A pull fails when the packet is too short, and otherwise moves the data pointer alone. -/
theorem pktPull_cases (pkt : TunnelPacket) (len : Nat) :
    (pkt.vpLen < len ∧ pktPull pkt len = none) ∨ ∃ out, pktPull pkt len = some out ∧
      out.vpHead = pkt.vpHead ∧ out.vpData = pkt.vpData + len ∧ out.vpLen = pkt.vpLen - len := by
  have htail := pkt.tail_eq
  unfold pktPull
  split
  · exact .inr ⟨_, rfl, rfl, rfl, rfl⟩
  · exact .inl ⟨by omega, rfl⟩

theorem pktPulled_data (h : len ≤ pkt.vpLen) : (pktPulled pkt len).data = pkt.data.drop len := by
  obtain ⟨out, hout, hdata⟩ := pktPull_data h
  unfold pktPulled
  rw [hout]
  exact hdata

end

end VRouter
