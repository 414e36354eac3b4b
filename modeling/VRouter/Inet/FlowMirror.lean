import VRouter.Inet.FormFlow

/-!
# VRouter — flow keys of the two directions

The packets of a conversation come in two directions, and the ICMP errors about one direction belong
to the other.

* `fat_flow_key_mirror`: with fat flows, the keys of the two directions are mirror images, except
  where both ports are the same configured port: then the tie-break masks the source port in both.
* `icmp_error_key_eq_reply`: without fat flows, the key of an ICMP error is that of the reply to the
  packet it quotes, given the same interface, VLAN and nexthop.
-/

namespace VRouter

open Memory

variable {ctx : FlowContext} {m m' mp : Bytes} {ip ip' ipp : Nat}

/-- The same flow seen from the other side. -/
def FlowTuple.mirror (flow : FlowTuple) : FlowTuple :=
  { flow with src := flow.dst, dst := flow.src, sport := flow.dport, dport := flow.sport }

/-- The packet at `ip'` goes the other way. -/
structure Reverses (m : Bytes) (ip : Nat) (m' : Bytes) (ip' : Nat) : Prop where
  proto : ipProto m' ip' = ipProto m ip
  src : (ip4FlowHeader m' ip').src = (ip4FlowHeader m ip).dst
  dst : (ip4FlowHeader m' ip').dst = (ip4FlowHeader m ip).src

/-! ## Fat flows -/

/-- Both ports are the same port of the configuration. -/
def FatFlowTie (ctx : FlowContext) (proto sport dport : Nat) : Prop :=
  sport = dport ∧ sport ≠ 0 ∧ vifFatFlowGetProtoIndex proto ≠ .noproto ∧
    ∃ vif, ctx.fatFlowVif = some vif ∧
      (vif.vifFatFlowConfig (vifFatFlowGetProtoIndex proto)).isSome ∧
      vifFatFlowPortIsSet vif (vifFatFlowGetProtoIndex proto) (swap16 sport) = true

theorem swap16_inj {a b : Nat} (ha : a < 2 ^ 16) (hb : b < 2 ^ 16) (h : swap16 a = swap16 b) :
    a = b := by
  unfold swap16 at h
  omega

theorem fatFlowMask_mirror {proto sport dport : Nat} (hs : sport < 2 ^ 16) (hd : dport < 2 ^ 16) :
    (vrFlowFatFlowLookup ctx proto dport sport).apply (dport, sport) =
        ((vrFlowFatFlowLookup ctx proto sport dport).apply (sport, dport)).swap ↔
      ¬ FatFlowTie ctx proto sport dport := by
  unfold vrFlowFatFlowLookup FatFlowTie
  cases ctx.fatFlowVif with
  | none => simp [FatFlowPortMask.apply]
  | some vif =>
    simp only [vifFatFlowLookup, Option.some.injEq, exists_eq_left']
    cases vif.vifFatFlowConfig (vifFatFlowGetProtoIndex proto) with
    | none => simp [FatFlowPortMask.apply]
    | some config =>
      by_cases hclass : vifFatFlowGetProtoIndex proto = .noproto
      · -- the protocol stands for both ports
        simp only [hclass, if_true]
        cases vifFatFlowPortIsSet vif .noproto proto <;> simp [FatFlowPortMask.apply]
      simp only [hclass, if_false]
      by_cases heq : sport = dport
      · subst heq
        cases vifFatFlowPortIsSet vif (vifFatFlowGetProtoIndex proto) (swap16 sport) <;>
          simp [FatFlowPortMask.apply, hclass, eq_comm]
      have hne : swap16 sport ≠ swap16 dport := fun h => heq (swap16_inj hs hd h)
      cases vifFatFlowPortIsSet vif (vifFatFlowGetProtoIndex proto) (swap16 sport) <;>
        cases vifFatFlowPortIsSet vif (vifFatFlowGetProtoIndex proto) (swap16 dport)
      case true.true =>
        -- the lower port is kept in both directions
        rcases Nat.lt_or_gt_of_ne hne with hlt | hlt <;>
          simp [FatFlowPortMask.apply, heq, hlt.le, Nat.not_le.mpr hlt]
      all_goals simp [FatFlowPortMask.apply, heq]

theorem flowPorts_lt (m : Bytes) (h : FlowHeader) :
    (flowPorts icmp4 m h).1 < 2 ^ 16 ∧ (flowPorts icmp4 m h).2 < 2 ^ 16 := by
  have hword : ∀ a, load16 m a < 2 ^ 16 := fun a => load16_lt
  have htype : load8 m h.transport < 2 ^ 16 := load8_lt.trans (by decide)
  unfold flowPorts
  dsimp only
  split
  · split
    · exact ⟨hword _, Nat.two_pow_pos 16⟩
    · exact ⟨Nat.two_pow_pos 16, htype⟩
  · split
    · exact ⟨hword _, hword _⟩
    · exact ⟨Nat.two_pow_pos 16, Nat.two_pow_pos 16⟩

theorem vrInetProtoFlow_of_not_error (h : isIcmpError icmp4 m (ip4FlowHeader m ip) = false) :
    vrInetProtoFlow ctx m ip = protoFlow .inet icmp4 ctx m (ip4FlowHeader m ip) none := by
  unfold vrInetProtoFlow formFlow protoFlow
  rw [h]
  rfl

/-- **With fat flows the keys of the two directions are mirror images**, if and only if the ports
are not the same configured port. -/
theorem fat_flow_key_mirror (hreverses : Reverses m ip m' ip')
    (hports : flowPorts icmp4 m' (ip4FlowHeader m' ip') =
      (flowPorts icmp4 m (ip4FlowHeader m ip)).swap)
    (herror : isIcmpError icmp4 m (ip4FlowHeader m ip) = false)
    (herror' : isIcmpError icmp4 m' (ip4FlowHeader m' ip') = false) :
    vrInetProtoFlow ctx m' ip' = (vrInetProtoFlow ctx m ip).map FlowTuple.mirror ↔
      ¬ FatFlowTie ctx (ipProto m ip) (flowPorts icmp4 m (ip4FlowHeader m ip)).1
        (flowPorts icmp4 m (ip4FlowHeader m ip)).2 := by
  obtain ⟨hs, hd⟩ := flowPorts_lt m (ip4FlowHeader m ip)
  have hproto' : (ip4FlowHeader m' ip').proto = ipProto m ip := hreverses.proto
  have hproto : (ip4FlowHeader m ip).proto = ipProto m ip := rfl
  rw [vrInetProtoFlow_of_not_error herror, vrInetProtoFlow_of_not_error herror',
    ← fatFlowMask_mirror hs hd]
  unfold protoFlow
  generalize flowPorts icmp4 m (ip4FlowHeader m ip) = ports at hports
  obtain ⟨sport, dport⟩ := ports
  simp only [herror, herror', Bool.false_eq_true, if_false, hports, hproto, hproto', hreverses.src,
    hreverses.dst, FlowTuple.mirror, Option.map_some, Option.some.injEq, FlowTuple.mk.injEq,
    Prod.ext_iff, Prod.fst_swap, Prod.snd_swap, Prod.swap_prod_mk, true_and]

/-- A UDP packet between two machines. -/
def udpBytes (src dst sport dport : Nat) : List Nat :=
  [0x45, 0, 0, 28, 0, 0, 0, 0, 64, 17, 0, 0, 10, 0, 0, src, 10, 0, 0, dst] ++
    [sport / 256, sport % 256, dport / 256, dport % 256, 0, 8, 0, 0]

/-- An interface with fat flows for DNS. -/
def dnsContext : FlowContext :=
  { nhId := 1
    fatFlowVif := (vifFatFlowAdd ⟨fun _ => true, fun _ => true, fun _ => true, fun _ _ => true,
      fun _ _ => true⟩ [17 * 2 ^ 16 + 53] .new).toOption
    fragment := none }

theorem fat_flow_key_mirror_dns :
    vrInetProtoFlow dnsContext (bytesOf (udpBytes 2 1 53 12345)) 0 =
      (vrInetProtoFlow dnsContext (bytesOf (udpBytes 1 2 12345 53)) 0).map FlowTuple.mirror := by
  have hreverses : Reverses (bytesOf (udpBytes 1 2 12345 53)) 0
      (bytesOf (udpBytes 2 1 53 12345)) 0 := ⟨by decide, by decide, by decide⟩
  refine (fat_flow_key_mirror hreverses (by decide) (by decide) (by decide)).mpr ?_
  rintro ⟨hports, -⟩
  exact absurd hports (by decide)

/-- Two name servers talk to each other: both directions lose their source port. -/
theorem fat_flow_key_not_mirror :
    vrInetProtoFlow dnsContext (bytesOf (udpBytes 2 1 53 53)) 0 ≠
      (vrInetProtoFlow dnsContext (bytesOf (udpBytes 1 2 53 53)) 0).map FlowTuple.mirror := by
  intro h
  exact absurd (congrArg (Option.map FlowTuple.sport) h) (by decide +kernel)

/-! ## ICMP errors -/

/-- What the flow key of a packet takes from an interface. -/
structure FlowVif where
  /-- `vif_is_virtual` and `vif_is_fabric`. -/
  virtual : Bool
  fabric : Bool
  service : Bool
  vifNhId : Nat
  /-- `va_nh_id` by VLAN, if there is a table. -/
  vifVrfTable : Option (Nat → Nat)
  fatFlow : FatFlowVif

/-- What it takes from `vp_nh`. -/
structure FlowNexthop where
  /-- `nh_type` is `NH_ENCAP`. -/
  encap : Bool
  /-- `NH_FLAG_VALID`. -/
  valid : Bool
  nhId : Nat
  nhDev : Option FlowVif

/-- `vif_vrf_table_get_nh`. -/
def vifVrfTableGetNh (vif : FlowVif) (vlan : Nat) : Nat :=
  if 0xFFFF ≤ vlan ∨ !vif.service then vif.vifNhId
  else
    match vif.vifVrfTable with
    | none => vif.vifNhId
    | some table => table vlan

/-- `vr_inet_flow_nexthop`; `none` is a null pointer. -/
def vrInetFlowNexthop (vif : FlowVif) (nh : Option FlowNexthop) (vlan : Nat) : Option Nat :=
  match vif.fabric, nh with
  | true, some nh => if nh.encap then nh.nhDev.map (·.vifNhId) else some nh.nhId
  | true, none | false, _ =>
    some (if vif.service then vifVrfTableGetNh vif vlan else vif.vifNhId)

/-- The interface `vr_flow_fat_flow_lookup` takes. -/
def fatFlowVifOf (vif : FlowVif) (nh : Option FlowNexthop) : Option FatFlowVif :=
  if vif.virtual then some vif.fatFlow
  else if vif.fabric then nh.bind fun nh => if nh.valid then nh.nhDev.map (·.fatFlow) else none
  else none

/-- What a packet's key is formed from, on an interface and VLAN and with a nexthop. -/
def flowContext (vif : FlowVif) (vlan : Nat) (nh : Option FlowNexthop) : Option FlowContext :=
  (vrInetFlowNexthop vif nh vlan).map fun nhId => ⟨nhId, fatFlowVifOf vif nh, none⟩

/-- `vr_inet_proto_flow` call by call, for a packet whose network header is at `net`: `depth` bounds
how deep calls are nested, and `none` is a call that is too deep. -/
def protoFlowCalls (ctx : FlowContext) (m : Bytes) (net : Nat) :
    Nat → Nat → Option (Option FlowTuple)
  | 0, _ => none
  | depth + 1, ip =>
    let h := ip4FlowHeader m ip
    if isIcmpError icmp4 m h then
      if ip = net then
        (protoFlowCalls ctx m net depth (h.transport + sizeofIcmp)).map
          (Option.map (flowSwap icmp4))
      else some none
    else some (protoFlow .inet icmp4 ctx m h none)

theorem protoFlowCalls_eq (depth : Nat) :
    protoFlowCalls ctx m ip (depth + 2) ip = some (vrInetProtoFlow ctx m ip) := by
  have hquoted : transportHeader m ip + sizeofIcmp ≠ ip := by
    unfold transportHeader sizeofIcmp
    omega
  unfold vrInetProtoFlow formFlow
  simp only [protoFlowCalls, ip4FlowHeader, hquoted, if_true]
  unfold protoFlow
  split
  · split <;> rfl
  · rfl

/-- The ICMP message at `ip` quotes the header and the first transport bytes of a packet. -/
structure QuotesPacket (m : Bytes) (ip : Nat) (mp : Bytes) (ipp : Nat) : Prop where
  header : ∀ j < 20, m (transportHeader m ip + sizeofIcmp + j) = mp (ipp + j)
  transport : ∀ j < 8, m (transportHeader m (transportHeader m ip + sizeofIcmp) + j) =
    mp (transportHeader mp ipp + j)

/-- The packet at `ip'` is the reply to the packet at `ipp`. -/
structure RepliesTo (mp : Bytes) (ipp : Nat) (m' : Bytes) (ip' : Nat) : Prop
    extends Reverses mp ipp m' ip' where
  icmp : ipProto mp ipp = protoIcmp →
    icmp4.echo (load8 mp (transportHeader mp ipp)) = true ∧
      icmp4.echo (load8 m' (transportHeader m' ip')) = true ∧
      load16 m' (transportHeader m' ip' + 4) = load16 mp (transportHeader mp ipp + 4)
  ports : ipProto mp ipp = vrIpProtoTcp ∨ ipProto mp ipp = vrIpProtoUdp ∨
      ipProto mp ipp = vrIpProtoSctp →
    load16 m' (transportHeader m' ip') = load16 mp (transportHeader mp ipp + 2) ∧
      load16 m' (transportHeader m' ip' + 2) = load16 mp (transportHeader mp ipp)

theorem protoFlow_congr {h h' : FlowHeader} {onError : Option FlowTuple}
    (hproto : h'.proto = h.proto) (hsrc : h'.src = h.src) (hdst : h'.dst = h.dst)
    (hbytes : ∀ j < 8, m' (h'.transport + j) = m (h.transport + j)) :
    protoFlow .inet icmp4 ctx m' h' onError = protoFlow .inet icmp4 ctx m h onError := by
  have hbyte : ∀ j < 8, load8 m' (h'.transport + j) = load8 m (h.transport + j) :=
    fun j hj => congrArg Fin.val (hbytes j hj)
  have hword : ∀ j < 7, load16 m' (h'.transport + j) = load16 m (h.transport + j) := by
    intro j hj
    unfold load16
    rw [hbyte j (by omega), Nat.add_assoc, Nat.add_assoc, hbyte (j + 1) (by omega)]
  have htype : load8 m' h'.transport = load8 m h.transport := hbyte 0 (by decide)
  have hsport : load16 m' h'.transport = load16 m h.transport := hword 0 (by decide)
  unfold protoFlow isIcmpError flowPorts
  simp only [hproto, hsrc, hdst, htype, hsport, hword 2 (by decide), hword 4 (by decide)]

theorem QuotesPacket.protoFlow_eq (h : QuotesPacket m ip mp ipp) (onError : Option FlowTuple) :
    protoFlow .inet icmp4 ctx m
        (ip4FlowHeader m ((ip4FlowHeader m ip).transport + sizeofIcmp)) onError =
      protoFlow .inet icmp4 ctx mp (ip4FlowHeader mp ipp) onError := by
  have haddr : ∀ a, a + 4 ≤ 20 →
      bytesAt m (transportHeader m ip + sizeofIcmp + a) 4 = bytesAt mp (ipp + a) 4 := by
    intro a ha
    refine List.map_congr_left fun j hj => ?_
    have hj : j < 4 := List.mem_range.mp hj
    rw [Nat.add_assoc, Nat.add_assoc ipp]
    exact h.header (a + j) (by omega)
  refine protoFlow_congr (congrArg Fin.val (h.header 9 (by decide))) (haddr 12 (by decide))
    (haddr 16 (by decide)) h.transport

theorem flowPorts_reply (h : RepliesTo mp ipp m' ip') :
    flowPorts icmp4 m' (ip4FlowHeader m' ip') =
      if ipProto mp ipp = icmp4.proto then flowPorts icmp4 mp (ip4FlowHeader mp ipp)
      else (flowPorts icmp4 mp (ip4FlowHeader mp ipp)).swap := by
  unfold flowPorts
  simp only [ip4FlowHeader, h.proto]
  by_cases hicmp : ipProto mp ipp = icmp4.proto
  · obtain ⟨hecho, hecho', hid⟩ := h.icmp hicmp
    simp only [hicmp, hecho, hecho', hid, if_true]
  by_cases hproto : ipProto mp ipp = vrIpProtoTcp ∨ ipProto mp ipp = vrIpProtoUdp ∨
      ipProto mp ipp = vrIpProtoSctp
  · obtain ⟨hsport, hdport⟩ := h.ports hproto
    simp only [hicmp, hproto, hsport, hdport, if_true, if_false, Prod.swap_prod_mk]
  · simp only [hicmp, hproto, if_false, Prod.swap_prod_mk]

theorem not_error_of_echo (h : ipProto m ip = protoIcmp →
    icmp4.echo (load8 m (transportHeader m ip)) = true) :
    isIcmpError icmp4 m (ip4FlowHeader m ip) = false := by
  by_cases hproto : ipProto m ip = protoIcmp
  · have hecho := h hproto
    simp only [isIcmpError, ip4FlowHeader, icmp4, Bool.or_eq_true, beq_iff_eq] at hecho ⊢
    rcases hecho with hecho | hecho <;> simp [hecho]
  · simp [isIcmpError, ip4FlowHeader, icmp4, hproto]

/-- **An ICMP error belongs to the flow of the reply to the packet it quotes**, on an interface and
VLAN and with a nexthop for which no fat flows are configured. An error that quotes an error is
refused, and calls are nested at most once. -/
theorem icmp_error_key_eq_reply {vif : FlowVif} {vlan : Nat} {nh : Option FlowNexthop}
    (hctx : flowContext vif vlan nh = some ctx)
    (hfat : ∀ fat, fatFlowVifOf vif nh = some fat → ∀ c, fat.vifFatFlowConfig c = none) :
    (∀ m ip mp ipp m' ip', isIcmpError icmp4 m (ip4FlowHeader m ip) = true →
        QuotesPacket m ip mp ipp → RepliesTo mp ipp m' ip' →
        ∃ flow, vrInetProtoFlow ctx m ip = some flow ∧ vrInetProtoFlow ctx m' ip' = some flow) ∧
      (∀ m ip, isIcmpError icmp4 m (ip4FlowHeader m ip) = true →
        isIcmpError icmp4 m
          (ip4FlowHeader m ((ip4FlowHeader m ip).transport + sizeofIcmp)) = true →
        vrInetProtoFlow ctx m ip = none) ∧
      ∀ m ip depth, protoFlowCalls ctx m ip (depth + 2) ip = some (vrInetProtoFlow ctx m ip) := by
  obtain ⟨nhId, -, rfl⟩ := Option.map_eq_some_iff.mp hctx
  generalize hvif : fatFlowVifOf vif nh = fat at hfat
  generalize hctx : FlowContext.mk nhId fat none = ctx
  have hmask : ∀ proto sport dport, vrFlowFatFlowLookup ctx proto sport dport = .none := by
    intro proto sport dport
    unfold vrFlowFatFlowLookup vifFatFlowLookup
    rw [← hctx]
    cases fat with
    | none => rfl
    | some fat => simp only [hfat fat rfl]
  refine ⟨fun m ip mp ipp m' ip' herror hquotes hreplies => ?_,
    fun m ip herror hquoted => formFlow_eq_none.mpr ⟨herror, hquoted⟩,
    fun m ip depth => protoFlowCalls_eq depth⟩
  have hpacket := not_error_of_echo fun h => (hreplies.icmp h).1
  have hreply := not_error_of_echo fun h => (hreplies.icmp (hreplies.proto.symm.trans h)).2.1
  refine ⟨flowSwap icmp4 ⟨.inet, ctx.nhId, (ip4FlowHeader mp ipp).src, (ip4FlowHeader mp ipp).dst,
    ipProto mp ipp, (flowPorts icmp4 mp (ip4FlowHeader mp ipp)).1,
    (flowPorts icmp4 mp (ip4FlowHeader mp ipp)).2⟩, ?_, ?_⟩
  · unfold vrInetProtoFlow formFlow
    dsimp only
    rw [hquotes.protoFlow_eq]
    simp only [protoFlow, herror, hpacket, hmask]
    rfl
  · have hproto : (ip4FlowHeader m' ip').proto = ipProto mp ipp := hreplies.proto
    rw [vrInetProtoFlow_of_not_error hreply]
    simp only [protoFlow, hreply, hmask, if_false, Bool.false_eq_true,
      hproto, hreplies.src, hreplies.dst, flowPorts_reply hreplies, flowSwap]
    split <;> rfl

/-- "Host unreachable", from a router, about a DNS request. -/
def unreachableBytes : List Nat :=
  [0x45, 0, 0, 56, 0, 0, 0, 0, 64, 1, 0, 0, 10, 0, 0, 9, 10, 0, 0, 1, 3, 1, 0, 0, 0, 0, 0, 0] ++
    udpBytes 1 2 12345 53

/-- An interface without fat flows: of a virtual machine, or towards the fabric. -/
def plainVif (fabric : Bool) : FlowVif where
  virtual := !fabric
  fabric := fabric
  service := false
  vifNhId := 1
  vifVrfTable := none
  fatFlow := .new

theorem icmp_error_key_eq_reply_dns : ∃ ctx flow,
    flowContext (plainVif false) 0xFFFF none = some ctx ∧
    vrInetProtoFlow ctx (bytesOf unreachableBytes) 0 = some flow ∧
    vrInetProtoFlow ctx (bytesOf (udpBytes 2 1 53 12345)) 0 = some flow := by
  have hctx : flowContext (plainVif false) 0xFFFF none = some ⟨1, some .new, none⟩ := rfl
  have hfat : ∀ fat, fatFlowVifOf (plainVif false) none = some fat →
      ∀ c, fat.vifFatFlowConfig c = none := by
    rintro _ ⟨⟩ c
    rfl
  have hquotes : QuotesPacket (bytesOf unreachableBytes) 0
      (bytesOf (udpBytes 1 2 12345 53)) 0 := ⟨by decide, by decide⟩
  have hreplies : RepliesTo (bytesOf (udpBytes 1 2 12345 53)) 0
      (bytesOf (udpBytes 2 1 53 12345)) 0 :=
    ⟨⟨by decide, by decide, by decide⟩, fun h => absurd h (by decide),
      fun _ => ⟨by decide, by decide⟩⟩
  obtain ⟨flow, herror, hreply⟩ := (icmp_error_key_eq_reply hctx hfat).1 _ 0 _ 0 _ 0 (by decide)
    hquotes hreplies
  exact ⟨_, flow, hctx, herror, hreply⟩

/-- Towards the fabric, the key has the nexthop that the packet was given. -/
theorem icmp_error_key_nexthop : ∃ ctx ctx',
    flowContext (plainVif true) 0xFFFF (some ⟨false, true, 7, none⟩) = some ctx ∧
    flowContext (plainVif true) 0xFFFF (some ⟨false, true, 8, none⟩) = some ctx' ∧
    vrInetProtoFlow ctx (bytesOf unreachableBytes) 0 ≠
      vrInetProtoFlow ctx' (bytesOf (udpBytes 2 1 53 12345)) 0 := by
  refine ⟨⟨7, none, none⟩, ⟨8, none, none⟩, rfl, rfl, fun h => ?_⟩
  exact absurd (congrArg (Option.map FlowTuple.nhId) h) (by decide +kernel)

end VRouter
