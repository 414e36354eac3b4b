import VRouter.Flow.HoldQueue

/-!
# VRouter — the bitmap of link-local ports

The agent flags flows to link-local services and to the BGP service, and the module keeps a bit for
the protocol and destination port of such a flow, so that other code can tell whether a packet needs
a flow lookup. The bit is set when a request flags a flow, and cleared when one takes the flag
`LINK_LOCAL` away or deletes a flow with that flag. Nothing counts the flows that share a bit,
`BGP_SERVICE` is not looked at when a bit could be cleared, and a flow that is evicted leaves its
bit behind.

`BitmapInv` says that the bits that are set are those of live flagged flows, and `link_local_bitmap`
that this holds in every state of a run without these cases (`FlowSys.KeepsBitmap`).
-/

namespace VRouter

open LongestMatch FlowSys

variable {cfg : FlowConfig} {s s' : FlowSys} {o : FlowOutcome} {req : FlowReq} {fe : Nat}

/-! ## Bits -/

/-- The destination port of a key as a number. -/
def flowDportHost (key : List Octet) : Nat := (octet key 6).val * 256 + (octet key 7).val

theorem flowDportHost_lt (key : List Octet) : flowDportHost key < 65536 := by
  unfold flowDportHost
  omega

/-- The bit of a flow's protocol and destination port. -/
def FlowEntry.portBit (e : FlowEntry) : Option Nat :=
  FlowSys.linkLocalBit (flowProto e.feKey) (flowDportHost e.feKey)

variable {f : FlowEntry → FlowEntry} {proto port i bit : Nat} {flmd : FlowMd} {e : FlowEntry}
    {ok : Bool}

theorem linkLocalBit_inj {proto' port' : Nat} (hport : port < 65536)
    (hport' : port' < 65536) (h : FlowSys.linkLocalBit proto port = some bit)
    (h' : FlowSys.linkLocalBit proto' port' = some bit) : proto = proto' ∧ port = port' := by
  unfold linkLocalBit vrLinkLocalPortsSize at h h'
  split at h
  · cases h
  · split at h'
    · cases h'
    · split at h <;> split at h' <;> cases h <;> cases h' <;> omega

/-- A live IPv4 flow that is flagged, with this bit. -/
structure FlowEntry.OwnsBit (e : FlowEntry) (bit : Nat) : Prop where
  ip : e.feType = .ip
  active : e.feFlags.active = true
  deleteMarked : e.feFlags.deleteMarked = false
  flagged : e.feFlags.linkLocal = true ∨ e.feFlags.bgpService = true
  portBit : e.portBit = some bit

/-- An entry with neither flag. -/
def FlowEntry.Unflagged (e : FlowEntry) : Prop :=
  e.feFlags.linkLocal = false ∧ e.feFlags.bgpService = false

theorem FlowEntry.Unflagged.not_ownsBit (h : e.Unflagged) (bit : Nat) : ¬ e.OwnsBit bit := by
  intro howns
  rcases howns.flagged with hflag | hflag
  · rw [h.1] at hflag
    cases hflag
  · rw [h.2] at hflag
    cases hflag

/-- What the bitmap depends on in an entry. -/
structure PortFlow where
  type : VpType
  key : List Octet
  active : Bool
  deleteMarked : Bool
  linkLocal : Bool
  bgpService : Bool

def FlowEntry.portFlow (e : FlowEntry) : PortFlow where
  type := e.feType
  key := e.feKey
  active := e.feFlags.active
  deleteMarked := e.feFlags.deleteMarked
  linkLocal := e.feFlags.linkLocal
  bgpService := e.feFlags.bgpService

section Congr

variable {e' : FlowEntry} (h : e'.portFlow = e.portFlow)
include h

theorem FlowEntry.portBit_congr : e'.portBit = e.portBit := by
  have hkey : e'.feKey = e.feKey := congrArg PortFlow.key h
  unfold portBit
  rw [hkey]

theorem FlowEntry.OwnsBit.congr (ho : e.OwnsBit bit) : e'.OwnsBit bit where
  ip := (congrArg PortFlow.type h).trans ho.ip
  active := (congrArg PortFlow.active h).trans ho.active
  deleteMarked := (congrArg PortFlow.deleteMarked h).trans ho.deleteMarked
  flagged := ho.flagged.imp (congrArg PortFlow.linkLocal h).trans
    (congrArg PortFlow.bgpService h).trans
  portBit := (portBit_congr h).trans ho.portBit

theorem FlowEntry.ownsBit_congr (bit : Nat) : e'.OwnsBit bit ↔ e.OwnsBit bit :=
  ⟨.congr h.symm, .congr h⟩

theorem FlowEntry.Unflagged.congr (hnone : e.Unflagged) : e'.Unflagged :=
  ⟨(congrArg PortFlow.linkLocal h).trans hnone.1, (congrArg PortFlow.bgpService h).trans hnone.2⟩

end Congr

theorem FlowSys.modify_portFlow (hf : (f (s.entry i)).portFlow = (s.entry i).portFlow) (j : Nat) :
    ((s.modify i f).entry j).portFlow = (s.entry j).portFlow :=
  congrFun (modify_keeps FlowEntry.portFlow hf) j

theorem FlowSys.lasting_portFlow (hs : s'.lasting = s.lasting) (i : Nat) :
    (s'.entry i).portFlow = (s.entry i).portFlow :=
  FlowEntry.eq_of_lasting FlowEntry.portFlow (fun _ => rfl) (lasting_entry hs i)

/-! ## What the functions do to the bitmap -/

namespace FlowSys

theorem writeLinkLocalPort_ports (s : FlowSys) (key : List Octet) (value : Bool) (bit : Nat) :
    (s.writeLinkLocalPort key value).linkLocalPorts bit =
      if linkLocalBit (flowProto key) (flowDportHost key) = some bit then value
      else s.linkLocalPorts bit := by
  unfold writeLinkLocalPort
  dsimp only
  rw [show (octet key 6).val * 256 + (octet key 7).val = flowDportHost key from rfl]
  cases hbit : linkLocalBit (flowProto key) (flowDportHost key) with
  | none => rfl
  | some b =>
    show Function.update s.linkLocalPorts b value bit = _
    rw [Function.update_apply]
    simp only [Option.some_inj, eq_comm]

/-- The request takes `LINK_LOCAL` from the flow. -/
def clearsBit (e : FlowEntry) (flags : FlowFlags) : Bool := !flags.linkLocal && e.feFlags.linkLocal

/-- The request gives the flow one of the flags. -/
def setsBit (e : FlowEntry) (flags : FlowFlags) : Bool :=
  (flags.linkLocal && !e.feFlags.linkLocal) || (flags.bgpService && !e.feFlags.bgpService)

/-- The bitmap after `vr_flow_update_link_local_port`. -/
def updatedPorts (e : FlowEntry) (flags : FlowFlags) (ports : Nat → Bool) (bit : Nat) : Bool :=
  if e.feType = .ip ∧ e.portBit = some bit then
    setsBit e flags || (!clearsBit e flags && ports bit)
  else ports bit

theorem vrFlowUpdateLinkLocalPort_ports (s : FlowSys) (req : FlowReq) (fe : Nat) :
    (s.vrFlowUpdateLinkLocalPort req fe).linkLocalPorts =
      updatedPorts (s.entry fe) req.frFlags s.linkLocalPorts := by
  funext bit
  unfold vrFlowUpdateLinkLocalPort updatedPorts
  dsimp only
  rw [show (!req.frFlags.linkLocal && (s.entry fe).feFlags.linkLocal) =
    clearsBit (s.entry fe) req.frFlags from rfl, show
    ((req.frFlags.linkLocal && !(s.entry fe).feFlags.linkLocal) ||
      (req.frFlags.bgpService && !(s.entry fe).feFlags.bgpService)) =
    setsBit (s.entry fe) req.frFlags from rfl]
  unfold FlowEntry.portBit
  by_cases htype : (s.entry fe).feType = .ip
  · by_cases hbit : linkLocalBit (flowProto (s.entry fe).feKey)
      (flowDportHost (s.entry fe).feKey) = some bit <;>
    cases setsBit (s.entry fe) req.frFlags <;> cases clearsBit (s.entry fe) req.frFlags <;>
      simp [htype, hbit, writeLinkLocalPort_ports]
  · simp [htype]

theorem setFields_updatedPorts (e : FlowEntry) (flags : FlowFlags) (ports : Nat → Bool) :
    updatedPorts (setFields cfg o req e) flags ports = updatedPorts e flags ports := by
  unfold setFields vrFlowSetMirror
  split
  · split <;> rfl
  · rfl

/-- What `vr_flow_set` writes, as far as the bitmap is concerned: the bits, and the flags a request
has its way with. -/
theorem writeEntry_bitmap (cfg : FlowConfig) (s : FlowSys) (o : FlowOutcome) (req : FlowReq)
    (fe : Nat) (newFlow : Bool) :
    (s.writeEntry cfg o req fe newFlow).linkLocalPorts =
        updatedPorts (s.entry fe) req.frFlags s.linkLocalPorts ∧
      ∃ flags : FlowFlags, ((s.writeEntry cfg o req fe newFlow).entry fe).feFlags =
        FlowEntry.mergeFlags flags req.frFlags := by
  obtain ⟨x, info, heq, hx, -⟩ := writeEntry_eq cfg s o req fe newFlow
  rw [heq]
  constructor
  · show (vrFlowUpdateLinkLocalPort _ req fe).linkLocalPorts = _
    rw [vrFlowUpdateLinkLocalPort_ports, modify_self, setFields_updatedPorts]
    rfl
  · refine ⟨{ (s.entry fe).feFlags with newFlow := false }, ?_⟩
    show ((s.modify fe fun _ => x).entry fe).feFlags = _
    rw [modify_self, hx]
    rfl

/-- `vr_flow_delete`: the entry is marked, and the bit of a link-local flow is cleared, whatever the
type of the flow. -/
theorem vrFlowDelete_bitmap (h : s.vrFlowDelete o req fe = some (s', ok)) :
    (s'.entry fe).feFlags.deleteMarked = true ∧
      ∀ bit, s'.linkLocalPorts bit =
        if (s.entry fe).feFlags.linkLocal = true ∧ (s.entry fe).portBit = some bit then false
        else s.linkLocalPorts bit := by
  have hmarked : ((s.deleted fe).entry fe).feFlags.deleteMarked = true := by
    rw [deleted_self]
    rfl
  have hports : ∀ bit, (s.deleted fe).linkLocalPorts bit =
      if (s.entry fe).feFlags.linkLocal = true ∧ (s.entry fe).portBit = some bit then false
      else s.linkLocalPorts bit := by
    intro bit
    unfold deleted FlowEntry.portBit
    cases (s.entry fe).feFlags.linkLocal with
    | true => simp [writeLinkLocalPort_ports]
    | false => simp
  rw [vrFlowDelete_eq] at h
  rcases vrFlowScheduleTransition_eq h with ⟨-, rfl⟩ | ⟨-, flmd, rfl, -⟩ <;> exact ⟨hmarked, hports⟩

end FlowSys

/-! ## The invariant -/

/-- Another entry than this one owns the bit. -/
def FlowSys.OtherOwns (s : FlowSys) (i bit : Nat) : Prop := ∃ j, j ≠ i ∧ (s.entry j).OwnsBit bit

/-- The bits that are set are those of live flagged flows. Entries that are not in use have no
flags. -/
structure BitmapInv (s : FlowSys) : Prop where
  bits : ∀ bit, s.linkLocalPorts bit = true ↔ ∃ i, (s.entry i).OwnsBit bit
  unused : ∀ i, s.view.valid i = false → (s.entry i).Unflagged

theorem FlowSys.owns_split (s : FlowSys) (i bit : Nat) :
    (∃ j, (s.entry j).OwnsBit bit) ↔ s.OtherOwns i bit ∨ (s.entry i).OwnsBit bit := by
  constructor
  · rintro ⟨j, hj⟩
    by_cases hji : j = i
    · exact Or.inr (hji ▸ hj)
    · exact Or.inl ⟨j, hji, hj⟩
  · rintro (⟨j, -, hj⟩ | hi)
    · exact ⟨j, hj⟩
    · exact ⟨i, hi⟩

namespace BitmapInv

variable (h : BitmapInv s)
include h

theorem of_write (i : Nat) (hother : ∀ j, j ≠ i → s'.entry j = s.entry j)
    (hports : ∀ bit, s'.linkLocalPorts bit = true ↔ s.OtherOwns i bit ∨ (s'.entry i).OwnsBit bit)
    (hunused : ∀ j, s'.view.valid j = false →
      (j ≠ i ∧ s.view.valid j = false) ∨ (s'.entry j).Unflagged) : BitmapInv s' := by
  refine ⟨fun bit => ?_, fun j hj => ?_⟩
  · have hothers : s'.OtherOwns i bit ↔ s.OtherOwns i bit := by
      constructor
      · rintro ⟨j, hji, hj⟩
        exact ⟨j, hji, hother j hji ▸ hj⟩
      · rintro ⟨j, hji, hj⟩
        exact ⟨j, hji, (hother j hji).symm ▸ hj⟩
    rw [hports, s'.owns_split i, hothers]
  · rcases hunused j hj with ⟨hji, hvalid⟩ | hflags
    · rw [hother j hji]
      exact h.unused j hvalid
    · exact hflags

/-- A write to an entry in use. -/
theorem of_write_used (hvalid : s.view.valid i = true)
    (hother : ∀ j, j ≠ i → s'.entry j = s.entry j) (hht : s'.ht = s.ht)
    (hports : ∀ bit, s'.linkLocalPorts bit = true ↔ s.OtherOwns i bit ∨ (s'.entry i).OwnsBit bit) :
    BitmapInv s' := by
  refine h.of_write i hother hports fun j hj => ?_
  rw [valid_of_ht hht] at hj
  refine Or.inl ⟨fun hji => ?_, hj⟩
  rw [hji, hvalid] at hj
  cases hj

/-- A write to an entry that owns no bit. -/
theorem of_write_unowned (i : Nat) (hports : s'.linkLocalPorts = s.linkLocalPorts)
    (hother : ∀ j, j ≠ i → s'.entry j = s.entry j ∧ s'.view.valid j = s.view.valid j)
    (hold : ∀ bit, ¬ (s.entry i).OwnsBit bit) (hnew : (s'.entry i).Unflagged) : BitmapInv s' := by
  refine h.of_write i (fun j hj => (hother j hj).1) (fun bit => ?_) fun j hj => ?_
  · rw [hports, h.bits, s.owns_split i, or_iff_left (hold bit), or_iff_left (hnew.not_ownsBit bit)]
  · by_cases hji : j = i
    · exact Or.inr (hji ▸ hnew)
    · exact Or.inl ⟨hji, (hother j hji).2.symm.trans hj⟩

theorem congr (hflow : ∀ i, (s'.entry i).portFlow = (s.entry i).portFlow)
    (hports : s'.linkLocalPorts = s.linkLocalPorts) (hht : s'.ht = s.ht) : BitmapInv s' := by
  refine ⟨fun bit => ?_, fun i hi => (h.unused i ?_).congr (hflow i)⟩
  · rw [hports, h.bits]
    exact exists_congr fun i => (FlowEntry.ownsBit_congr (hflow i) bit).symm
  · rwa [valid_of_ht hht] at hi

theorem of_lasting (hs : s'.lasting = s.lasting) : BitmapInv s' := by
  have hports : s'.lasting.linkLocalPorts = s.lasting.linkLocalPorts :=
    congrArg linkLocalPorts hs
  exact h.congr (lasting_portFlow hs) hports (lasting_ht hs)

theorem modify (hf : (f (s.entry i)).portFlow = (s.entry i).portFlow) : BitmapInv (s.modify i f) :=
  h.congr (modify_portFlow hf) rfl rfl

/-! ## Packets -/

variable {result : FlowResult} {pkt : FlowPacket} {key : List Octet}

theorem handlePacket (hstep : s.handlePacket o fe pkt = some (s', result)) : BitmapInv s' := by
  rcases handlePacket_lasts hstep with ⟨hs, -⟩ | ⟨-, -, hs⟩
  · exact h.of_lasting hs.lasting
  · exact (h.modify rfl).of_lasting hs.lasting

theorem vrFlowGetFreeEntry (hinv : FlowInv cfg s.view) {type : VpType} {needHold : Bool}
    (hget : s.vrFlowGetFreeEntry cfg o key type needHold = some (some fe, s')) :
    BitmapInv s' ∧ (s'.entry fe).Unflagged := by
  obtain ⟨t, hfree, rfl⟩ := vrFlowGetFreeEntry_some hget
  have hins := hinv.inserts hfree
  have hold : (s.entry fe).Unflagged := h.unused fe hins.fresh
  have hnew : ((s.modify fe fun e => takenEntry e fe type key needHold).entry
      fe).Unflagged := by
    rw [modify_self]
    show (s.entry fe).activate.Unflagged
    unfold FlowEntry.activate
    split
    · exact ⟨rfl, rfl⟩
    · split <;> exact hold
  have hother : ∀ j, j ≠ fe →
      (s.modify fe fun e => takenEntry e fe type key needHold).entry j = s.entry j :=
    fun j hj => modify_of_ne _ _ _ hj
  exact ⟨h.of_write_unowned fe rfl (fun j hj => ⟨hother j hj, (hins.others j hj).1⟩)
    hold.not_ownsBit hnew, hnew⟩

theorem vrFlowEntrySetHold (cpu : Nat) : BitmapInv (s.vrFlowEntrySetHold cfg cpu fe) := by
  unfold FlowSys.vrFlowEntrySetHold
  split
  · exact h
  · have hhold : BitmapInv (s.modify fe fun e => { e with feAction := .hold }) :=
      h.modify rfl
    exact ⟨hhold.bits, hhold.unused⟩

theorem vrFlowLookup (hinv : FlowInv cfg s.view)
    (hstep : s.vrFlowLookup cfg o key pkt = some (s', result)) : BitmapInv s' := by
  rcases vrFlowLookup_cases hstep with rfl | ⟨fe, -, hstep⟩ | ⟨fe, s₁, -, hget, hstep⟩
  · exact h
  · exact h.handlePacket hstep
  · have hvrf : BitmapInv (s₁.modify fe fun e => { e with feVrf := pkt.fmdDvrf % 2 ^ 16 }) :=
      (h.vrFlowGetFreeEntry hinv hget).1.modify rfl
    exact (hvrf.vrFlowEntrySetHold o.cpu).handlePacket hstep

end BitmapInv

/-! ## Requests -/

/-- What is left of the flags of a flow when a request has been carried out. -/
def FlowReq.flagsAfter (req : FlowReq) : FlowFlags := if req.frFlags.active then req.frFlags else {}

/-- The request makes `vr_clear_link_local_port` clear a bit. A change looks at the type of the
flow, a deletion does not. -/
def FlowReq.Clears (req : FlowReq) (e : FlowEntry) : Prop :=
  FlowSys.clearsBit e req.flagsAfter = true ∧ (req.frFlags.active = true → e.feType = .ip)

/-- What the bitmap needs of a request on an entry in use: no bit is cleared that another flow owns,
and a flow with `BGP_SERVICE` does not lose `LINK_LOCAL` alone, nor, without `LINK_LOCAL`, its
flag. -/
structure FlowSys.RequestFits (s : FlowSys) (req : FlowReq) (fe : Nat) : Prop where
  alone : req.Clears (s.entry fe) → ∀ bit, (s.entry fe).portBit = some bit → ¬ s.OtherOwns fe bit
  linkLocal : (s.entry fe).feType = .ip → (s.entry fe).feFlags.bgpService = true →
    (s.entry fe).feFlags.linkLocal = true → req.flagsAfter.bgpService = true →
    req.flagsAfter.linkLocal = true
  bgpService : (s.entry fe).feType = .ip → (s.entry fe).feFlags.bgpService = true →
    (s.entry fe).feFlags.linkLocal = false →
    req.flagsAfter.bgpService = true ∨ req.flagsAfter.linkLocal = true

theorem FlowSys.RequestFits.congr (h : s.RequestFits req fe)
    (hflow : ∀ i, (s'.entry i).portFlow = (s.entry i).portFlow) : s'.RequestFits req fe := by
  have htype : (s'.entry fe).feType = (s.entry fe).feType := congrArg PortFlow.type (hflow fe)
  have hlocal : (s'.entry fe).feFlags.linkLocal = (s.entry fe).feFlags.linkLocal :=
    congrArg PortFlow.linkLocal (hflow fe)
  have hbgp : (s'.entry fe).feFlags.bgpService = (s.entry fe).feFlags.bgpService :=
    congrArg PortFlow.bgpService (hflow fe)
  refine ⟨?_, ?_, ?_⟩
  · rintro ⟨hclears, hip⟩ bit hport ⟨j, hj, howns⟩
    unfold clearsBit at hclears
    rw [hlocal] at hclears
    rw [htype] at hip
    exact h.alone ⟨hclears, hip⟩ bit ((FlowEntry.portBit_congr (hflow fe)).symm.trans hport)
      ⟨j, hj, (FlowEntry.ownsBit_congr (hflow j) bit).mp howns⟩
  · rw [htype, hbgp, hlocal]
    exact h.linkLocal
  · rw [htype, hbgp, hlocal]
    exact h.bgpService

namespace BitmapInv

/-- One bit, in terms of the flags of its flow before and after a request. -/
theorem update_bit {other : Prop} {bit eLocal eBgp rLocal rBgp : Bool}
    (hbit : bit = true ↔ other ∨ (eLocal = true ∨ eBgp = true))
    (halone : (!rLocal && eLocal) = true → ¬ other)
    (hlocal : eBgp = true → eLocal = true → rBgp = true → rLocal = true)
    (hbgp : eBgp = true → eLocal = false → rBgp = true ∨ rLocal = true) :
    (((rLocal && !eLocal) || (rBgp && !eBgp)) || (!(!rLocal && eLocal) && bit)) = true ↔
      other ∨ (rLocal = true ∨ rBgp = true) := by
  cases eLocal <;> cases rLocal <;> cases eBgp <;> cases rBgp <;> simp_all

/-- A flow that is not live has no flags, or it owns its bit as soon as it has one. -/
theorem ownsBit_iff
    (hlive : (e.feFlags.active = true ∧ e.feFlags.deleteMarked = false) ∨ e.Unflagged) (bit : Nat) :
    e.OwnsBit bit ↔ (e.feType = .ip ∧ e.portBit = some bit) ∧
      (e.feFlags.linkLocal = true ∨ e.feFlags.bgpService = true) := by
  constructor
  · exact fun ⟨ht, _, _, hf, hp⟩ => ⟨⟨ht, hp⟩, hf⟩
  rintro ⟨⟨ht, hp⟩, hf⟩
  rcases hlive with ⟨ha, hd⟩ | hnone
  · exact ⟨ht, ha, hd, hf, hp⟩
  · rw [hnone.1, hnone.2] at hf
    simp at hf

variable (h : BitmapInv s)
include h

theorem writeEntry (newFlow : Bool) (hvalid : s.view.valid fe = true)
    (hlive : ((s.entry fe).feFlags.active = true ∧ (s.entry fe).feFlags.deleteMarked = false) ∨
      (s.entry fe).Unflagged) (hactive : req.frFlags.active = true)
    (hmarked : req.frFlags.deleteMarked = false) (hfits : s.RequestFits req fe) :
    BitmapInv (s.writeEntry cfg o req fe newFlow) := by
  have hbitmap := s.writeEntry_bitmap cfg o req fe newFlow
  have hkept : (s.writeEntry cfg o req fe newFlow).kept = s.kept :=
    writeEntry_kept s fe newFlow
  have hother : ∀ j, j ≠ fe → (s.writeEntry cfg o req fe newFlow).entry j = s.entry j :=
    fun j hj => writeEntry_of_ne hj
  generalize s.writeEntry cfg o req fe newFlow = s' at *
  obtain ⟨hports, flags, hflags⟩ := hbitmap
  have hframe := frame_of_kept hkept
  have hident : (s'.entry fe).ident = (s.entry fe).ident :=
    congrFun (congrArg FlowFrame.ident hframe) fe
  have htype : (s'.entry fe).feType = (s.entry fe).feType := congrArg FlowIdent.type hident
  have hkey : (s'.entry fe).feKey = (s.entry fe).feKey := congrArg FlowIdent.key hident
  have hht : s'.ht = s.ht := congrArg FlowFrame.ht hframe
  have hafter : req.flagsAfter = req.frFlags := if_pos hactive
  refine h.of_write_used hvalid hother hht fun bit => ?_
  have howns : (s'.entry fe).OwnsBit bit ↔ ((s.entry fe).feType = .ip ∧
      (s.entry fe).portBit = some bit) ∧
      (req.frFlags.linkLocal = true ∨ req.frFlags.bgpService = true) := by
    rw [ownsBit_iff (Or.inl (by rw [hflags]; exact ⟨hactive, hmarked⟩)), htype, hflags]
    unfold FlowEntry.portBit
    rw [hkey]
    exact Iff.rfl
  have hbit := (h.bits bit).trans (s.owns_split fe bit)
  rw [ownsBit_iff hlive] at hbit
  rw [hports, howns]
  unfold updatedPorts
  by_cases hmine : (s.entry fe).feType = .ip ∧ (s.entry fe).portBit = some bit
  · simp only [hmine, true_and] at hbit ⊢
    refine update_bit hbit (fun hclears => ?_) ?_ ?_
    · refine hfits.alone ⟨?_, fun _ => hmine.1⟩ bit hmine.2
      rw [hafter]
      exact hclears
    · have hlocal := hfits.linkLocal hmine.1
      rwa [hafter] at hlocal
    · have hbgp := hfits.bgpService hmine.1
      rwa [hafter] at hbgp
  · rw [if_neg hmine]
    simpa only [hmine, false_and] using hbit

theorem vrFlowDelete (hvalid : s.view.valid fe = true) (hactive : req.frFlags.active = false)
    (hfits : s.RequestFits req fe) (hstep : s.vrFlowDelete o req fe = some (s', ok)) :
    BitmapInv s' := by
  obtain ⟨hmarked, hports⟩ := vrFlowDelete_bitmap hstep
  have hht : s'.ht = s.ht := congrArg FlowFrame.ht (vrFlowDelete_frame hstep)
  have hafter : req.flagsAfter = {} := if_neg (by rw [hactive]; simp)
  have hgone : ∀ bit, ¬ (s'.entry fe).OwnsBit bit := by
    intro bit howns
    cases hmarked.symm.trans howns.deleteMarked
  refine h.of_write_used hvalid (fun j hj => vrFlowDelete_of_ne hj hstep) hht fun bit => ?_
  rw [hports, or_iff_left (hgone bit)]
  split
  · rename_i hclear
    refine ⟨fun hfalse => (nomatch hfalse), fun hothers => ?_⟩
    refine absurd hothers (hfits.alone ⟨?_, fun hactive' => ?_⟩ bit hclear.2)
    · rw [hafter]
      exact hclear.1
    · rw [hactive] at hactive'
      cases hactive'
  · rename_i hclear
    -- a flow that keeps its bit had no flag
    rw [h.bits, s.owns_split fe, or_iff_left]
    intro howns
    rcases howns.flagged with hlocal | hbgp
    · exact hclear ⟨hlocal, howns.portBit⟩
    cases hlocal : (s.entry fe).feFlags.linkLocal with
    | true => exact hclear ⟨hlocal, howns.portBit⟩
    | false =>
      have hflags := hfits.bgpService howns.ip hbgp hlocal
      rw [hafter] at hflags
      simp at hflags

variable {result : Option Errno × FlowReq} {ht : HtSys}

theorem vrFlowSetAdd (hinv : FlowInv cfg s.view)
    (hmarked : req.frFlags.active = true → req.frFlags.deleteMarked = false)
    (hstep : s.vrFlowSetAdd cfg o req = some (s', result)) : BitmapInv s' := by
  rcases vrFlowSetAdd_cases hstep with rfl | ⟨fe, family, s₁, ok, hactive, -, hget, hschedule⟩
  · exact h
  obtain ⟨hs₁, hnone⟩ := h.vrFlowGetFreeEntry hinv hget
  have hvalid : s₁.view.valid fe = true := by
    obtain ⟨t, hfree, rfl⟩ := vrFlowGetFreeEntry_some hget
    exact (hinv.inserts hfree).valid
  have hadded : BitmapInv { s₁ with
      info := { s₁.info with vftiAdded := (s₁.info.vftiAdded + 1) % 2 ^ 64 } } :=
    ⟨hs₁.bits, hs₁.unused⟩
  refine (hadded.writeEntry true hvalid (Or.inr hnone) hactive (hmarked hactive) ?_).of_lasting
    (vrFlowScheduleTransition_lasting hschedule)
  -- an entry without flags has none to lose
  refine ⟨fun hclears => ?_, fun _ hbgp => ?_, fun _ hbgp => ?_⟩
  · have hclears := hclears.1
    unfold clearsBit at hclears
    rw [hnone.1, Bool.and_false] at hclears
    cases hclears
  · rw [hnone.2] at hbgp
    cases hbgp
  · rw [hnone.2] at hbgp
    cases hbgp

theorem vrFlowSetChange (hvalid : s.view.valid fe = true)
    (hlive : (s.entry fe).feFlags.active = true ∧ (s.entry fe).feFlags.deleteMarked = false)
    (hmarked : req.frFlags.active = true → req.frFlags.deleteMarked = false)
    (hfits : s.RequestFits req fe) (hstep : s.vrFlowSetChange cfg o req fe = some (s', result)) :
    BitmapInv s' := by
  obtain ⟨info, hcases⟩ := vrFlowSetChange_cases hstep
  have hinfo : BitmapInv { s with info := info } := ⟨h.bits, h.unused⟩
  have hfits₁ : RequestFits { s with info := info } req fe := { hfits with }
  have hentry : FlowSys.entry { s with info := info } = s.entry := rfl
  rw [← hentry] at hlive
  change (view { s with info := info }).valid fe = true at hvalid
  generalize ({ s with info := info } : FlowSys) = s₁ at *
  rcases hcases with ⟨hactive, ok, hdelete⟩ | ⟨hactive, rfl | ⟨s₂, ok, hschedule, rfl⟩⟩
  · exact hinfo.vrFlowDelete hvalid hactive hfits₁ hdelete
  · exact hinfo.of_lasting (lasting_modify rfl)
  refine of_lasting ?_ (lasting_modify rfl)
  have hflow : ∀ i, ((s₁.attachQueue req fe).entry i).portFlow = (s₁.entry i).portFlow := by
    unfold attachQueue
    split
    · exact modify_portFlow rfl
    · exact fun _ => rfl
  have hframe := s₁.attachQueue_frame req fe
  have hht : (s₁.attachQueue req fe).ht = s₁.ht := congrArg FlowFrame.ht hframe
  have hports : (s₁.attachQueue req fe).linkLocalPorts = s₁.linkLocalPorts := by
    unfold attachQueue
    split <;> rfl
  have hs₃ : BitmapInv (s₁.attachQueue req fe) := hinfo.congr hflow hports hht
  rw [← valid_of_ht hht] at hvalid
  have hlive₃ : ((s₁.attachQueue req fe).entry fe).feFlags.active = true ∧
      ((s₁.attachQueue req fe).entry fe).feFlags.deleteMarked = false :=
    ⟨(congrArg PortFlow.active (hflow fe)).trans hlive.1,
      (congrArg PortFlow.deleteMarked (hflow fe)).trans hlive.2⟩
  have hfits₃ := hfits₁.congr hflow
  exact (hs₃.writeEntry false hvalid (Or.inl hlive₃) hactive (hmarked hactive) hfits₃).of_lasting
    (vrFlowScheduleTransition_lasting hschedule)

/-! ## Work items and callbacks -/

/-- An entry that is not in use owns no bit, and one in use is released by the step. -/
theorem release (hf : (f (s.entry fe)).Unflagged) (hreleases : s.ht.table.Releases ht.table fe)
    (hgone : s.view.valid fe = true → (ht.table.hentry fe).flagValid = false →
      ∀ bit, ¬ (s.entry fe).OwnsBit bit) : BitmapInv { s.modify fe f with ht := ht } := by
  refine h.of_write_unowned fe rfl (fun j hj => ⟨modify_of_ne _ _ f hj, ?_⟩) (fun bit => ?_) ?_
  · exact (hreleases j).1.trans (if_neg hj)
  · cases hvalid : s.view.valid fe with
    | false => exact (h.unused fe hvalid).not_ownsBit bit
    | true => exact hgone hvalid ((hreleases fe).1.trans (if_pos rfl)) bit
  · show ((s.modify fe f).entry fe).Unflagged
    rw [modify_self]
    exact hf

theorem vrFlowWork (hinv : FlowInv cfg s.view) (hcons : flmd.Consistent)
    (hgone : ∀ i, s.Releases s' i → ∀ bit, ¬ (s.entry i).OwnsBit bit)
    (hstep : s.vrFlowWork o flmd = some s') : BitmapInv s' := by
  rcases vrFlowWork_ends hinv hcons hstep with ⟨-, rfl⟩ | ⟨fe, s₁, -, hlasts, hend⟩
  · exact h
  have hsame : (s.entry fe).flushed.portFlow = (s.entry fe).portFlow := by
    unfold FlowEntry.flushed
    split <;> rfl
  have hs₁ : BitmapInv s₁ := (h.modify hsame).of_lasting hlasts.lasting
  rcases hend with rfl | ⟨vfdd, -, -, -, rfl⟩ | ⟨-, ht, hreleases, rfl⟩
  · exact hs₁
  · exact ⟨hs₁.bits, hs₁.unused⟩
  have hentry : (s₁.entry fe).portFlow = (s.entry fe).portFlow :=
    (lasting_portFlow hlasts.lasting fe).trans (modify_portFlow hsame fe)
  refine hs₁.release ⟨rfl, rfl⟩ hreleases fun hvalid hvalid' bit => ?_
  rw [FlowEntry.ownsBit_congr hentry]
  rw [valid_of_ht (lasting_ht hlasts.lasting)] at hvalid
  exact hgone fe ⟨hvalid, hvalid'⟩ bit

end BitmapInv

/-! ## Runs -/

/-- What the bitmap needs of the agent: a request to keep a flow does not carry `DELETE_MARKED`, and
a request for an entry in use fits it. -/
def FlowSys.FitsBitmap (s : FlowSys) : FlowStep → Prop
  | .request req _ =>
    (req.frFlags.active = true → req.frFlags.deleteMarked = false) ∧
      ∀ fe, s.vrFlowGetEntry req.frIndex = some fe → s.RequestFits req fe
  | .packet _ _ _ | .work _ _ | .callback _ _ | .htWork _ _ | .htCallback _ | .setNotReady _ => True

/-- The step fits, and releases no entry whose flow owns a bit. -/
def FlowSys.KeepsBitmap (cfg : FlowConfig) (s : FlowSys) (a : FlowStep) : Prop :=
  s.FitsBitmap a ∧ ∀ s', s.step cfg a = some s' → ∀ i, s.Releases s' i →
    ∀ bit, ¬ (s.entry i).OwnsBit bit

namespace BitmapInv

theorem initial (t : Htable) (notReady : Bool) : BitmapInv (.initial t notReady) :=
  ⟨fun _ => ⟨fun hbit => (nomatch hbit), fun ⟨_, howns⟩ => (nomatch howns.active)⟩,
    fun _ _ => ⟨rfl, rfl⟩⟩

variable (h : BitmapInv s) (hinv : FlowInv cfg s.view)
include h hinv

theorem table {a : HtStep} (ha : a.Rests)
    (hstep : (s.ht.step a).map (fun ht => { s with ht := ht }) = some s') : BitmapInv s' := by
  obtain ⟨ht, hht, rfl⟩ := htStep_eq hstep
  have hvalid := (hinv.table ha hht).2.2
  exact ⟨h.bits, fun i hi => h.unused i ((hvalid i).symm.trans hi)⟩

theorem step {a : FlowStep} (hok : s.KeepsBitmap cfg a) (hstep : s.step cfg a = some s') :
    BitmapInv s' := by
  have hgone := hok.2 s' hstep
  cases a with
  | packet key pkt o =>
    obtain ⟨⟨s₁, result⟩, hlookup, rfl⟩ := Option.map_eq_some_iff.mp hstep
    exact h.vrFlowLookup hinv hlookup
  | request req o =>
    obtain ⟨hmarked, hfits⟩ := hok.1
    obtain ⟨⟨s₁, result⟩, hset, rfl⟩ := Option.map_eq_some_iff.mp hstep
    rcases vrFlowSet_cases hset with rfl | hadd | ⟨fe, hget, -, hvalidReq, hchange⟩
    · exact h
    · exact h.vrFlowSetAdd hinv hmarked hadd
    have hvalid : s.view.valid fe = true := FlowView.valid_of_getEntry hget
    have hlive : ((s.modify fe lock).entry fe).feFlags.active = true ∧
        ((s.modify fe lock).entry fe).feFlags.deleteMarked = false := by
      refine ⟨?_, deleteMarked_of_fits hvalidReq⟩
      rw [modify_self]
      exact hinv.active fe hvalid
    have hlock : BitmapInv (s.modify fe lock) := h.modify rfl
    exact hlock.vrFlowSetChange hvalid hlive hmarked
      ((hfits fe hget).congr (modify_portFlow rfl)) hchange
  | work n o =>
    obtain ⟨flmd, hget, hwork⟩ := step_work hstep
    have hs : BitmapInv { s with works := s.works.eraseIdx n } := ⟨h.bits, h.unused⟩
    exact hs.vrFlowWork (inv_eraseWork hinv n) (hinv.consistent flmd (List.mem_of_getElem? hget))
      hgone hwork
  | callback n o =>
    refine step_callback_rule hinv hstep ⟨h.bits, h.unused⟩
      fun s₁ i f ht h₁ hf hreleases hsame => ?_
    have hnone : (f (s₁.entry i)).Unflagged := by
      rcases hf with ⟨rfl, -⟩ | ⟨rfl, -⟩ <;> exact ⟨rfl, rfl⟩
    refine h₁.release hnone hreleases fun hvalid _ => ?_
    obtain ⟨hentry, hrel⟩ := hsame hvalid
    rw [hentry]
    exact hgone i hrel
  | htWork | htCallback => exact h.table hinv (by trivial) hstep
  | setNotReady notReady => exact h.table hinv (a := .setNotReady notReady) trivial hstep

end BitmapInv

/-- `vr_valid_link_local_port`, for `AF_INET`. -/
def FlowSys.vrValidLinkLocalPort (s : FlowSys) (proto port : Nat) : Bool :=
  if port > 65535 then false
  else
    match linkLocalBit proto port with
    | none => false
    | some bit => s.linkLocalPorts bit

/-- An active IPv4 flow to this protocol and port that is flagged `LINK_LOCAL` or `BGP_SERVICE`. -/
structure FlowSys.FlaggedFlow (s : FlowSys) (proto port i : Nat) : Prop where
  valid : (s.ht.table.hentry i).flagValid = true
  ip : (s.entry i).feType = .ip
  active : (s.entry i).feFlags.active = true
  deleteMarked : (s.entry i).feFlags.deleteMarked = false
  flagged : (s.entry i).feFlags.linkLocal = true ∨ (s.entry i).feFlags.bgpService = true
  proto : flowProto (s.entry i).feKey = proto
  port : flowDportHost (s.entry i).feKey = port

theorem BitmapInv.ownsBit_iff_flaggedFlow (h : BitmapInv s) (hport : port < 65536)
    (hbit : FlowSys.linkLocalBit proto port = some bit) :
    (s.entry i).OwnsBit bit ↔ s.FlaggedFlow proto port i := by
  constructor
  · intro howns
    have hvalid : (s.ht.table.hentry i).flagValid = true := by
      cases hvalid : s.view.valid i with
      | false => exact absurd howns ((h.unused i hvalid).not_ownsBit bit)
      | true => exact hvalid
    obtain ⟨hproto, hdport⟩ := linkLocalBit_inj (flowDportHost_lt _) hport howns.portBit hbit
    exact ⟨hvalid, howns.ip, howns.active, howns.deleteMarked, howns.flagged, hproto, hdport⟩
  · intro hflow
    refine ⟨hflow.ip, hflow.active, hflow.deleteMarked, hflow.flagged, ?_⟩
    unfold FlowEntry.portBit
    rw [hflow.proto, hflow.port]
    exact hbit

/-- In every state reached by a run in which no bit is cleared that another flow owns, no flow with
`BGP_SERVICE` alone loses its flag or is deleted, and no flow that owns a bit is evicted, the bit of
a protocol and port is set if and only if there is an active IPv4 flow to them that is flagged
`LINK_LOCAL` or `BGP_SERVICE`. -/
theorem link_local_bitmap {entries oentries : Nat} {t : Htable}
    (ht : FlowTableCreated entries oentries t) {cfg : FlowConfig} {notReady : Bool}
    {as : List FlowStep} {s : FlowSys}
    (hok : StepsMeet (FlowSys.step cfg) (FlowSys.KeepsBitmap cfg) (.initial t notReady) as)
    (hrun : runSteps (FlowSys.step cfg) (.initial t notReady) as = some s) (proto port : Nat)
    (hproto : proto = vrIpProtoTcp ∨ proto = vrIpProtoUdp) :
    s.vrValidLinkLocalPort proto port = true ↔ ∃ i, s.FlaggedFlow proto port i := by
  obtain ⟨-, hbitmap⟩ := runSteps_invariant_of_meet
    (I := fun s : FlowSys => FlowInv cfg s.view ∧ BitmapInv s)
    (fun s a s' h hok hstep => ⟨step_inv h.1 hstep, h.2.step h.1 hok hstep⟩)
    ⟨ht.inv cfg notReady, .initial t notReady⟩ hok hrun
  have hbit : ∃ bit, linkLocalBit proto port = some bit := by
    rcases hproto with rfl | rfl <;> exact ⟨_, rfl⟩
  obtain ⟨bit, hbit⟩ := hbit
  unfold vrValidLinkLocalPort
  rw [hbit]
  by_cases hport : port > 65535
  · rw [if_pos hport]
    refine ⟨fun hfalse => (nomatch hfalse), fun ⟨i, hflow⟩ => ?_⟩
    have hlt := flowDportHost_lt (s.entry i).feKey
    rw [hflow.port] at hlt
    omega
  · rw [if_neg hport]
    exact (hbitmap.bits bit).trans (exists_congr fun i =>
      hbitmap.ownsBit_iff_flaggedFlow (by omega) hbit)

/-- The agent adds a flow to TCP port 256. -/
def addFlagged (sport : Nat) (flags : FlowFlags) : FlowStep :=
  .request (tcpRequest (-1) sport 0 .forward { flags with active := true } (-1)) allSucceed

theorem link_local_bitmap_added : ∃ t s, FlowTableCreated 8 0 t ∧
    runSteps (FlowSys.step smallConfig) (.initial t false) [addFlagged 1 { linkLocal := true }] =
      some s ∧
    s.FlaggedFlow vrIpProtoTcp 256 4 ∧ s.vrValidLinkLocalPort vrIpProtoTcp 256 = true := by
  have hrun := smallEnd_run [addFlagged 1 { linkLocal := true }] rfl
  have hflow : (smallEnd [addFlagged 1 { linkLocal := true }] rfl).FlaggedFlow vrIpProtoTcp 256 4 :=
    ⟨rfl, rfl, rfl, rfl, .inl rfl, rfl, rfl⟩
  have hunused : ∀ i, (initial smallTable false).view.valid i = false :=
    (vrHtableCreate_created smallTable_created.init).1.not_valid
  have hok : StepsMeet (step smallConfig) (FlowSys.KeepsBitmap smallConfig)
      (.initial smallTable false) [addFlagged 1 { linkLocal := true }] := by
    refine ⟨⟨⟨fun _ => rfl, fun fe hget => ?_⟩, fun _ _ i hrel => ?_⟩, fun _ _ => trivial⟩
    · have hvalid : (initial smallTable false).view.valid fe = true :=
        FlowView.valid_of_getEntry hget
      cases (hunused fe).symm.trans hvalid
    · cases (hunused i).symm.trans hrel.1
  exact ⟨smallTable, _, smallTable_created, hrun, hflow,
    (link_local_bitmap smallTable_created hok hrun vrIpProtoTcp 256 (Or.inl rfl)).mpr ⟨4, hflow⟩⟩

/-! ## Bits that are wrong -/

/-- The agent deletes a flow to the BGP service, and its entry is released. -/
def bgpServiceRun : List FlowStep :=
  [addFlagged 1 { bgpService := true },
    .request (tcpRequest 4 1 1 .forward {} (-1)) allSucceed,
    .work 1 allSucceed]

/-- A RST closes a link-local flow, and it is evicted. -/
def evictedRun : List FlowStep :=
  [addFlagged 1 { linkLocal := true },
    .packet (tcpKey 1) (tcpPacket true) allSucceed,
    .work 1 allSucceed,
    .callback 0 allSucceed]

/-- The agent adds two link-local flows to one port, and deletes the first. -/
def sharedPortRun : List FlowStep :=
  [addFlagged 1 { linkLocal := true },
    addFlagged 2 { linkLocal := true },
    .request (tcpRequest 4 1 1 .forward {} (-1)) allSucceed]

/-- No entry is a flagged flow where all eight are unused. -/
theorem smallEnd_no_flaggedFlow {h}
    (hsize : (smallEnd as h).ht.table.htHentries + (smallEnd as h).ht.table.htOentries = 8)
    (hunused : ∀ i < 8, ((smallEnd as h).ht.table.hentry i).flagValid = false) (i : Nat) :
    ¬ (smallEnd as h).FlaggedFlow proto port i := by
  intro hflow
  have hbound := (run_inv smallTable_created (smallEnd_run as h)).keyed.bound i hflow.valid
  cases (hunused i (hsize ▸ hbound)).symm.trans hflow.valid

/-- A deleted flow with `BGP_SERVICE` and an evicted flow leave their bit set, with no flow behind
it. The bit that two flows share is cleared with the first of them. -/
theorem link_local_bitmap_wrong :
    (∀ as ∈ [bgpServiceRun, evictedRun], ∃ t s, FlowTableCreated 8 0 t ∧
      runSteps (FlowSys.step smallConfig) (.initial t false) as = some s ∧
      s.vrValidLinkLocalPort vrIpProtoTcp 256 = true ∧
      ∀ i, ¬ s.FlaggedFlow vrIpProtoTcp 256 i) ∧
    ∃ t s, FlowTableCreated 8 0 t ∧
      runSteps (FlowSys.step smallConfig) (.initial t false) sharedPortRun = some s ∧
      s.vrValidLinkLocalPort vrIpProtoTcp 256 = false ∧ s.FlaggedFlow vrIpProtoTcp 256 0 := by
  constructor
  · intro as has
    rw [List.mem_pair] at has
    rcases has with rfl | rfl <;>
    exact ⟨smallTable, _, smallTable_created, smallEnd_run _ rfl, by decide +kernel,
      smallEnd_no_flaggedFlow rfl (by decide +kernel)⟩
  · exact ⟨smallTable, _, smallTable_created, smallEnd_run sharedPortRun rfl, by decide +kernel,
      rfl, rfl, rfl, rfl, .inl rfl, rfl, rfl⟩

end VRouter
