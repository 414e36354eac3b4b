import Mathlib
import VRouter.Flow.HoldQueue
import VRouter.Flow.FailedRequest
import VRouter.Flow.Forward

/-!
# VRouter — generation ids and stale requests

An entry of the flow table is used for one flow after another. `fe_gen_id` counts the flows, modulo
256, and a request for an entry has to name the generation id and the key of the flow it is for
(`vr_flow_set_req_is_invalid`), so that a request that comes too late meets no other flow.

* `FlowFrame.Inv` — the generation id is the number of incarnations modulo 256, and an entry in use
  has a key as the two families lay it out, under the type of its family;
* `stale_request_rejected` — a request that names an entry as it was in another incarnation is
  rejected and changes nothing, unless the incarnations are congruent modulo 256 and the keys are
  the same.

The second one is for entries that have not changed their family in between. The check reads as many
octets of the addresses as the type of the entry has, and does not compare the families:
`stale_request_accepted` has a request for an IPv6 flow that deletes an IPv4 flow, 256 incarnations
later.
-/

namespace VRouter

open LongestMatch Function

variable {cfg : FlowConfig} {s s' : FlowSys} {o : FlowOutcome} {req : FlowReq} {fe : Nat}
  {v : FlowView}

/-! ## Keys of the two families -/

/-- A key as `vr_inet_fill_flow` or `vr_inet6_fill_flow` lays it out, with the type of its
family. -/
def FormedKey (type : VpType) (key : List Octet) : Prop :=
  ∃ family nhId ip proto sport dport, type = flowVpType family ∧
    key = fillFlow family nhId ip proto sport dport

/-- Packets come with a key of their own family: `vr_flow_lookup` has no other callers than the
lookups of the two families. -/
def FlowStep.Formed : FlowStep → Prop
  | .packet key pkt _ => FormedKey pkt.vpType key
  | .request _ _ | .work _ _ | .callback _ _ | .htWork _ _ | .htCallback _ | .setNotReady _ => True

/-! ## Incarnations and generation ids -/

/-- The generation id of every entry is the number of its incarnations modulo 256, and entries in
use have a key of their family. -/
structure FlowFrame.Inv (F : FlowFrame) : Prop where
  genId : ∀ i, (F.ident i).genId = F.incarnation i % 2 ^ 8
  formed : ∀ i, (F.ht.table.hentry i).flagValid = true →
    FormedKey (F.ident i).type ((F.ident i).key.take (F.ident i).keyLen)

theorem FlowTableCreated.frameInv {entries oentries : Nat} {t : Htable}
    (ht : FlowTableCreated entries oentries t) (notReady : Bool) :
    (FlowSys.initial t notReady).frame.Inv := by
  refine ⟨fun _ => rfl, fun i hvalid => ?_⟩
  have hc := (vrHtableCreate_created ht.init).1
  cases (hc.not_valid i).symm.trans hvalid

namespace FlowSys

theorem activate_genId (e : FlowEntry) : e.activate.feGenId = (e.feGenId + 1) % 2 ^ 8 := by
  unfold FlowEntry.activate
  split
  · rfl
  · split <;> rfl

section

variable (hs : s.frame.Inv)
include hs

theorem release_frameInv {ht : HtSys} (hrel : s.ht.table.Releases ht.table fe)
    {f : FlowEntry → FlowEntry} (hf : (f (s.entry fe)).feGenId = (s.entry fe).feGenId) :
    ({ s.modify fe f with ht := ht } : FlowSys).frame.Inv := by
  refine ⟨fun i => ?_, fun i hvalid => ?_⟩
  · show ((s.modify fe f).entry i).feGenId = s.incarnation i % 2 ^ 8
    have hgenId : (s.entry i).feGenId = s.incarnation i % 2 ^ 8 := hs.genId i
    rcases eq_or_ne i fe with rfl | hi
    · rw [modify_self, hf, hgenId]
    · rw [modify_of_ne _ _ _ hi, hgenId]
  have hvalid : (ht.table.hentry i).flagValid = true := hvalid
  -- what is still in use is another entry
  rw [(hrel i).1] at hvalid
  split at hvalid
  · cases hvalid
  rename_i hi
  show FormedKey ((s.modify fe f).entry i).feType
    (((s.modify fe f).entry i).feKey.take ((s.modify fe f).entry i).feKeyLen)
  rw [modify_of_ne _ _ _ hi]
  exact hs.formed i hvalid

theorem vrFlowWork_frameInv (hinv : FlowInv cfg s.view) {flmd : FlowMd} (hcons : flmd.Consistent)
    (h : s.vrFlowWork o flmd = some s') : s'.frame.Inv := by
  rcases vrFlowWork_ends hinv hcons h with ⟨-, rfl⟩ | ⟨fe, s₁, -, hlasts, hend⟩
  · exact hs
  have hident : (s.entry fe).flushed.ident = (s.entry fe).ident := by
    unfold FlowEntry.flushed
    split <;> rfl
  have hs₁ : s₁.frame.Inv := by
    rw [frame_of_lasting hlasts.lasting, frame_modify hident]
    exact hs
  rcases hend with rfl | ⟨vfdd, -, -, -, rfl⟩ | ⟨-, ht, hreleases, rfl⟩
  · exact hs₁
  · exact hs₁
  · exact release_frameInv hs₁ hreleases rfl

end

section

variable (hs : s.frame.Inv) (hinv : FlowInv cfg s.view)
include hs hinv

/-- An entry is taken into use: its generation id moves on with its incarnations. -/
theorem vrFlowGetFreeEntry_frameInv {key : List Octet} {type : VpType} {needHold : Bool}
    {r : Option Nat} (hformed : FormedKey type key)
    (h : s.vrFlowGetFreeEntry cfg o key type needHold = some (r, s')) : s'.frame.Inv := by
  rcases vrFlowGetFreeEntry_cases h with ⟨-, rfl⟩ | ⟨fe, t, rfl, -, hfree, rfl⟩
  · exact hs
  have hins := hinv.inserts hfree
  refine ⟨fun i => ?_, fun i hvalid => ?_⟩
  · show ((s.modify fe fun e => takenEntry e fe type key needHold).entry i).feGenId =
      update s.incarnation fe (s.incarnation fe + 1) i % 2 ^ 8
    rcases eq_or_ne i fe with rfl | hi
    · have hbefore : (s.entry i).feGenId = s.incarnation i % 2 ^ 8 := hs.genId i
      have hgenId : (takenEntry (s.entry i) i type key needHold).feGenId =
          ((s.entry i).feGenId + 1) % 2 ^ 8 := activate_genId _
      rw [modify_self, update_self]
      omega
    · rw [update_of_ne hi, modify_of_ne _ _ _ hi]
      exact hs.genId i
  · have hvalid : (t.hentry i).flagValid = true := hvalid
    show FormedKey ((s.modify fe fun e => takenEntry e fe type key needHold).entry i).feType
      (((s.modify fe fun e => takenEntry e fe type key needHold).entry i).feKey.take
        ((s.modify fe fun e => takenEntry e fe type key needHold).entry i).feKeyLen)
    rcases eq_or_ne i fe with rfl | hi
    · rw [modify_self]
      show FormedKey type ((key ++ _).take key.length)
      rw [List.take_left']
      · exact hformed
      · rfl
    · rw [modify_of_ne _ _ _ hi]
      exact hs.formed i ((hins.others i hi).1.symm.trans hvalid)

/-! ### Steps and runs -/

theorem vrFlowLookup_frameInv {key : List Octet} {pkt : FlowPacket} {result : FlowResult}
    (hformed : FormedKey pkt.vpType key) (h : s.vrFlowLookup cfg o key pkt = some (s', result)) :
    s'.frame.Inv := by
  rcases vrFlowLookup_cases h with rfl | ⟨fe, -, h⟩ | ⟨fe, s₁, -, hget, h⟩
  · exact hs
  · rw [handlePacket_frame h]
    exact hs
  · rw [handlePacket_frame h, frame_of_kept (vrFlowEntrySetHold_kept _ _ _), frame_modify rfl]
    exact vrFlowGetFreeEntry_frameInv hs hinv hformed hget

theorem vrFlowSet_frameInv {result : Option Errno × FlowReq}
    (h : s.vrFlowSet cfg o req = some (s', result)) : s'.frame.Inv := by
  rcases vrFlowSet_cases h with rfl | h | ⟨fe, -, -, -, h⟩
  · exact hs
  · rcases vrFlowSetAdd_cases h with rfl | ⟨fe, family, s₁, ok, -, -, hget, hschedule⟩
    · exact hs
    · rw [frame_of_lasting (vrFlowScheduleTransition_lasting hschedule),
        frame_of_kept (writeEntry_kept _ _ _)]
      show s₁.frame.Inv
      exact vrFlowGetFreeEntry_frameInv hs hinv ⟨family, _, _, _, _, _, rfl, rfl⟩ hget
  · -- an entry in use stays what it is
    rw [vrFlowSetChange_frame h, frame_modify rfl]
    exact hs

theorem htStep_frameInv {a : HtStep} (ha : a.Rests)
    (h : (s.ht.step a).map (fun ht => { s with ht := ht }) = some s') : s'.frame.Inv := by
  obtain ⟨ht, hht, rfl⟩ := Option.map_eq_some_iff.mp h
  obtain ⟨-, -, hvalid⟩ := hinv.table ha hht
  exact ⟨hs.genId, fun i hi => hs.formed i ((hvalid i).symm.trans hi)⟩

theorem step_frameInv {a : FlowStep} (hformed : a.Formed) (h : s.step cfg a = some s') :
    s'.frame.Inv := by
  cases a with
  | packet key pkt o =>
    obtain ⟨⟨s₁, result⟩, hlookup, rfl⟩ := Option.map_eq_some_iff.mp h
    exact vrFlowLookup_frameInv hs hinv hformed hlookup
  | request req o =>
    obtain ⟨⟨s₁, result⟩, hset, rfl⟩ := Option.map_eq_some_iff.mp h
    exact vrFlowSet_frameInv hs hinv hset
  | work n o =>
    obtain ⟨flmd, hget, h⟩ := step_work h
    have hs' : { s with works := s.works.eraseIdx n }.frame.Inv := hs
    exact vrFlowWork_frameInv hs' (inv_eraseWork hinv n)
      (hinv.consistent flmd (List.mem_of_getElem? hget)) h
  | callback n o =>
    refine step_callback_rule (P := fun s => s.frame.Inv) hinv h hs
      fun s₁ i f ht hs₁ hf hrel _ => ?_
    refine release_frameInv hs₁ hrel ?_
    rcases hf with ⟨rfl, -⟩ | ⟨rfl, -⟩ <;> rfl
  | htWork | htCallback => exact htStep_frameInv hs hinv (by trivial) h
  | setNotReady notReady =>
    exact htStep_frameInv (a := .setNotReady notReady) hs hinv trivial h

theorem run_frameInv {as : List FlowStep} (hformed : ∀ a ∈ as, a.Formed)
    (hrun : runSteps (step cfg) s as = some s') : s'.frame.Inv ∧ FlowInv cfg s'.view := by
  refine runSteps_invariant_of_meet (I := fun s : FlowSys => s.frame.Inv ∧ FlowInv cfg s.view) ?_
    ⟨hs, hinv⟩ (stepsMeet_of_forall hformed) hrun
  rintro s a s' ⟨hs, hinv⟩ ha h
  exact ⟨step_frameInv hs hinv ha h, step_inv hinv h⟩

end

/-! ## Requests for an entry -/

theorem octet_take {l : List Octet} {n i : Nat} (h : i < n) : octet (l.take n) i = octet l i := by
  unfold octet
  rw [List.getD_eq_getElem?_getD, List.getD_eq_getElem?_getD, List.getElem?_take_of_lt h]

theorem le16_eq_iff {m n : Nat} : le16 m = le16 n ↔ m % 2 ^ 16 = n % 2 ^ 16 := by
  unfold le16
  simp only [List.cons.injEq, Fin.mk.injEq, and_true]
  omega

theorem flowIp_fillFlow (family : Family) (nhId : Nat) (ip : List Octet) (proto : Octet)
    (sport dport : Nat) :
    flowIp (fillFlow family nhId ip proto sport dport) (2 * addressLen family) =
      (List.range (2 * addressLen family)).map (octet ip) := by
  refine List.map_congr_left fun j hj => ?_
  have hj : j < 2 * addressLen family := List.mem_range.mp hj
  show octet ([_, _, _, _, _, _, _, _, _, _, _, _] ++ List.map _ _) (12 + j) = octet ip j
  rw [octet, List.getD_append_right _ _ _ _ (Nat.le_add_right 12 j)]
  simp [hj]

/-- If a request names the key of an entry, this is the key `vr_add_flow_req` would fill for the
family of the entry, whatever the family of the request. -/
theorem key_of_matches {e : FlowEntry} (hformed : FormedKey e.feType e.core.key)
    (h : keyMismatch req e = false) :
    ∃ family, e.feType = flowVpType family ∧ e.core.key = reqKey req family := by
  obtain ⟨family, nhId, ip, proto, sport, dport, htype, hkey⟩ := hformed
  have hsize : vrIpAddrSize e.feType = addressLen family := by
    rw [htype]
    cases family <;> rfl
  -- the octets behind the key are those of an older one
  have hoctet : ∀ j, j < 12 + 2 * addressLen family →
      octet e.feKey j = octet (fillFlow family nhId ip proto sport dport) j := by
    intro j hj
    have hlen : e.core.key.length = 12 + 2 * addressLen family := by
      rw [hkey]
      simp [fillFlow, le16]
      omega
    have htake : (e.feKey.take e.feKeyLen).length = 12 + 2 * addressLen family := hlen
    rw [List.length_take] at htake
    rw [← hkey]
    exact (octet_take (by omega)).symm
  unfold keyMismatch at h
  simp only [Bool.or_eq_false_iff, bne_eq_false_iff_eq, hsize] at h
  obtain ⟨⟨⟨⟨hip, hsport⟩, hdport⟩, hnhId⟩, hproto⟩ := h
  have hips : flowIp e.feKey (2 * addressLen family) =
      (List.range (2 * addressLen family)).map (octet ip) := by
    rw [← flowIp_fillFlow family nhId ip proto sport dport]
    refine List.map_congr_left fun j hj => hoctet _ ?_
    have := List.mem_range.mp hj
    omega
  have hsports : le16 sport = le16 req.frFlowSport := by
    rw [le16_eq_iff, hsport, flowSport, hoctet 4 (by omega), hoctet 5 (by omega)]
    show sport % 2 ^ 16 = sport % 256 + 256 * (sport / 256 % 256)
    omega
  have hdports : le16 dport = le16 req.frFlowDport := by
    rw [le16_eq_iff, hdport, flowDport, hoctet 6 (by omega), hoctet 7 (by omega)]
    show dport % 2 ^ 16 = dport % 256 + 256 * (dport / 256 % 256)
    omega
  have hnhIds : le16 nhId = le16 req.frFlowNhId := by
    rw [le16_eq_iff, hnhId, flowNhId, hoctet 8 (by omega), hoctet 9 (by omega),
      hoctet 10 (by omega), hoctet 11 (by omega)]
    show nhId % 2 ^ 16 = nhId % 256 + 256 * (nhId / 256 % 256) + 65536 * 0 + 16777216 * 0
    omega
  have hprotos : proto = req.frFlowProto := by
    rw [flowProto, hoctet 1 (by omega)] at hproto
    exact Fin.ext hproto.symm
  refine ⟨family, htype, ?_⟩
  rw [hkey, reqKey, fillFlow, fillFlow, hsports, hdports, hnhIds, hprotos, ← hips, hip]

/-- A request for an entry in use passes the checks only with the generation id and the key of the
entry. -/
theorem matches_of_refusal (hget : s.vrFlowGetEntry req.frIndex = some fe)
    (hformed : FormedKey (s.entry fe).feType (s.entry fe).core.key) (h : s.refusal cfg req = none) :
    req.frGenId % 2 ^ 8 = (s.entry fe).feGenId ∧ keyMismatch req (s.entry fe) = false := by
  have htype : (s.entry fe).feType = .ip ∨ (s.entry fe).feType = .ip6 := by
    obtain ⟨family, -, -, -, -, -, htype, -⟩ := hformed
    rw [htype]
    cases family with
    | inet => exact Or.inl rfl
    | inet6 => exact Or.inr rfl
  unfold refusal at h
  rw [hget] at h
  dsimp only at h
  split at h
  · cases h
  rename_i e hstart
  obtain ⟨-, rfl⟩ := vrFlowStartModify_eq_some hstart
  unfold vrFlowSetReqIsInvalid at h
  split at h
  · cases h
  rename_i hmatch
  have htype' : (lock (s.entry fe)).feType = .ip ∨ (lock (s.entry fe)).feType = .ip6 := htype
  simp only [reqMismatch, modify_self] at hmatch
  split at hmatch
  · cases hmatch
  split at hmatch
  · cases hmatch
  rename_i hgenId
  split at hmatch
  · cases hmatch
  · rename_i hkey
    exact ⟨not_not.mp hgenId, Bool.eq_false_of_not_eq_true hkey⟩

theorem vrFlowSet_of_absent (hget : s.vrFlowGetEntry req.frIndex = none)
    (hindex : 0 ≤ req.frIndex) : ∃ errno, s.vrFlowSet cfg o req = some (s, some errno, req) := by
  unfold vrFlowSet
  rw [hget]
  dsimp only
  split
  · exact ⟨_, rfl⟩
  rename_i hvalid
  have hactive : req.frFlags.active = false := by
    by_contra hactive
    rw [Bool.not_eq_false] at hactive
    simp only [vrFlowSetReqIsInvalid, reqMismatch, hactive, hindex] at hvalid
    cases hvalid
  refine ⟨.ENOENT, ?_⟩
  unfold vrFlowSetAdd
  rw [if_pos (by rw [hactive]; rfl)]

/-- A request names an entry in use by its index, its generation id and its key. -/
structure Names (s : FlowSys) (req : FlowReq) (i : Nat) : Prop where
  inUse : s.vrFlowGetEntry i = some i
  index : req.frIndex = i
  genId : req.frGenId % 2 ^ 8 = (s.entry i).feGenId
  key : ∃ family, req.frFamily = some family ∧ (s.entry i).feType = flowVpType family ∧
    (s.entry i).core.key = reqKey req family

end FlowSys

/-- Over every run: a request that names an entry as it was in one incarnation is rejected in
another one and changes nothing, unless the two are congruent modulo 256 and have the same key. This
holds if the entry is not in use for the other family by then. -/
theorem stale_request_rejected {entries oentries : Nat} {t : Htable}
    (ht : FlowTableCreated entries oentries t) {notReady : Bool} {as bs : List FlowStep}
    (hformed : ∀ a ∈ as ++ bs, a.Formed) {s₁ s₂ : FlowSys} {i : Nat}
    (hfirst : runSteps (FlowSys.step cfg) (.initial t notReady) as = some s₁)
    (hnames : s₁.Names req i) (hsecond : runSteps (FlowSys.step cfg) s₁ bs = some s₂)
    (hfamily : s₂.vrFlowGetEntry i = some i → (s₂.entry i).feType = (s₁.entry i).feType)
    (o : FlowOutcome) :
    (∃ errno, s₂.vrFlowSet cfg o req = some (s₂, some errno, req)) ∨
      (s₂.incarnation i % 256 = s₁.incarnation i % 256 ∧
        (s₂.entry i).core.key = (s₁.entry i).core.key) := by
  obtain ⟨hframe₁, hinv₁⟩ := FlowSys.run_frameInv (ht.frameInv notReady) (ht.inv cfg notReady)
    (fun a ha => hformed a (List.mem_append_left _ ha)) hfirst
  obtain ⟨hframe₂, hinv₂⟩ := FlowSys.run_frameInv hframe₁ hinv₁
    (fun a ha => hformed a (List.mem_append_right _ ha)) hsecond
  have hgetReq : s₂.vrFlowGetEntry req.frIndex = s₂.vrFlowGetEntry i := by rw [hnames.index]
  cases hget : s₂.vrFlowGetEntry i with
  | none =>
    refine Or.inl (FlowSys.vrFlowSet_of_absent (hgetReq.trans hget) ?_)
    rw [hnames.index]
    exact Int.natCast_nonneg i
  | some fe =>
    obtain rfl : fe = i := by
      have := FlowSys.eq_of_vrFlowGetEntry hget
      omega
    cases hrefusal : s₂.refusal cfg req with
    | some errno => exact Or.inl ⟨errno, FlowSys.vrFlowSet_of_refusal hrefusal⟩
    | none =>
      have hformed₂ := hframe₂.formed fe (FlowView.valid_of_getEntry (v := s₂.view) hget)
      obtain ⟨hgenId, hkey⟩ := FlowSys.matches_of_refusal (hgetReq.trans hget) hformed₂ hrefusal
      refine Or.inr ⟨?_, ?_⟩
      · calc
          s₂.incarnation fe % 256 = (s₂.entry fe).feGenId := (hframe₂.genId fe).symm
          _ = req.frGenId % 2 ^ 8 := hgenId.symm
          _ = (s₁.entry fe).feGenId := hnames.genId
          _ = s₁.incarnation fe % 256 := hframe₁.genId fe
      obtain ⟨family, -, htype₁, hkey₁⟩ := hnames.key
      obtain ⟨family', htype₂, hkey₂⟩ := FlowSys.key_of_matches hformed₂ hkey
      -- with the same family, the request names one key
      have hsame : family' = family := by
        have htypes := htype₂.symm.trans ((hfamily hget).trans htype₁)
        cases family <;> cases family' <;> first | rfl | cases htypes
      rw [hkey₁, hkey₂, hsame]

/-! ## A flow of the other family

An IPv6 flow and an IPv4 flow on the small table. The addresses of the second are the first eight
octets of the addresses of the first, and all else is the same, so that both get the first entry of
the second bucket, entry 4. -/

open FlowSys

def pairRequest (family : Family) (index : Int) (genId : Nat) (flags : FlowFlags) : FlowReq :=
  { tcpRequest index 1 genId .forward flags (-1) with
    frFamily := some family
    frFlowIp := [10, 0, 0, 1, 10, 0, 0, 2] }

def pairKey (family : Family) : List Octet := fillFlow family 1 [10, 0, 0, 1, 10, 0, 0, 2] 6 1 1

/-- A flow is added. There is no memory for the work item, which has nothing to do. -/
def addPair (family : Family) : FlowStep :=
  .request (pairRequest family (-1) 0 { active := true }) noWork

/-- The IPv6 flow is deleted, and the entry reset. -/
def deletePair (genId : Nat) : List FlowStep :=
  [.request (pairRequest .inet6 4 genId {}) allSucceed, .work 0 allSucceed]

/-- The table with entry 4 in use. -/
def usedTable : Htable :=
  (smallTable.modify 4 fun e =>
    { e with flagValid := true, hentryBucketIndex := vrInvalidHentryIndex }).addUsedEntries 1

theorem getEntry_usedTable (h : s.ht = .initial usedTable false) : s.vrFlowGetEntry 4 = some 4 := by
  unfold vrFlowGetEntry
  rw [h]
  decide

/-- The entry while it is in use for one of the flows. Behind the key of the IPv4 flow there is what
is left of the other. -/
def pairEntry (family : Family) (genId : Nat) : FlowEntry :=
  { FlowEntry.zeroed.vrInitFlowEntry with
    feKey := pairKey family ++ (pairKey .inet6).drop (pairKey family).length
    feKeyLen := (pairKey family).length
    feGenId := genId
    feAction := .forward
    feFlags := { active := true }
    feEcmpNhIndex := 0
    feType := flowVpType family
    feUdpSrcPort := 49152 }

/-- Entry 4 is in use for one of the flows, in its incarnation `n`, and nothing is scheduled. -/
structure PairInUse (s : FlowSys) (family : Family) (n : Nat) : Prop where
  ht : s.ht = .initial usedTable false
  works : s.works = []
  entry : s.entry 4 = pairEntry family (n % 2 ^ 8)
  incarnation : s.incarnation 4 = n

theorem pairInUse_first :
    ∃ s, FlowSys.step smallConfig (.initial smallTable false) (addPair .inet6) = some s ∧
      PairInUse s .inet6 1 :=
  ⟨_, rfl, rfl, rfl, rfl, rfl⟩

namespace PairInUse

variable {family : Family} {n : Nat}

theorem getEntry (h : PairInUse s family n) : s.vrFlowGetEntry 4 = some 4 :=
  getEntry_usedTable h.ht

/-- Only the first eight octets of the addresses are compared with those of the IPv4 flow: a request
for the IPv6 flow is not refused for either. -/
theorem not_refused (h : PairInUse s family n) {genId : Nat} (hgenId : genId % 2 ^ 8 = n % 2 ^ 8) :
    s.refusal smallConfig (pairRequest .inet6 4 genId {}) = none := by
  have hget : s.vrFlowGetEntry (pairRequest .inet6 4 genId {}).frIndex = some 4 := h.getEntry
  have hstart : (s.entry 4).vrFlowStartModify = some (lock (pairEntry family (n % 2 ^ 8))) := by
    rw [h.entry]
    rfl
  have hmatch : keyMismatch (pairRequest .inet6 4 genId {})
      (lock (pairEntry family (n % 2 ^ 8))) = false := by
    show keyMismatch (pairRequest .inet6 4 0 {}) (pairEntry family 0) = false
    cases family <;> decide
  have hfits : (s.modify 4 fun _ => lock (pairEntry family (n % 2 ^ 8))).reqMismatch
      (pairRequest .inet6 4 genId {}) (some 4) = none := by
    have hsame : ¬ (pairRequest .inet6 4 genId {}).frGenId % 2 ^ 8 ≠
        (lock (pairEntry family (n % 2 ^ 8))).feGenId := not_not.mpr hgenId
    simp only [reqMismatch, modify_self, hmatch, if_neg hsame, Bool.false_eq_true, if_false,
      ite_self]
    rfl
  unfold refusal
  rw [hget]
  dsimp only
  rw [hstart]
  dsimp only
  unfold vrFlowSetReqIsInvalid
  rw [hfits]
  rfl

theorem deleted (h : PairInUse s family n) {genId : Nat} (hgenId : genId % 2 ^ 8 = n % 2 ^ 8) :
    ∃ s' madeFor, s.vrFlowSet smallConfig allSucceed (pairRequest .inet6 4 genId {}) =
        some (s', none, pairRequest .inet6 4 genId {}) ∧
      s'.ht = .initial usedTable false ∧ s'.works = [⟨4, {}, none, madeFor⟩] ∧
      s'.entry 4 = { pairEntry family (n % 2 ^ 8) with
        feAction := .drop
        feFlags := { active := true, modified := true, deleteMarked := true } } ∧
      s'.incarnation 4 = n := by
  rw [(vrFlowSet_of_accepted h.getEntry (h.not_refused hgenId)).1]
  obtain ⟨ht, entry, info, linkLocalPorts, works, callbacks, incarnation⟩ := s
  obtain ⟨rfl, rfl, hentry, rfl⟩ := h
  obtain ⟨entry, rfl⟩ : ∃ f, entry = update f 4
      (pairEntry family (incarnation 4 % 2 ^ 8)) :=
    ⟨entry, (update_eq_self_iff.mpr hentry.symm).symm⟩
  exact ⟨_, _, rfl, rfl, rfl, rfl, rfl⟩

/-- The entry is reset, and either flow then finds no entry of its own and takes the idle one. -/
theorem replaced {madeFor : List (Nat × Nat)} (hht : s.ht = .initial usedTable false)
    (hworks : s.works = [⟨4, {}, none, madeFor⟩]) (hentry : s.entry 4 = { pairEntry .inet6 g with
      feAction := .drop
      feFlags := { active := true, modified := true, deleteMarked := true } }) (family : Family) :
    ∃ s', runSteps (step smallConfig) s [.work 0 allSucceed, addPair family] = some s' ∧
      (s'.ht, s'.works, s'.entry 4, s'.incarnation 4) = (.initial usedTable false, [],
        pairEntry family ((g + 1) % 2 ^ 8), s.incarnation 4 + 1) := by
  obtain ⟨ht, entry, info, linkLocalPorts, works, callbacks, incarnation⟩ := s
  subst hht hworks
  have hupdate : update entry 4 _ = entry := update_eq_self_iff.mpr hentry.symm
  rw [← hupdate, ← Option.map_eq_some_iff]
  cases family
  · cbv
    simp only [update_idem]
  · cbv
    simp only [update_idem]

/-- Either flow has the entry in its next incarnation. -/
theorem next (h : PairInUse s .inet6 n) (family : Family) :
    ∃ s', runSteps (step smallConfig) s (deletePair n ++ [addPair family]) = some s' ∧
      PairInUse s' family (n + 1) := by
  obtain ⟨s₁, madeFor, hset, hht, hworks, hentry, hincarnation⟩ := @deleted s .inet6 n h n rfl
  have hdelete : s.step smallConfig (.request (pairRequest .inet6 4 n {}) allSucceed) =
      some s₁ := by
    unfold step
    dsimp only
    rw [hset]
    rfl
  obtain ⟨s', hrun, hused⟩ := replaced hht hworks hentry family
  rw [show (n % 2 ^ 8 + 1) % 2 ^ 8 = (n + 1) % 2 ^ 8 by omega, hincarnation] at hused
  simp only [Prod.mk.injEq] at hused
  obtain ⟨hht', hworks', hentry', hincarnation'⟩ := hused
  exact ⟨s', runSteps_cons.mpr ⟨s₁, hdelete, hrun⟩, hht', hworks', hentry', hincarnation'⟩

end PairInUse

theorem pair_formed (genId : Nat) (family : Family) :
    ∀ a ∈ deletePair genId ++ [addPair family], a.Formed := by
  simp [deletePair, addPair, FlowStep.Formed]

theorem PairInUse.later {n : Nat} (h : PairInUse s .inet6 n) (k : Nat) :
    ∃ as s', (∀ a ∈ as, a.Formed) ∧ runSteps (step smallConfig) s as = some s' ∧
      PairInUse s' .inet6 (n + k) := by
  induction k with
  | zero => exact ⟨[], s, List.forall_mem_nil _, rfl, h⟩
  | succ k ih =>
    obtain ⟨as, s₁, hformed, hrun, hused⟩ := ih
    obtain ⟨s₂, hnext, hused'⟩ := hused.next .inet6
    exact ⟨_, s₂, List.forall_mem_append.mpr ⟨hformed, pair_formed _ _⟩, runSteps_trans hrun hnext,
      hused'⟩

theorem PairInUse.names {n : Nat} (h : PairInUse s .inet6 n) :
    s.Names (pairRequest .inet6 4 n {}) 4 := by
  refine ⟨h.getEntry, rfl, ?_, .inet6, rfl, ?_, ?_⟩
  · rw [h.entry]
    rfl
  · rw [h.entry]
    rfl
  · rw [h.entry]
    rfl

/-- The IPv6 flow is deleted and added again: the request for the first one is rejected. -/
theorem stale_request_rejected_readded :
    ∃ s₁ s₂, FlowTableCreated 8 0 smallTable ∧
      runSteps (step smallConfig) (.initial smallTable false) [addPair .inet6] = some s₁ ∧
      s₁.Names (pairRequest .inet6 4 1 {}) 4 ∧
      runSteps (step smallConfig) s₁ (deletePair 1 ++ [addPair .inet6]) = some s₂ ∧
      s₂.vrFlowGetEntry 4 = some 4 ∧ s₂.incarnation 4 ≠ s₁.incarnation 4 ∧
      ∀ o, ∃ errno, s₂.vrFlowSet smallConfig o (pairRequest .inet6 4 1 {}) =
        some (s₂, some errno, pairRequest .inet6 4 1 {}) := by
  obtain ⟨s₁, hfirst, hused₁⟩ := pairInUse_first
  obtain ⟨s₂, hrun₂, hused₂⟩ := hused₁.next .inet6
  have hrun₁ : runSteps (step smallConfig) (.initial smallTable false) [addPair .inet6] =
      some s₁ := runSteps_singleton hfirst
  have hother : s₂.incarnation 4 ≠ s₁.incarnation 4 := by
    rw [hused₁.incarnation, hused₂.incarnation]
    decide
  refine ⟨s₁, s₂, smallTable_created, hrun₁, hused₁.names, hrun₂, hused₂.getEntry, hother,
    fun o => ?_⟩
  have hformed : ∀ a ∈ [addPair .inet6] ++ (deletePair 1 ++ [addPair .inet6]), a.Formed :=
    List.forall_mem_append.mpr ⟨List.forall_mem_singleton.mpr trivial, pair_formed 1 .inet6⟩
  have hfamily : s₂.vrFlowGetEntry (4 : Nat) = some 4 →
      (s₂.entry 4).feType = (s₁.entry 4).feType := by
    intro _
    rw [hused₁.entry, hused₂.entry]
    rfl
  refine (stale_request_rejected smallTable_created hformed hrun₁ hused₁.names hrun₂ hfamily
    o).resolve_right fun hsame => ?_
  rw [hused₁.incarnation, hused₂.incarnation] at hsame
  exact absurd hsame.1 (by decide)

/-- A request for the IPv6 flow comes 256 incarnations late, and deletes the IPv4 flow that has the
entry by then. -/
theorem stale_request_accepted :
    ∃ as bs s₁ s₂ s₃, FlowTableCreated 8 0 smallTable ∧ (∀ a ∈ as ++ bs, a.Formed) ∧
      runSteps (step smallConfig) (.initial smallTable false) as = some s₁ ∧
      s₁.Names (pairRequest .inet6 4 1 {}) 4 ∧ runSteps (step smallConfig) s₁ bs = some s₂ ∧
      s₁.incarnation 4 = 1 ∧ s₂.incarnation 4 = 257 ∧
      (s₁.entry 4).core.key = pairKey .inet6 ∧ (s₂.entry 4).core.key = pairKey .inet ∧
      pairKey .inet6 ≠ pairKey .inet ∧
      s₂.vrFlowSet smallConfig allSucceed (pairRequest .inet6 4 1 {}) =
        some (s₃, none, pairRequest .inet6 4 1 {}) ∧
      (s₂.entry 4).feFlags.deleteMarked = false ∧ (s₃.entry 4).feFlags.deleteMarked = true := by
  obtain ⟨s₁, hfirst, hused₁⟩ := pairInUse_first
  obtain ⟨as, s, hformed, hrun, hused⟩ := hused₁.later 255
  obtain ⟨s₂, hnext, hused₂⟩ := hused.next .inet
  obtain ⟨s₃, -, hset, -, -, hentry₃, -⟩ := hused₂.deleted (show 1 % 2 ^ 8 = 257 % 2 ^ 8 by decide)
  refine ⟨[addPair .inet6], as ++ (deletePair 256 ++ [addPair .inet]), s₁, s₂, s₃,
    smallTable_created, ?_, runSteps_singleton hfirst, hused₁.names, runSteps_trans hrun hnext,
    hused₁.incarnation, hused₂.incarnation, ?_, ?_, by decide, hset, ?_, ?_⟩
  · exact List.forall_mem_append.mpr ⟨List.forall_mem_singleton.mpr trivial,
      List.forall_mem_append.mpr ⟨hformed, pair_formed _ _⟩⟩
  · rw [hused₁.entry]
    rfl
  · rw [hused₂.entry]
    rfl
  · rw [hused₂.entry]
    rfl
  · rw [hentry₃]

end VRouter
