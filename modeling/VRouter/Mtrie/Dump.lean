import VRouter.Lib.Paging
import VRouter.Mtrie.LookupShift

/-!
# VRouter — dumping a route table

A dump sends the slots of a route tree to user space in pages. A page ends when its buffer is
full; the request for the next page carries the prefix and the length of the last route received,
and `mtrie_dump_entry` descends along that marker before it goes on behind it.

* `leaves` — the slots of a tree that hold a nexthop, in the order of their addresses
  (`mem_leaves`, `leaves_ascending`);
* `mtrieDumpEntry_all` — without a marker the walk encodes `leaves`;
* `mtrieDumpEntry_marker` — with the marker of a leaf it encodes `leavesAfter`, what comes behind;
* `vrRouteDump_pages` — so the pages of a dump, put together, are the leaves of the tree.

The buffer of a page is modelled by the number of routes it has room for, which is whatever the
encoder makes it.
-/

namespace VRouter

open LongestMatch

/-! ## Data model -/

/-- What a dump reads of its request. -/
structure RouteDumpReq where
  rtrVrfId : Nat
  rtrFamily : Family
  rtrPrefixSize : Nat
  rtrMarker : List Octet
  rtrMarkerPlen : Nat

/-- A route as a dump sends it. -/
structure RouteResp where
  rtrVrfId : Nat
  rtrFamily : Family
  rtrPrefix : List Octet
  rtrPrefixSize : Nat
  rtrPrefixLen : Nat
  rtrLabelFlags : Nat
  rtrLabel : Nat
  rtrNhId : Nat
  rtrIndex : Nat
  rtrMac : Option (List Octet)
  rtrReplacePlen : Nat

/-- `struct vr_message_dumper`: whether the walk is past the marker, how many more routes the
buffer has room for, `VR_MESSAGE_DUMP_INCOMPLETE`, and the routes in the buffer. -/
structure RouteDumper where
  dumpBeenToMarker : Bool
  room : Nat
  incomplete : Bool
  dumped : List RouteResp

/-- A leaf slot, named by the octets that lead to it, with the nexthop it holds. -/
structure LeafSlot where
  path : List Octet
  nh : Nexthop
  info : EntryInfo

/-! ## The functions of the dump -/

/-- The buffer `rt_prefix` with a prefix copied to its start. -/
def rtPrefixBuf (p : List Octet) : List Octet := p ++ List.replicate (16 - p.length) 0

section

variable (macOf : Nat → List Octet) (req : RouteDumpReq)

/-- `mtrie_dumper_make_response`. `macOf` gives the MAC address that `vr_bridge_lookup` finds for
a bridge index. -/
def mtrieDumperMakeResponse (nh : Nexthop) (info : EntryInfo) (pfx : List Octet)
    (prefixLen : Nat) : RouteResp where
  rtrVrfId := req.rtrVrfId
  rtrFamily := req.rtrFamily
  rtrPrefix := rtPrefixBuf (pfx.take (prefixLen / ipbucketLevelBits))
  rtrPrefixSize := req.rtrPrefixSize
  rtrPrefixLen := prefixLen
  rtrLabelFlags := info.entryLabelFlags
  rtrLabel := info.entryLabel
  rtrNhId := nh.nhId
  rtrIndex := info.entryBridgeIndex
  rtrMac := if info.entryBridgeIndex ≠ vrBeInvalidIndex then
    some (macOf info.entryBridgeIndex) else none
  rtrReplacePlen := info.entryPrefixLen

/-- `mtrie_dumper_route_encode`, which fails when the buffer is full. -/
def mtrieDumperRouteEncode (d : RouteDumper) (resp : RouteResp) : Bool × RouteDumper :=
  if d.room = 0 then (true, { d with incomplete := true })
  else (false, { d with room := d.room - 1, dumped := d.dumped ++ [resp] })

/-- The loop of `mtrie_dump_entry` over the slots from `i` on. -/
def dumpSlots (visit : Fin 256 → RouteDumper → Bool × RouteDumper) :
    (j : Nat) → (i : Fin 256) → RouteDumper → Bool × RouteDumper
  | 0, _, d => (false, d)
  | j + 1, i, d =>
    match visit i d with
    | (true, d) => (true, d)
    | (false, d) => dumpSlots visit j (i + 1) d

/-- An entry holds a bucket. -/
def IpBucketEntry.isBucket : IpBucketEntry → Bool
  | .nexthop _ _ => false
  | .nullBucket _ => true
  | .bucket _ _ => true

/-- `mtrie_dump_entry` on an entry whose level is the length of `pfx`; `true` when it returns an
error. Before the marker it is called on buckets only. -/
def mtrieDumpEntry : IpBucketEntry → (pfx : List Octet) → RouteDumper → Bool × RouteDumper
  | .nexthop none _, _, d => (false, d)
  | .nexthop (some nh) info, pfx, d =>
    mtrieDumperRouteEncode d (mtrieDumperMakeResponse macOf req nh info pfx
      (mtrieIpBktInfoInit (pfx.length - 1)).biPfxLen)
  -- the source would follow the null pointer here; no table ever keeps such an entry
  | .nullBucket _, _, d => (false, d)
  | .bucket bkt _, pfx, d =>
    let level := pfx.length
    let size := (mtrieIpBktInfoInit level).biSize
    let rest (i : Fin 256) (left : Nat) (d : RouteDumper) : Bool × RouteDumper :=
      dumpSlots (fun i d => mtrieDumpEntry (bkt i) (pfx ++ [i]) d) left i d
    if d.dumpBeenToMarker then rest 0 size d
    else
      let i : Fin 256 := octet req.rtrMarker level
      let plen := (mtrieIpBktInfoInit level).biPfxLen
      let atMarker := pfx ++ [i] = req.rtrMarker.take (plen / 8) ∧ plen = req.rtrMarkerPlen
      -- take care of overflow: behind the last slot there is nothing, and `i` would wrap
      let done := i.val = size - 1
      if (bkt i).isBucket ∧ ¬ atMarker then
        match mtrieDumpEntry (bkt i) (pfx ++ [i]) d with
        | (true, d) => (true, d)
        | (false, d) => if done then (false, d) else rest (i + 1) (size - (i.val + 1)) d
      else
        let d := { d with dumpBeenToMarker := true }
        if done then (false, d)
        else if atMarker then rest (i + 1) (size - (i.val + 1)) d
        else rest i (size - i.val) d

end

/-- `mtrie_walk`. -/
def mtrieWalk (macOf : Nat → List Octet) (st : RouteTables) (req : RouteDumpReq)
    (d : RouteDumper) : RouteDumper :=
  match vrfidToMtrie st req.rtrVrfId req.rtrFamily with
  | none => d
  | some root => if root.isBucket then (mtrieDumpEntry macOf req root [] d).2 else d

/-- `vr_route_dump` and `mtrie_dump`: one page, with the routes it holds and whether the walk came
to its end. The marker is the prefix and the length of a route. -/
def vrRouteDump (macOf : Nat → List Octet) (st : RouteTables) (vrfId : Nat) (family : Family)
    (prefixSize : Nat) (marker : Option (List Octet × Nat)) (room : Nat) :
    List RouteResp × Bool :=
  let req : RouteDumpReq :=
    { rtrVrfId := vrfId
      rtrFamily := family
      rtrPrefixSize := prefixSize
      rtrMarker := (marker.getD ([], 0)).1.take (rtIpAddrSize family)
      rtrMarkerPlen := (marker.getD ([], 0)).2 }
  let d := mtrieWalk macOf st req ⟨marker.isNone, room, false, []⟩
  (d.dumped, !d.incomplete)

/-! ## The leaves of a tree -/

/-- The leaf slots of a tree that hold a nexthop, slot by slot. -/
def leaves : IpBucketEntry → List Octet → List LeafSlot
  | .nexthop none _, _ => []
  | .nexthop (some nh) info, q => [⟨q, nh, info⟩]
  | .nullBucket _, _ => []
  | .bucket bkt _, q => (List.finRange 256).flatMap fun i => leaves (bkt i) (q ++ [i])

/-- The leaves behind the one at the end of a path. -/
def leavesAfter : IpBucketEntry → List Octet → List Octet → List LeafSlot
  | .bucket bkt _, q, i :: t =>
    leavesAfter (bkt i) (q ++ [i]) t ++
      ((List.finRange 256).drop (i.val + 1)).flatMap fun j => leaves (bkt j) (q ++ [j])
  | _, _, _ => []

/-- `leaves` lists exactly the slots that hold a nexthop. -/
theorem mem_leaves {ent : IpBucketEntry} {q : List Octet} {x : LeafSlot} :
    x ∈ leaves ent q ↔
      ∃ t, x.path = q ++ t ∧ slotAt ent t = some (.nexthop (some x.nh) x.info) := by
  induction ent generalizing q with
  | nexthop nh info =>
    cases nh with
    | none =>
      refine ⟨fun h => (List.not_mem_nil h).elim, fun ⟨t, _, h⟩ => ?_⟩
      cases t <;> cases h
    | some nh =>
      rw [leaves, List.mem_singleton]
      constructor
      · rintro rfl
        exact ⟨[], (List.append_nil q).symm, rfl⟩
      rintro ⟨t, hpath, hslot⟩
      cases t with
      | nil =>
        cases hslot
        rw [List.append_nil] at hpath
        cases hpath
        rfl
      | cons i t => cases hslot
  | nullBucket info =>
    refine ⟨fun h => (List.not_mem_nil h).elim, fun ⟨t, _, h⟩ => ?_⟩
    cases t <;> cases h
  | bucket bkt info ih =>
    rw [leaves, List.mem_flatMap]
    constructor
    · rintro ⟨i, -, hx⟩
      obtain ⟨t, hpath, hslot⟩ := (ih i).mp hx
      exact ⟨i :: t, by rw [hpath, List.append_assoc]; rfl, hslot⟩
    rintro ⟨t, hpath, hslot⟩
    cases t with
    | nil => cases hslot
    | cons i t =>
      refine ⟨i, List.mem_finRange i, (ih i).mpr ⟨t, ?_, hslot⟩⟩
      rw [hpath, List.append_assoc]
      rfl

theorem append_cons_lt {l x y : List Octet} {a b : Octet} (h : a < b) :
    l ++ a :: x < l ++ b :: y := by
  induction l with
  | nil => exact List.cons_lt_cons_iff.mpr (Or.inl h)
  | cons c l ih => exact List.cons_lt_cons_iff.mpr (Or.inr ⟨rfl, ih⟩)

/-- **Order of the leaves.** The addresses of the leaves ascend. -/
theorem leaves_ascending (ent : IpBucketEntry) (q : List Octet) :
    (leaves ent q).Pairwise fun x y => rtPrefixBuf x.path < rtPrefixBuf y.path := by
  induction ent generalizing q with
  | nexthop nh info => cases nh <;> simp [leaves]
  | nullBucket info => exact List.Pairwise.nil
  | bucket bkt info ih =>
    rw [leaves, List.pairwise_flatMap]
    refine ⟨fun i _ => ih i (q ++ [i]), (List.pairwise_lt_finRange 256).imp ?_⟩
    -- leaves of different slots differ in the octet of the slot
    intro i j hij x hx y hy
    obtain ⟨t, hx, -⟩ := mem_leaves.mp hx
    obtain ⟨u, hy, -⟩ := mem_leaves.mp hy
    rw [rtPrefixBuf, rtPrefixBuf, hx, hy]
    simp only [List.append_assoc]
    exact append_cons_lt hij

theorem leaves_nodup (ent : IpBucketEntry) (q : List Octet) : (leaves ent q).Nodup := by
  refine (leaves_ascending ent q).imp ?_
  rintro x y hlt rfl
  exact lt_irrefl _ hlt

theorem leaves_split {ent : IpBucketEntry} {q t : List Octet} {nh : Nexthop} {info : EntryInfo}
    (h : slotAt ent t = some (.nexthop (some nh) info)) :
    ∃ A, leaves ent q = A ++ ⟨q ++ t, nh, info⟩ :: leavesAfter ent q t := by
  induction t generalizing ent q with
  | nil =>
    rw [slotAt_nil] at h
    cases h
    exact ⟨[], by rw [List.append_nil]; rfl⟩
  | cons i t ih =>
    cases ent with
    | nexthop | nullBucket => cases h
    | bucket bkt info' =>
      obtain ⟨A, hA⟩ := @ih (bkt i) (q ++ [i]) h
      have hsplit : List.finRange 256 = (List.finRange 256).take i.val ++
          i :: (List.finRange 256).drop (i.val + 1) := by
        have hi : i.val < (List.finRange 256).length := by
          rw [List.length_finRange]
          exact i.isLt
        conv_lhs => rw [← List.take_append_drop i.val (List.finRange 256),
          List.drop_eq_getElem_cons hi]
        rw [List.getElem_finRange]
        rfl
      refine ⟨((List.finRange 256).take i.val).flatMap (fun j => leaves (bkt j) (q ++ [j])) ++ A,
        ?_⟩
      rw [leaves, leavesAfter]
      conv_lhs => rw [hsplit, List.flatMap_append, List.flatMap_cons, hA]
      simp only [List.append_assoc, List.cons_append, List.nil_append]

theorem leavesAfter_eq {ent : IpBucketEntry} {L₁ L₂ : List LeafSlot} {x : LeafSlot}
    (h : leaves ent [] = L₁ ++ x :: L₂) :
    slotAt ent x.path = some (.nexthop (some x.nh) x.info) ∧ leavesAfter ent [] x.path = L₂ := by
  have hmem : x ∈ leaves ent [] := by
    rw [h]
    exact List.mem_append_right _ List.mem_cons_self
  obtain ⟨t, hpath, hslot⟩ := mem_leaves.mp hmem
  subst hpath
  refine ⟨hslot, ?_⟩
  obtain ⟨A, hA⟩ := @leaves_split ent [] _ _ _ hslot
  have hnodup := leaves_nodup ent []
  rw [h, List.nodup_append, List.nodup_cons] at hnodup
  have hnot : x ∉ L₁ := fun hx => hnodup.2.2 x hx x List.mem_cons_self rfl
  exact ((List.append_cons_inj_of_notMem hnot hnodup.2.1.1).mp (h.symm.trans hA)).2.2.symm

/-! ## The walk -/

/-- Encoding one route after the other until one does not fit. -/
def encodeAll (d : RouteDumper) : List RouteResp → Bool × RouteDumper
  | [] => (false, d)
  | resp :: resps =>
    match mtrieDumperRouteEncode d resp with
    | (true, d) => (true, d)
    | (false, d) => encodeAll d resps

theorem encodeAll_append (d : RouteDumper) (l₁ l₂ : List RouteResp) :
    encodeAll d (l₁ ++ l₂) =
      match encodeAll d l₁ with
      | (true, d) => (true, d)
      | (false, d) => encodeAll d l₂ := by
  induction l₁ generalizing d with
  | nil => rfl
  | cons resp l₁ ih =>
    simp only [List.cons_append, encodeAll]
    cases mtrieDumperRouteEncode d resp with
    | mk failed d' => cases failed <;> simp only [ih]

/-- What a page holds after the routes given to it, and whether they all fitted. -/
theorem encodeAll_eq (d : RouteDumper) (l : List RouteResp) :
    (encodeAll d l).2.dumped = d.dumped ++ l.take d.room ∧
      (encodeAll d l).2.incomplete = (d.incomplete || decide (d.room < l.length)) := by
  induction l generalizing d with
  | nil => simp [encodeAll]
  | cons resp l ih =>
    unfold encodeAll mtrieDumperRouteEncode
    by_cases hroom : d.room = 0
    · simp [hroom]
    obtain ⟨room, hr⟩ := Nat.exists_eq_succ_of_ne_zero hroom
    simp only [if_neg hroom]
    have := ih { d with room := d.room - 1, dumped := d.dumped ++ [resp] }
    refine ⟨?_, ?_⟩
    · rw [this.1, hr]
      simp
    · rw [this.2, hr]
      simp

@[simp] theorem encodeAll_beenToMarker (d : RouteDumper) (l : List RouteResp) :
    (encodeAll d l).2.dumpBeenToMarker = d.dumpBeenToMarker := by
  induction l generalizing d with
  | nil => rfl
  | cons resp l ih =>
    unfold encodeAll mtrieDumperRouteEncode
    by_cases hroom : d.room = 0
    · simp [hroom]
    · simp only [if_neg hroom]
      rw [ih]

section

variable {macOf : Nat → List Octet} {req : RouteDumpReq}

/-- The route a dump sends for a leaf. -/
def leafResp (macOf : Nat → List Octet) (req : RouteDumpReq) (x : LeafSlot) : RouteResp :=
  mtrieDumperMakeResponse macOf req x.nh x.info x.path (8 * x.path.length)

/-- The loop over the slots from `i` on encodes their leaves, if each visit encodes those of its
slot. -/
theorem dumpSlots_eq {visit : Fin 256 → RouteDumper → Bool × RouteDumper}
    (leavesOf : Fin 256 → List RouteResp)
    (hvisit : ∀ i d, d.dumpBeenToMarker = true → visit i d = encodeAll d (leavesOf i)) (j : Nat)
    (i : Fin 256) (hij : i.val + j = 256) (d : RouteDumper) (hd : d.dumpBeenToMarker = true) :
    dumpSlots visit j i d = encodeAll d (((List.finRange 256).drop i.val).flatMap leavesOf) := by
  have hi : i.val < (List.finRange 256).length := by
    rw [List.length_finRange]
    exact i.isLt
  induction j generalizing i d with
  | zero =>
    omega
  | succ j ih =>
    rw [List.drop_eq_getElem_cons hi, List.getElem_finRange, List.flatMap_cons, encodeAll_append,
      dumpSlots]
    rw [show Fin.cast List.length_finRange ⟨i.val, hi⟩ = i from rfl, hvisit i d hd]
    have hbeen := encodeAll_beenToMarker d (leavesOf i)
    cases hres : encodeAll d (leavesOf i) with
    | mk failed d' =>
      rw [hres] at hbeen
      cases failed with
      | true => rfl
      | false =>
        by_cases hlast : j = 0
        · subst hlast
          have : (List.finRange 256).drop (i.val + 1) = [] := by
            rw [List.drop_eq_nil_iff, List.length_finRange]
            omega
          rw [this]
          rfl
        have hnext : (i + 1).val = i.val + 1 := by
          rw [Fin.val_add]
          exact Nat.mod_eq_of_lt (by omega)
        have := ih (i + 1) (by omega) d' (hbeen.trans hd)
          (by rw [List.length_finRange]; omega)
        rw [hnext] at this
        exact this

/-- Past the marker, or without one, the walk of an entry encodes its leaves. -/
theorem mtrieDumpEntry_all {ent : IpBucketEntry} {q : List Octet} (hq : q ≠ [] ∨ ent.isBucket)
    {d : RouteDumper} (hd : d.dumpBeenToMarker = true) :
    mtrieDumpEntry macOf req ent q d =
      encodeAll d ((leaves ent q).map (leafResp macOf req)) := by
  induction ent generalizing q d with
  | nexthop nh info =>
    cases nh with
    | none => rfl
    | some nh =>
      have hlen : (mtrieIpBktInfoInit (q.length - 1)).biPfxLen = 8 * q.length := by
        have := List.length_pos_of_ne_nil (hq.resolve_right (by simp [IpBucketEntry.isBucket]))
        rw [biPfxLen_eq]
        omega
      show mtrieDumperRouteEncode d _ = _
      rw [hlen, leaves, List.map_singleton, encodeAll]
      unfold leafResp
      generalize mtrieDumperRouteEncode d _ = res
      obtain ⟨failed, d'⟩ := res
      cases failed <;> rfl
  | nullBucket info => rfl
  | bucket bkt info ih =>
    rw [mtrieDumpEntry, biSize_eq]
    simp only [hd, if_true]
    rw [dumpSlots_eq (fun i => (leaves (bkt i) (q ++ [i])).map (leafResp macOf req))
      (fun i d hd => ih i (Or.inl (by simp)) hd) 256 0 rfl d hd, leaves, List.map_flatMap,
      Fin.val_zero, List.drop_zero]

/-- The rest of a bucket behind slot `i`, in the walk of a bucket. -/
theorem dumpSlots_rest {bkt : Fin 256 → IpBucketEntry} {q : List Octet} {i : Fin 256}
    (hi : i.val ≠ 255) {d : RouteDumper} (hd : d.dumpBeenToMarker = true) :
    dumpSlots (fun i d => mtrieDumpEntry macOf req (bkt i) (q ++ [i]) d) (256 - (i.val + 1))
        (i + 1) d =
      encodeAll d ((((List.finRange 256).drop (i.val + 1)).flatMap
        fun j => leaves (bkt j) (q ++ [j])).map (leafResp macOf req)) := by
  have hnext : (i + 1).val = i.val + 1 := by
    rw [Fin.val_add]
    exact Nat.mod_eq_of_lt (by omega)
  rw [dumpSlots_eq (fun i => (leaves (bkt i) (q ++ [i])).map (leafResp macOf req))
    (fun i d hd => mtrieDumpEntry_all (Or.inl (by simp)) hd) _ _ (by omega) d hd, List.map_flatMap,
    hnext]

/-- The walk that looks for the marker of a leaf encodes the leaves behind it. Induction on the
path of the leaf: in each bucket the walk enters the slot of the next octet, and when it is back
goes on with the slots behind that. -/
theorem mtrieDumpEntry_marker {ent : IpBucketEntry} {q t z : List Octet} {nh : Nexthop}
    {info : EntryInfo} (h : slotAt ent t = some (.nexthop (some nh) info)) (ht : t ≠ [])
    (hm : req.rtrMarker = q ++ t ++ z) (hp : req.rtrMarkerPlen = 8 * (q ++ t).length)
    {d : RouteDumper} (hd : d.dumpBeenToMarker = false) :
    mtrieDumpEntry macOf req ent q d =
      encodeAll { d with dumpBeenToMarker := true }
        ((leavesAfter ent q t).map (leafResp macOf req)) := by
  induction t generalizing ent q d with
  | nil => exact absurd rfl ht
  | cons i t ih =>
    cases ent with
    | nexthop | nullBucket => cases h
    | bucket bkt info' =>
      have hidx : octet req.rtrMarker q.length = i := by
        rw [hm, octet]
        simp
      have hcmp : q ++ [i] = req.rtrMarker.take (8 * (q.length + 1) / 8) := by
        rw [hm, List.append_assoc, List.take_append]
        simp
      have hlast : i.val = 255 → (List.finRange 256).drop (i.val + 1) = [] := by
        intro hi
        rw [hi]
        rfl
      rw [mtrieDumpEntry]
      simp only [hd, Bool.false_eq_true, if_false, hidx, biSize_eq, biPfxLen_eq]
      rw [leavesAfter, List.map_append]
      cases t with
      | nil =>
        -- the slot is the marker's own
        have hslot : bkt i = .nexthop (some nh) info := by
          rw [slotAt, slotAt_nil] at h
          exact Option.some.inj h
        have hat : q ++ [i] = req.rtrMarker.take (8 * (q.length + 1) / 8) ∧
            8 * (q.length + 1) = req.rtrMarkerPlen := by
          refine ⟨hcmp, ?_⟩
          rw [hp, List.length_append, List.length_singleton]
        have hnone : leavesAfter (bkt i) (q ++ [i]) [] = [] := by
          rw [hslot]
          rfl
        rw [if_neg (by rw [hslot]; simp [IpBucketEntry.isBucket]), hnone]
        by_cases hi : i.val = 255
        · rw [if_pos hi, hlast hi]
          rfl
        · rw [if_neg hi, if_pos hat]
          exact dumpSlots_rest hi rfl
      | cons j t =>
        -- the marker is further down
        have hbucket : (bkt i).isBucket = true := by
          rw [slotAt] at h
          cases hb : bkt i with
          | nexthop nh' info'' =>
            rw [hb] at h
            cases h
          | nullBucket | bucket => rfl
        have hnot : ¬ (q ++ [i] = req.rtrMarker.take (8 * (q.length + 1) / 8) ∧
            8 * (q.length + 1) = req.rtrMarkerPlen) := by
          rintro ⟨-, heq⟩
          rw [hp, List.length_append, List.length_cons, List.length_cons] at heq
          omega
        have hinner := @ih (bkt i) (q ++ [i]) h (List.cons_ne_nil j t)
          (by rw [hm]; simp) (by rw [hp]; simp) d hd
        rw [if_pos ⟨hbucket, hnot⟩, hinner, encodeAll_append]
        have hbeen := encodeAll_beenToMarker { d with dumpBeenToMarker := true }
          ((leavesAfter (bkt i) (q ++ [i]) (j :: t)).map (leafResp macOf req))
        cases hres : encodeAll { d with dumpBeenToMarker := true }
            ((leavesAfter (bkt i) (q ++ [i]) (j :: t)).map (leafResp macOf req)) with
        | mk failed d' =>
          rw [hres] at hbeen
          cases failed with
          | true => rfl
          | false =>
            by_cases hi : i.val = 255
            · simp only [if_pos hi, hlast hi]
              rfl
            · simp only [if_neg hi]
              exact dumpSlots_rest hi hbeen

end

/-! ## Pages -/

/-- `x` is a slot of a bucket in the tree of the VRF, and holds a nexthop. -/
def IsLeafSlot (st : RouteTables) (vrf : Nat) (family : Family) (x : LeafSlot) : Prop :=
  x.path ≠ [] ∧ ∃ root, vrfidToMtrie st vrf family = some root ∧
    slotAt root x.path = some (.nexthop (some x.nh) x.info)

/-- The leaf slots of the tree of a VRF. -/
def tableLeaves (st : RouteTables) (vrf : Nat) (family : Family) : List LeafSlot :=
  match vrfidToMtrie st vrf family with
  | none => []
  | some root => if root.isBucket then leaves root [] else []

theorem mem_tableLeaves {st : RouteTables} {vrf : Nat} {family : Family} {x : LeafSlot} :
    x ∈ tableLeaves st vrf family ↔ IsLeafSlot st vrf family x := by
  unfold tableLeaves IsLeafSlot
  cases hroot : vrfidToMtrie st vrf family with
  | none =>
    refine ⟨fun h => (List.not_mem_nil h).elim, ?_⟩
    rintro ⟨-, root, h, -⟩
    cases h
  | some root =>
    simp only
    by_cases hb : root.isBucket = true
    · rw [if_pos hb, mem_leaves]
      constructor
      · rintro ⟨t, hpath, hslot⟩
        subst hpath
        refine ⟨fun hnil => ?_, root, rfl, hslot⟩
        rw [hnil, slotAt_nil] at hslot
        cases hslot
        cases hb
      · rintro ⟨-, root', heq, hslot⟩
        cases heq
        exact ⟨x.path, rfl, hslot⟩
    · rw [if_neg hb]
      refine ⟨fun h => (List.not_mem_nil h).elim, ?_⟩
      rintro ⟨hne, root', heq, hslot⟩
      cases heq
      obtain ⟨i, t, hpath⟩ := List.exists_cons_of_ne_nil hne
      rw [hpath] at hslot
      cases root with
      | nexthop nh info => cases hslot
      | nullBucket | bucket => exact absurd rfl hb

theorem Filled.path_le {levels : Nat} {ent ent' : IpBucketEntry} {t : List Octet}
    (h : Filled levels ent) (ht : slotAt ent t = some ent') : t.length ≤ levels := by
  induction t generalizing levels ent with
  | nil => exact Nat.zero_le _
  | cons i t ih =>
    cases ent with
    | nexthop | nullBucket => cases ht
    | bucket bkt info =>
      have := ih (h.2 i) ht
      have := h.1
      rw [List.length_cons]
      omega

/-- The key by which a reader of the dump asks for the next page. -/
def dumpKey (resp : RouteResp) : List Octet × Nat := (resp.rtrPrefix, resp.rtrPrefixLen)

section

variable {st : RouteTables} (macOf : Nat → List Octet) (vrf : Nat) (family : Family)
  (prefixSize : Nat)

/-- The route a dump sends for a leaf, whatever the page. -/
def dumpResp (x : LeafSlot) : RouteResp :=
  leafResp macOf ⟨vrf, family, prefixSize, [], 0⟩ x

/-- One page of a dump, from the marker of a leaf on or from the start. -/
theorem vrRouteDump_resumes (hst : st.Reachable) :
    Paging.Resumes ((tableLeaves st vrf family).map (dumpResp macOf vrf family prefixSize)) dumpKey
      (vrRouteDump macOf st vrf family prefixSize) := by
  -- a page that has encoded the routes `l`
  have hpage : ∀ (room : Nat) (l : List RouteResp),
      ((encodeAll ⟨true, room, false, []⟩ l).2.dumped,
        !(encodeAll ⟨true, room, false, []⟩ l).2.incomplete) =
      (l.take room, decide (l.length ≤ room)) := by
    intro room l
    rw [(encodeAll_eq _ l).1, (encodeAll_eq _ l).2]
    simp [← decide_not]
  unfold tableLeaves vrRouteDump mtrieWalk
  simp only
  cases hroot : vrfidToMtrie st vrf family with
  | none => exact ⟨fun room => by simp, fun L₁ x L₂ h => by simp at h⟩
  | some root =>
    by_cases hb : root.isBucket = true
    · simp only [hb]
      constructor
      · intro room
        rw [mtrieDumpEntry_all (Or.inr hb) rfl]
        exact hpage room _
      intro L₁ x L₂ hL room
      obtain ⟨A, B, hAB, -, hB⟩ := List.map_eq_append_iff.mp hL
      obtain ⟨y, C, rfl, rfl, rfl⟩ := List.map_eq_cons_iff.mp hB
      obtain ⟨hslot, hafter⟩ := leavesAfter_eq hAB
      have hne : y.path ≠ [] := by
        intro hnil
        rw [hnil, slotAt_nil] at hslot
        cases hslot
        cases hb
      have hlen : y.path.length ≤ rtIpAddrSize family := by
        rw [rtIpAddrSize_eq]
        exact (hst.allFilled.vrfidToMtrie hroot).path_le hslot
      -- the marker is the path of the leaf, filled up with zeros
      have hmarker : (dumpKey (dumpResp macOf vrf family prefixSize y)).1.take
          (rtIpAddrSize family) =
            [] ++ y.path ++ (List.replicate (16 - y.path.length) 0).take
              (rtIpAddrSize family - y.path.length) := by
        show (rtPrefixBuf (y.path.take (8 * y.path.length / ipbucketLevelBits))).take _ = _
        rw [ipbucketLevelBits, Nat.mul_div_cancel_left _ (by decide), List.take_length,
          rtPrefixBuf, List.take_append, List.take_of_length_le hlen, List.nil_append]
      rw [mtrieDumpEntry_marker hslot hne hmarker (by rw [List.nil_append]; rfl) rfl, hafter]
      exact hpage room _
    · simp only [hb]
      exact ⟨fun room => by simp, fun L₁ x L₂ h => by simp at h⟩

/-- **Paged dumps.** The pages of a dump of an unchanging table, put together, are the leaf slots
of its tree that hold a nexthop, each once and with ascending addresses, up to where the room of
the pages ends; and the reader knows from the last page whether that was all. -/
theorem vrRouteDump_pages (hst : st.Reachable) :
    ∃ L : List LeafSlot, (∀ x, x ∈ L ↔ IsLeafSlot st vrf family x) ∧
      L.Pairwise (fun x y => rtPrefixBuf x.path < rtPrefixBuf y.path) ∧ L.Nodup ∧
      ∀ rooms : List Nat,
        let out := Paging.pages dumpKey (vrRouteDump macOf st vrf family prefixSize) rooms none
        out.1 = (L.map (dumpResp macOf vrf family prefixSize)).take rooms.sum ∧
          (out.2 = true ↔ rooms ≠ [] ∧ L.length ≤ rooms.sum) ∧
          (out.2 = true → out.1 = L.map (dumpResp macOf vrf family prefixSize)) := by
  have hasc : (tableLeaves st vrf family).Pairwise
      (fun x y => rtPrefixBuf x.path < rtPrefixBuf y.path) := by
    unfold tableLeaves
    split
    · exact List.Pairwise.nil
    · split
      · exact leaves_ascending _ _
      · exact List.Pairwise.nil
  have hnodup : (tableLeaves st vrf family).Nodup := by
    refine hasc.imp ?_
    rintro x y hlt rfl
    exact lt_irrefl _ hlt
  refine ⟨tableLeaves st vrf family, fun x => mem_tableLeaves, hasc, hnodup, fun rooms => ?_⟩
  have hpages := (vrRouteDump_resumes macOf vrf family prefixSize hst).pages_eq rooms
  rw [hpages]
  refine ⟨rfl, by simp, fun hall => List.take_of_length_le ?_⟩
  exact (of_decide_eq_true hall).2

/-- A dump of the IPv4 table that holds `0.0.0.0/32`, in pages of 300 routes. -/
theorem vrRouteDump_pages_zero :
    ∃ L : List LeafSlot, (∀ x, x ∈ L ↔ IsLeafSlot (zeroTables .inet) 0 .inet x) ∧
      (Paging.pages dumpKey (vrRouteDump (fun _ => []) (zeroTables .inet) 0 .inet 4)
        [300, 300, 300, 300] none).1 =
          (L.map (dumpResp (fun _ => []) 0 .inet 4)).take 1200 := by
  obtain ⟨L, hL, -, -, hpages⟩ :=
    vrRouteDump_pages (fun _ => []) 0 .inet 4 (zeroTables_reachable .inet)
  exact ⟨L, hL, (hpages [300, 300, 300, 300]).1⟩

end

end VRouter
