import VRouter.Flow.TcpPair

/-!
# VRouter — when a TCP flow is established

`vr_flow_tcp_digest` marks a flow established when a packet of its reverse flow acknowledges it. One
field holds the sequence number of the flow's last SYN or FIN, and one branch serves the ends of
both handshakes: a flow with `SYN_R` or `FIN_R` compares the acknowledgment number with that field
and takes any other number for an acknowledgment.

* `TcpPair.digest_advance`: what one segment does to the flags and fields that matter here. The two
  marks `ESTABLISHED` and `ESTABLISHED_R` are always set together.
* `SideTrace`: what the recorded state says about the segments seen so far. It needs that a FIN
  comes after a SYN and that no acknowledgment is for something before the SYN (`InSequence`).
-/

namespace VRouter

/-! ## One segment -/

namespace TcpPair

/-- A step from `p` to `q` that marks the other direction as established only for the reason
`cause`. -/
structure Advance (p q : TcpPair) (cause : Prop) : Prop where
  established : q.near.flags.established = p.near.flags.established
  synR : q.near.flags.synR = p.near.flags.synR
  finR : q.near.flags.finR = p.near.flags.finR
  farSeq : q.far.seq = p.far.seq
  farEstablishedR : q.far.flags.establishedR = p.far.flags.establishedR
  farEstablished : q.far.flags.established → p.far.flags.established ∨ cause
  paired : (p.near.flags.establishedR ↔ p.far.flags.established) →
    (q.near.flags.establishedR ↔ q.far.flags.established)

variable {p q r : TcpPair} {cause cause' : Prop}

theorem Advance.mono (h : p.Advance q cause) (hcause : cause → cause') : p.Advance q cause' :=
  { h with farEstablished := fun hest => (h.farEstablished hest).imp_right hcause }

theorem Advance.trans (h : p.Advance q cause) (h' : q.Advance r cause) : p.Advance r cause where
  established := h'.established.trans h.established
  synR := h'.synR.trans h.synR
  finR := h'.finR.trans h.finR
  farSeq := h'.farSeq.trans h.farSeq
  farEstablishedR := h'.farEstablishedR.trans h.farEstablishedR
  farEstablished := fun hest => (h'.farEstablished hest).elim h.farEstablished Or.inr
  paired := h'.paired ∘ h.paired

theorem acked_ne {tcp : TcpSegment} (h : p.acked tcp) : tcp.tcpAck ≠ p.far.seq := by
  have heq := beq_iff_eq.mp h
  omega

variable (p) (tcp : TcpSegment)

theorem Advance.refl (cause : Prop) : p.Advance p cause :=
  ⟨rfl, rfl, rfl, rfl, rfl, Or.inl, id⟩

theorem advance_reset (cause : Prop) : p.Advance p.reset cause :=
  ⟨rfl, rfl, rfl, rfl, rfl, Or.inl, id⟩

theorem advance_fin (cause : Prop) : p.Advance (p.fin tcp) cause :=
  ⟨rfl, rfl, rfl, rfl, rfl, Or.inl, id⟩

theorem advance_establish (hcause : cause) : p.Advance p.establish cause :=
  ⟨rfl, rfl, rfl, rfl, rfl, fun _ => Or.inr hcause, fun _ => ⟨fun _ => rfl, fun _ => rfl⟩⟩

/-- Why a segment marks the other direction as established: that direction has sent a SYN or a FIN,
and the acknowledgment number is not the sequence number of it. -/
structure Acknowledges (p : TcpPair) (tcp : TcpSegment) : Prop where
  ack : tcp.ack
  noted : p.near.flags.synR ∨ p.near.flags.finR
  ne : tcp.tcpAck ≠ p.far.seq

theorem advance_syn : p.Advance (p.syn tcp) (p.Acknowledges tcp) := by
  have hset : p.Advance (((p.setSeq (tcp.tcpSeq % 2 ^ 32)).setNear fun x =>
      { x with syn := true }).setFar fun x => { x with synR := true }) (p.Acknowledges tcp) :=
    ⟨rfl, rfl, rfl, rfl, rfl, Or.inl, id⟩
  unfold TcpPair.syn
  dsimp only
  split
  next hguard =>
    obtain ⟨⟨hsynR, hack⟩, hacked⟩ : (p.near.flags.synR = true ∧ tcp.ack = true) ∧
        p.acked tcp = true := by
      rw [← Bool.and_eq_true, ← Bool.and_eq_true]
      exact hguard
    have hcause : p.Acknowledges tcp := ⟨hack, .inl hsynR, acked_ne hacked⟩
    exact hset.trans (advance_establish _ hcause)
  next => exact hset

theorem advance_ack : p.Advance (p.ack tcp) (p.Acknowledges tcp) := by
  unfold TcpPair.ack
  split
  next hguard =>
    obtain ⟨hnoted, hack⟩ := Bool.and_eq_true_iff.mp hguard
    split
    · -- the FIN of the other direction is acknowledged
      dsimp only
      split <;> exact ⟨rfl, rfl, rfl, rfl, rfl, Or.inl, id⟩
    split
    next hne =>
      refine advance_establish p ⟨hack, ?_, bne_iff_ne.mp (Bool.and_eq_true_iff.mp hne).1⟩
      rcases Bool.or_eq_true_iff.mp hnoted with hfinR | hsynR
      · exact .inr hfinR
      · exact .inl (Bool.and_eq_true_iff.mp hsynR).2
    next => exact .refl p _
  next => exact .refl p _

/-- What a segment does: it writes the sequence number of its own direction and marks for the other
one, and establishes the other direction only by acknowledging it. -/
theorem digest_advance : p.Advance (p.digest tcp) (tcp.rst = false ∧ p.Acknowledges tcp) := by
  unfold digest
  split
  next => exact advance_reset p _
  next hrst =>
    have hrst : tcp.rst = false := by simpa using hrst
    have hfirst : p.Advance (if tcp.syn then p.syn tcp else if tcp.fin then p.fin tcp else p)
        (p.Acknowledges tcp) := by
      split
      · exact advance_syn p tcp
      · split
        · exact advance_fin p tcp _
        · exact .refl p _
    refine Advance.mono (hfirst.trans ((advance_ack _ tcp).mono fun hcause => ?_))
      fun hcause => ⟨hrst, hcause⟩
    -- what the acknowledgment is compared with has not changed
    exact ⟨hcause.ack, by rw [← hfirst.synR, ← hfirst.finR]; exact hcause.noted,
      by rw [← hfirst.farSeq]; exact hcause.ne⟩

theorem ack_keeps : (p.ack tcp).near.seq = p.near.seq ∧
    (p.ack tcp).far.flags.synR = p.far.flags.synR ∧
    (p.ack tcp).far.flags.finR = p.far.flags.finR := by
  unfold TcpPair.ack
  split
  · split
    · dsimp only
      split <;> exact ⟨rfl, rfl, rfl⟩
    · split <;> exact ⟨rfl, rfl, rfl⟩
  · exact ⟨rfl, rfl, rfl⟩

theorem syn_writes : (p.syn tcp).near.seq = tcp.tcpSeq % 2 ^ 32 ∧
      (p.syn tcp).far.flags.finR = p.far.flags.finR := by
  unfold TcpPair.syn
  dsimp only
  split <;> exact ⟨rfl, rfl⟩

/-- The marks and the sequence number a segment writes. -/
structure Writes (p q : TcpPair) (tcp : TcpSegment) : Prop where
  /-- Only a SYN leaves its own sequence number behind. -/
  seq : tcp.rst = false → tcp.syn → q.near.seq = tcp.tcpSeq % 2 ^ 32
  keeps : tcp.rst ∨ (tcp.syn = false ∧ tcp.fin = false) → q.near.seq = p.near.seq
  synR : q.far.flags.synR → p.far.flags.synR ∨ (tcp.rst = false ∧ tcp.syn)
  finR : q.far.flags.finR → p.far.flags.finR ∨ (tcp.rst = false ∧ tcp.syn = false ∧ tcp.fin)

theorem digest_writes : p.Writes (p.digest tcp) tcp := by
  unfold digest
  cases hrst : tcp.rst with
  | true =>
    exact ⟨fun h => absurd (hrst.symm.trans h) (by decide), fun _ => rfl, .inl, .inl⟩
  | false =>
    rw [if_neg (by decide)]
    cases hsyn : tcp.syn with
    | true =>
      rw [if_pos rfl]
      obtain ⟨hseq, -, hfinR⟩ := (p.syn tcp).ack_keeps tcp
      obtain ⟨hseq', hfinR'⟩ := p.syn_writes tcp
      refine ⟨fun _ _ => hseq.trans hseq', fun h => ?_, fun _ => .inr ⟨hrst, hsyn⟩, fun h => ?_⟩
      · rcases h with h | h
        · exact absurd (hrst.symm.trans h) (by decide)
        · exact absurd (hsyn.symm.trans h.1) (by decide)
      · rw [hfinR, hfinR'] at h
        exact .inl h
    | false =>
      rw [if_neg (by decide)]
      cases hfin : tcp.fin with
      | true =>
        rw [if_pos rfl]
        obtain ⟨-, hsynR, -⟩ := (p.fin tcp).ack_keeps tcp
        refine ⟨fun _ h => absurd (hsyn.symm.trans h) (by decide), fun h => ?_, fun h => ?_,
          fun _ => .inr ⟨hrst, hsyn, hfin⟩⟩
        · rcases h with h | h
          · exact absurd (hrst.symm.trans h) (by decide)
          · exact absurd (hfin.symm.trans h.2) (by decide)
        · rw [hsynR] at h
          exact .inl h
      | false =>
        rw [if_neg (by decide)]
        obtain ⟨hseq, hsynR, hfinR⟩ := p.ack_keeps tcp
        refine ⟨fun _ h => absurd (hsyn.symm.trans h) (by decide), fun _ => hseq, fun h => ?_,
          fun h => ?_⟩
        · rw [hsynR] at h
          exact .inl h
        · rw [hfinR] at h
          exact .inl h

end TcpPair

/-! ## The segments of a connection -/

namespace FlowSys

def TcpDirection.opposite : TcpDirection → TcpDirection
  | .forward => .reverse
  | .reverse => .forward

/-- The segments that are looked at, in order. -/
def segments (s : FlowSys) (fe rfe : Nat) (pkts : List (TcpDirection × FlowPacket)) :
    List (TcpDirection × TcpSegment) :=
  pkts.filterMap fun x => (s.digestedSegment (x.1.entry fe rfe) x.2).map fun tcp => (x.1, tcp)

end FlowSys

open FlowSys (TcpDirection)

namespace TcpPair

/-- A segment of either direction; `near` is the forward one. -/
def digestIn (p : TcpPair) : TcpDirection × TcpSegment → TcpPair
  | (.forward, tcp) => p.digest tcp
  | (.reverse, tcp) => (p.swap.digest tcp).swap

end TcpPair

namespace FlowSys

variable {s : FlowSys} {fe rfe : Nat}

theorem tcpPair_swap (s : FlowSys) (fe rfe : Nat) :
    s.tcpPair rfe fe = (s.tcpPair fe rfe).swap := rfl

theorem LinkedPair.digestIn (h : s.LinkedPair fe rfe) (d : TcpDirection) (pkt : FlowPacket) :
    (s.vrFlowTcpDigest (d.entry fe rfe) pkt).LinkedPair fe rfe ∧
      (∀ i, ((s.vrFlowTcpDigest (d.entry fe rfe) pkt).entry i).feKey = (s.entry i).feKey) ∧
      (s.vrFlowTcpDigest (d.entry fe rfe) pkt).tcpPair fe rfe =
        (s.digestedSegment (d.entry fe rfe) pkt).elim (s.tcpPair fe rfe) fun tcp =>
          (s.tcpPair fe rfe).digestIn (d, tcp) := by
  -- TCP states are no part of the key
  have hkey : ∀ {fe rfe : Nat} (_ : fe ≠ rfe) (p : TcpPair) (i : Nat),
      ((s.setTcpPair fe rfe p).entry i).feKey = (s.entry i).feKey := by
    intro fe rfe hne p i
    rcases eq_or_ne i fe with rfl | hfe
    · rw [setTcpPair_near hne]
    · rcases eq_or_ne i rfe with rfl | hrfe
      · rw [setTcpPair_far hne]
      · rw [setTcpPair_other hfe hrfe]
  cases d with
  | forward =>
    rw [TcpDirection.entry, h.vrFlowTcpDigest pkt]
    cases s.digestedSegment fe pkt with
    | none => exact ⟨h, fun _ => rfl, rfl⟩
    | some tcp => exact ⟨h.setTcpPair _, hkey h.ne _, tcpPair_setTcpPair h.ne⟩
  | reverse =>
    rw [TcpDirection.entry, h.swap.vrFlowTcpDigest pkt]
    cases s.digestedSegment rfe pkt with
    | none => exact ⟨h, fun _ => rfl, rfl⟩
    | some tcp =>
      refine ⟨(h.swap.setTcpPair _).swap, hkey h.ne.symm _, ?_⟩
      rw [Option.elim_some, tcpPair_swap _ rfe fe,
        tcpPair_setTcpPair h.ne.symm]
      rfl

theorem LinkedPair.tcpPair_digestPackets (pkts : List (TcpDirection × FlowPacket)) :
    ∀ {s : FlowSys}, s.LinkedPair fe rfe → (s.digestPackets fe rfe pkts).tcpPair fe rfe =
      (s.segments fe rfe pkts).foldl TcpPair.digestIn (s.tcpPair fe rfe) := by
  induction pkts with
  | nil => exact fun _ => rfl
  | cons x pkts ih =>
    intro s h
    obtain ⟨hlinked, hkey, hpair⟩ := h.digestIn x.1 x.2
    -- which packets are looked at depends on the keys only
    have hsegments : (s.vrFlowTcpDigest (x.1.entry fe rfe) x.2).segments fe rfe pkts =
        s.segments fe rfe pkts := by
      unfold segments digestedSegment FlowEntry.isFatFlow
      simp only [hkey]
    have hcons : s.segments fe rfe (x :: pkts) =
        ((s.digestedSegment (x.1.entry fe rfe) x.2).map fun tcp => (x.1, tcp)).toList ++
          s.segments fe rfe pkts := by
      unfold segments
      rw [List.filterMap_cons]
      cases s.digestedSegment (x.1.entry fe rfe) x.2 with
      | none | some => rfl
    have hrest := ih hlinked
    rw [hsegments, hpair] at hrest
    rw [hcons]
    refine hrest.trans ?_
    cases s.digestedSegment (x.1.entry fe rfe) x.2 with
    | none | some => rfl

end FlowSys

/-! ## What has been seen -/

/-- `ack` lies behind `seq` in the order of sequence numbers, in which `2 ^ 31` numbers are behind
any one. -/
def seqBeyond (seq ack : Nat) : Prop :=
  0 < (ack + (2 ^ 32 - seq % 2 ^ 32)) % 2 ^ 32 ∧
    (ack + (2 ^ 32 - seq % 2 ^ 32)) % 2 ^ 32 < 2 ^ 31

instance (seq ack : Nat) : Decidable (seqBeyond seq ack) := inferInstanceAs (Decidable (_ ∧ _))

/-- A SYN was seen in direction `d`, and later a segment of the other direction that acknowledges a
sequence number behind it. -/
def SynAcked (d : TcpDirection) (segs : List (TcpDirection × TcpSegment)) : Prop :=
  ∃ before syn between ack after,
    segs = before ++ (d, syn) :: (between ++ (d.opposite, ack) :: after) ∧
      syn.rst = false ∧ syn.syn ∧ ack.rst = false ∧ ack.ack ∧ seqBeyond syn.tcpSeq ack.tcpAck

/-- The sequence number of the last SYN of a direction, and whether a FIN came after it. -/
structure SynTrack where
  syn : Option Nat
  fin : Bool

/-- `x` is seen. -/
def SynTrack.see (d : TcpDirection) (t : SynTrack) (x : TcpDirection × TcpSegment) : SynTrack :=
  if x.1 ≠ d ∨ x.2.rst then t
  else if x.2.syn then ⟨some (x.2.tcpSeq % 2 ^ 32), false⟩
  else if x.2.fin then { t with fin := true }
  else t

def synTrack (d : TcpDirection) (segs : List (TcpDirection × TcpSegment)) : SynTrack :=
  segs.foldl (SynTrack.see d) ⟨none, false⟩

/-- A segment as TCP sends them: a FIN comes after a SYN, and an acknowledgment is for something
behind the SYN of the other direction, or for nothing yet if there was no FIN since. -/
def SegmentInSequence (segs : List (TcpDirection × TcpSegment)) (x : TcpDirection × TcpSegment) :
    Prop :=
  x.2.rst = false →
    (x.2.syn = false → x.2.fin → (synTrack x.1 segs).syn ≠ none) ∧
    (x.2.ack → ∀ seq ∈ (synTrack x.1.opposite segs).syn, seqBeyond seq x.2.tcpAck ∨
      (x.2.tcpAck = seq ∧ (synTrack x.1.opposite segs).fin = false))

instance (segs : List (TcpDirection × TcpSegment)) (x : TcpDirection × TcpSegment) :
    Decidable (SegmentInSequence segs x) := inferInstanceAs (Decidable (_ → _))

/-- Every one of the segments `segs`, the segments `before` having been seen. -/
def InSequence (before : List (TcpDirection × TcpSegment)) :
    List (TcpDirection × TcpSegment) → Prop
  | [] => True
  | x :: segs => SegmentInSequence before x ∧ InSequence (before ++ [x]) segs

instance decidableInSequence : ∀ (before segs : List (TcpDirection × TcpSegment)),
    Decidable (InSequence before segs)
  | _, [] => inferInstanceAs (Decidable True)
  | before, x :: segs =>
    have := decidableInSequence (before ++ [x]) segs
    inferInstanceAs (Decidable (_ ∧ _))

variable {x : TcpDirection × TcpSegment} {p : TcpPair}

section

variable {d : TcpDirection} {segs : List (TcpDirection × TcpSegment)}

theorem synTrack_concat (d : TcpDirection) (segs : List (TcpDirection × TcpSegment))
    (x : TcpDirection × TcpSegment) : synTrack d (segs ++ [x]) = (synTrack d segs).see d x := by
  unfold synTrack
  rw [List.foldl_append]
  rfl

variable {t : SynTrack} {seq : Nat}

theorem SynTrack.see_of_ne (h : x.1 ≠ d) : t.see d x = t := by
  unfold see
  rw [if_pos (.inl h)]

theorem SynTrack.see_of_rst (h : x.2.rst) : t.see d x = t := by
  unfold see
  rw [if_pos (.inr h)]

theorem SynTrack.see_syn_ne (h : t.syn ≠ none) (x : TcpDirection × TcpSegment) :
    (t.see d x).syn ≠ none := by
  unfold see
  split
  · exact h
  · split
    · exact Option.some_ne_none _
    · split <;> exact h

theorem synTrack_syn (h : (synTrack d segs).syn = some seq) :
    ∃ before syn after, segs = before ++ (d, syn) :: after ∧ syn.rst = false ∧ syn.syn ∧
      seq = syn.tcpSeq % 2 ^ 32 := by
  induction segs using List.reverseRecOn with
  | nil => cases h
  | append_singleton segs x ih =>
    rw [synTrack_concat] at h
    -- either the segment is that SYN, or it was seen before
    have hold : (synTrack d segs).syn = some seq → ∃ before syn after,
        segs ++ [x] = before ++ (d, syn) :: after ∧ syn.rst = false ∧ syn.syn ∧
          seq = syn.tcpSeq % 2 ^ 32 := by
      intro hseq
      obtain ⟨before, syn, after, rfl, hsyn⟩ := ih hseq
      exact ⟨before, syn, after ++ [x], by simp, hsyn⟩
    unfold SynTrack.see at h
    split at h
    · exact hold h
    next hown =>
      obtain ⟨hd, hrst⟩ := not_or.mp hown
      split at h
      next hsyn =>
        refine ⟨segs, x.2, [], ?_, by simpa using hrst, hsyn, (Option.some.inj h).symm⟩
        rw [← not_not.mp hd]
      · split at h <;> exact hold h

theorem SynAcked.concat (h : SynAcked d segs) (x : TcpDirection × TcpSegment) :
    SynAcked d (segs ++ [x]) := by
  obtain ⟨before, syn, between, ack, after, rfl, hrest⟩ := h
  exact ⟨before, syn, between, ack, after ++ [x], by simp, hrest⟩

theorem seqBeyond_mod {ack : Nat} (h : seqBeyond (seq % 2 ^ 32) ack) : seqBeyond seq ack := by
  unfold seqBeyond at h ⊢
  rw [Nat.mod_mod] at h
  exact h

end

/-- What the recorded state of direction `d` says about the segments seen: `own` is its entry and
`other` that of the other direction. -/
structure SideTrace (segs : List (TcpDirection × TcpSegment)) (d : TcpDirection)
    (own other : TcpSide) : Prop where
  noted : other.flags.synR ∨ other.flags.finR → (synTrack d segs).syn ≠ none
  seq : ∀ seq, (synTrack d segs).syn = some seq → (synTrack d segs).fin = false → own.seq = seq
  established : own.flags.established → SynAcked d segs

section

variable {segs : List (TcpDirection × TcpSegment)} {d : TcpDirection} {tcp : TcpSegment}

theorem SideTrace.near (h : SideTrace segs d p.near p.far)
    (hseg : SegmentInSequence segs (d, tcp)) :
    SideTrace (segs ++ [(d, tcp)]) d (p.digest tcp).near (p.digest tcp).far := by
  have hadvance := p.digest_advance tcp
  have hwrites := p.digest_writes tcp
  refine ⟨fun hnoted => ?_, fun seq hsyn hfin => ?_, fun hest => ?_⟩
  · rw [synTrack_concat]
    have hnew : (p.far.flags.synR ∨ p.far.flags.finR) ∨
        (tcp.rst = false ∧ (tcp.syn = true ∨ tcp.syn = false ∧ tcp.fin = true)) := by
      rcases hnoted with hsynR | hfinR
      · rcases hwrites.synR hsynR with hold | ⟨hrst, hsyn⟩
        · exact .inl (.inl hold)
        · exact .inr ⟨hrst, .inl hsyn⟩
      · rcases hwrites.finR hfinR with hold | ⟨hrst, hsyn, hfin⟩
        · exact .inl (.inr hold)
        · exact .inr ⟨hrst, .inr ⟨hsyn, hfin⟩⟩
    rcases hnew with hold | ⟨hrst, hsyn | ⟨hsyn, hfin⟩⟩
    · exact SynTrack.see_syn_ne (h.noted hold) _
    · unfold SynTrack.see
      rw [if_neg (by simp [hrst]), if_pos hsyn]
      exact Option.some_ne_none _
    · exact SynTrack.see_syn_ne ((hseg hrst).1 hsyn hfin) _
  · rw [synTrack_concat] at hsyn hfin
    cases hrst : tcp.rst with
    | true =>
      rw [SynTrack.see_of_rst hrst] at hsyn hfin
      rw [hwrites.keeps (.inl hrst)]
      exact h.seq seq hsyn hfin
    | false =>
      unfold SynTrack.see at hsyn hfin
      rw [if_neg (by simp [hrst])] at hsyn hfin
      cases hsyn' : tcp.syn with
      | true =>
        rw [if_pos hsyn'] at hsyn
        rw [hwrites.seq hrst hsyn']
        exact Option.some.inj hsyn
      | false =>
        rw [if_neg (by simp [hsyn'])] at hsyn hfin
        cases hfin' : tcp.fin with
        | true =>
          rw [if_pos hfin'] at hfin
          exact Bool.noConfusion hfin
        | false =>
          rw [if_neg (by simp [hfin'])] at hsyn hfin
          rw [hwrites.keeps (.inr ⟨hsyn', hfin'⟩)]
          exact h.seq seq hsyn hfin
  · rw [hadvance.established] at hest
    exact (h.established hest).concat _

/-- The other direction, which the segment may acknowledge. -/
theorem SideTrace.far (h : SideTrace segs d.opposite p.far p.near)
    (hseg : SegmentInSequence segs (d, tcp)) :
    SideTrace (segs ++ [(d, tcp)]) d.opposite (p.digest tcp).far (p.digest tcp).near := by
  have hadvance := p.digest_advance tcp
  have hother : d ≠ d.opposite := by
    cases d with
    | forward | reverse => decide
  have htrack : synTrack d.opposite (segs ++ [(d, tcp)]) = synTrack d.opposite segs := by
    rw [synTrack_concat, SynTrack.see_of_ne hother]
  refine ⟨fun hnoted => ?_, fun seq hsyn hfin => ?_, fun hest => ?_⟩
  · rw [htrack]
    rw [hadvance.synR, hadvance.finR] at hnoted
    exact h.noted hnoted
  · rw [htrack] at hsyn hfin
    rw [hadvance.farSeq]
    exact h.seq seq hsyn hfin
  rcases hadvance.farEstablished hest with hold | ⟨hrst, hcause⟩
  · exact (h.established hold).concat _
  obtain ⟨seq, hseq⟩ := Option.ne_none_iff_exists'.mp (h.noted hcause.noted)
  rcases (hseg hrst).2 hcause.ack seq hseq with hbeyond | ⟨heq, hfin⟩
  · obtain ⟨before, syn, after, rfl, hrst', hsyn, rfl⟩ := synTrack_syn hseq
    have hback : d.opposite.opposite = d := by
      cases d with
      | forward | reverse => rfl
    refine ⟨before, syn, after, tcp, [], ?_, hrst', hsyn, hrst, hcause.ack,
      seqBeyond_mod hbeyond⟩
    rw [hback]
    simp
  · -- an acknowledgment of nothing is what the field is compared with
    exact absurd (heq.trans (h.seq seq hseq hfin).symm) hcause.ne

end

/-- Both directions. -/
structure Traced (segs : List (TcpDirection × TcpSegment)) (p : TcpPair) : Prop where
  forward : SideTrace segs .forward p.near p.far
  reverse : SideTrace segs .reverse p.far p.near

theorem Traced.digestIn {segs : List (TcpDirection × TcpSegment)} (h : Traced segs p)
    (hseg : SegmentInSequence segs x) : Traced (segs ++ [x]) (p.digestIn x) := by
  obtain ⟨d, tcp⟩ := x
  cases d with
  | forward => exact ⟨h.forward.near hseg, SideTrace.far h.reverse hseg⟩
  | reverse =>
    exact ⟨SideTrace.far h.forward hseg,
      SideTrace.near h.reverse hseg⟩

theorem Traced.run (segs : List (TcpDirection × TcpSegment)) :
    ∀ {before : List (TcpDirection × TcpSegment)} {p : TcpPair}, Traced before p →
      InSequence before segs → Traced (before ++ segs) (segs.foldl TcpPair.digestIn p) := by
  induction segs with
  | nil =>
    intro before p h _
    rw [List.append_nil]
    exact h
  | cons x segs ih =>
    intro before p h hseq
    rw [show before ++ x :: segs = (before ++ [x]) ++ segs by simp]
    exact ih (h.digestIn hseq.1) hseq.2

/-- The two marks are set together, whatever the segments are. -/
structure Paired (p : TcpPair) : Prop where
  near : p.near.flags.establishedR ↔ p.far.flags.established
  far : p.far.flags.establishedR ↔ p.near.flags.established

theorem Paired.digestIn (h : Paired p) (x : TcpDirection × TcpSegment) : Paired (p.digestIn x) := by
  have hdigest : ∀ {q : TcpPair} (tcp : TcpSegment), Paired q → Paired (q.digest tcp) := by
    intro q tcp hq
    have hadvance := q.digest_advance tcp
    refine ⟨hadvance.paired hq.near, ?_⟩
    rw [hadvance.farEstablishedR, hadvance.established]
    exact hq.far
  obtain ⟨d, tcp⟩ := x
  cases d with
  | forward => exact hdigest tcp h
  | reverse =>
    have hswap := hdigest (q := p.swap) tcp ⟨h.far, h.near⟩
    exact ⟨hswap.far, hswap.near⟩

theorem Paired.run (segs : List (TcpDirection × TcpSegment)) :
    ∀ {p : TcpPair}, Paired p → Paired (segs.foldl TcpPair.digestIn p) := by
  induction segs with
  | nil => exact fun h => h
  | cons x segs ih => exact fun h => ih (h.digestIn x)

/-- Whatever packets a connection sees in whatever order, a flow carries `ESTABLISHED` exactly when
its reverse flow carries `ESTABLISHED_R`. If the segments that are looked at are in sequence, a flow
carries `ESTABLISHED` only if a SYN was seen on it and a later packet of the reverse flow
acknowledged a sequence number behind that of the SYN. -/
theorem tcp_established {s : FlowSys} {fe rfe : Nat} (hlinked : s.LinkedPair fe rfe)
    (hfe : (s.entry fe).feTcpFlags = {}) (hrfe : (s.entry rfe).feTcpFlags = {})
    (pkts : List (TcpDirection × FlowPacket)) :
    let t := s.digestPackets fe rfe pkts
    let f := (t.entry fe).feTcpFlags
    let r := (t.entry rfe).feTcpFlags
    (f.established ↔ r.establishedR) ∧ (r.established ↔ f.establishedR) ∧
      (InSequence [] (s.segments fe rfe pkts) →
        (f.established → SynAcked .forward (s.segments fe rfe pkts)) ∧
        (r.established → SynAcked .reverse (s.segments fe rfe pkts))) := by
  have hpair := hlinked.tcpPair_digestPackets pkts
  have hnear : (s.tcpPair fe rfe).near.flags = {} := hfe
  have hfar : (s.tcpPair fe rfe).far.flags = {} := hrfe
  have hpaired : Paired (s.tcpPair fe rfe) := by
    constructor <;> rw [hnear, hfar]
  have hdone := hpaired.run (s.segments fe rfe pkts)
  rw [← hpair] at hdone
  refine ⟨hdone.far.symm, hdone.near.symm, fun hseq => ?_⟩
  have htraced : Traced [] (s.tcpPair fe rfe) := by
    refine ⟨⟨?_, nofun, ?_⟩, ⟨?_, nofun, ?_⟩⟩
    · rw [hfar]
      nofun
    · rw [hnear]
      nofun
    · rw [hnear]
      nofun
    · rw [hfar]
      nofun
  have htraced' := htraced.run _ hseq
  rw [← hpair] at htraced'
  exact ⟨htraced'.forward.established, htraced'.reverse.established⟩

/-- A packet with the segment `tcp`. -/
def segmentPacket (tcp : TcpSegment) : FlowPacket := { tcpPacket false with tcp := some tcp }

/-- The three packets that open a connection. -/
def tcpHandshake : List (TcpDirection × FlowPacket) :=
  [(.forward, segmentPacket ⟨false, true, false, false, 100, 0, 20, 5⟩),
    (.reverse, segmentPacket ⟨false, true, false, true, 500, 101, 20, 5⟩),
    (.forward, segmentPacket ⟨false, false, false, true, 101, 501, 20, 5⟩)]

theorem tcp_established_handshake :
    ∃ s : FlowSys, s.LinkedPair 0 4 ∧ (s.entry 0).feTcpFlags = {} ∧ (s.entry 4).feTcpFlags = {} ∧
      InSequence [] (s.segments 0 4 tcpHandshake) ∧
      ((s.digestPackets 0 4 tcpHandshake).entry 0).feTcpFlags.established ∧
      SynAcked .forward (s.segments 0 4 tcpHandshake) := by
  obtain ⟨-, -, hacked⟩ := tcp_established linkedRun_linkedPair rfl rfl tcpHandshake
  have hseq : InSequence [] ((smallEnd linkedRun rfl).segments 0 4 tcpHandshake) := by
    decide +kernel
  have hset : (((smallEnd linkedRun rfl).digestPackets 0 4 tcpHandshake).entry
      0).feTcpFlags.established := by
    decide +kernel
  exact ⟨_, linkedRun_linkedPair, rfl, rfl, hseq, hset, (hacked hseq).1 hset⟩

/-- A FIN and an acknowledgment of something else: the flow is established without a SYN. -/
theorem tcp_established_without_syn :
    ∃ s : FlowSys, s.LinkedPair 0 4 ∧ (s.entry 0).feTcpFlags = {} ∧ (s.entry 4).feTcpFlags = {} ∧
      let pkts := [(.forward, segmentPacket ⟨false, false, true, false, 100, 0, 20, 5⟩),
        (.reverse, segmentPacket ⟨false, false, false, true, 500, 90, 20, 5⟩)]
      ((s.digestPackets 0 4 pkts).entry 0).feTcpFlags.established ∧
        ∀ x ∈ s.segments 0 4 pkts, x.2.syn = false := by
  exact ⟨_, linkedRun_linkedPair, rfl, rfl, rfl, by decide +kernel⟩

end VRouter
