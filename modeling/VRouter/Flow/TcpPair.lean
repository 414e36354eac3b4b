import VRouter.Flow.Run

/-!
# VRouter — the two flows of a TCP connection

`vr_flow_tcp_digest` keeps the state of a connection in two flow entries and writes to both for
each packet. On a linked pair of entries it is a function of the two TCP states and the segment
(`TcpPair.digest`, `LinkedPair.vrFlowTcpDigest`). From that function follow the invariant of a
connection, `TcpPair.Inv`, and that flags are only ever set.
-/

namespace VRouter

/-! ## A connection -/

/-- What an entry keeps of its direction of the connection. -/
structure TcpSide where
  flags : FlowTcpFlags
  seq : Nat

/-- Both directions, seen from the one a packet belongs to. -/
structure TcpPair where
  near : TcpSide
  far : TcpSide

variable {p q : TcpPair}

namespace TcpPair

/-- Set flags of the packet's own direction. -/
def setNear (p : TcpPair) (f : FlowTcpFlags → FlowTcpFlags) : TcpPair :=
  { p with near := { p.near with flags := f p.near.flags } }

/-- Set flags of the other direction. -/
def setFar (p : TcpPair) (f : FlowTcpFlags → FlowTcpFlags) : TcpPair :=
  { p with far := { p.far with flags := f p.far.flags } }

def setSeq (p : TcpPair) (seq : Nat) : TcpPair :=
  { p with near := { p.near with seq := seq } }

def swap (p : TcpPair) : TcpPair := ⟨p.far, p.near⟩

def close (p : TcpPair) : TcpPair :=
  (p.setNear fun x => { x with dead := true }).setFar fun x => { x with dead := true }

def reset (p : TcpPair) : TcpPair :=
  ((p.setNear fun x => { x with rst := true }).setFar fun x => { x with rst := true }).close

def establish (p : TcpPair) : TcpPair :=
  (p.setFar fun x => { x with established := true }).setNear fun x =>
    { x with establishedR := true }

/-- The segment acknowledges the last sequence number of the other direction. -/
def acked (p : TcpPair) (tcp : TcpSegment) : Bool := tcp.tcpAck == (p.far.seq + 1) % 2 ^ 32

def syn (p : TcpPair) (tcp : TcpSegment) : TcpPair :=
  let p := ((p.setSeq (tcp.tcpSeq % 2 ^ 32)).setNear fun x => { x with syn := true }).setFar
    fun x => { x with synR := true }
  if p.near.flags.synR && tcp.ack && p.acked tcp then p.establish else p

def fin (p : TcpPair) (tcp : TcpSegment) : TcpPair :=
  let length := ((tcp.length : Int) - 4 * tcp.offset) % 2 ^ 32
  ((p.setSeq ((tcp.tcpSeq + length) % 2 ^ 32).toNat).setNear fun x => { x with fin := true }).setFar
    fun x => { x with finR := true }

def ack (p : TcpPair) (tcp : TcpSegment) : TcpPair :=
  if (p.near.flags.finR || (!p.near.flags.establishedR && p.near.flags.synR)) && tcp.ack then
    if p.acked tcp && p.near.flags.finR then
      let p := p.setFar fun x => { x with halfClose := true }
      if p.near.flags.halfClose then p.close else p
    else if tcp.tcpAck != p.far.seq && !p.near.flags.establishedR then p.establish
    else p
  else p

/-- What a segment does to a connection. -/
def digest (p : TcpPair) (tcp : TcpSegment) : TcpPair :=
  if tcp.rst then p.reset
  else (if tcp.syn then p.syn tcp else if tcp.fin then p.fin tcp else p).ack tcp

/-- The directions die together, by a reset or because both are closed; a direction is closed only
after its FIN, of which the other direction has taken note. -/
structure Inv (p : TcpPair) : Prop where
  finR_near : p.near.flags.finR → p.far.flags.fin
  finR_far : p.far.flags.finR → p.near.flags.fin
  halfClose_near : p.near.flags.halfClose → p.near.flags.fin
  halfClose_far : p.far.flags.halfClose → p.far.flags.fin
  dead : p.near.flags.dead ↔ p.far.flags.dead
  cause : p.near.flags.dead → (p.near.flags.rst ∧ p.far.flags.rst) ∨
    (p.near.flags.halfClose ∧ p.far.flags.halfClose)

section

variable (h : p.Inv)
include h

theorem Inv.swap : p.swap.Inv where
  finR_near := h.finR_far
  finR_far := h.finR_near
  halfClose_near := h.halfClose_far
  halfClose_far := h.halfClose_near
  dead := h.dead.symm
  cause := fun hdead => (h.cause (h.dead.mpr hdead)).imp And.symm And.symm

theorem Inv.reset : p.reset.Inv :=
  { h with
    dead := Iff.rfl
    cause := fun _ => .inl ⟨rfl, rfl⟩ }

theorem Inv.establish : p.establish.Inv := { h with }

theorem Inv.syn (tcp : TcpSegment) : (p.syn tcp).Inv := by
  have hset : (((p.setSeq (tcp.tcpSeq % 2 ^ 32)).setNear fun x => { x with syn := true }).setFar
      fun x => { x with synR := true }).Inv := { h with }
  unfold TcpPair.syn
  dsimp only
  split
  · exact hset.establish
  · exact hset

theorem Inv.fin (tcp : TcpSegment) : (p.fin tcp).Inv :=
  { h with
    finR_far := fun _ => rfl
    halfClose_near := fun _ => rfl }

/-- Closing the other direction: its FIN is what this direction has noted in `FIN_R`. -/
theorem Inv.halfClose (hfin : p.near.flags.finR) :
    (p.setFar fun x => { x with halfClose := true }).Inv :=
  { h with
    halfClose_far := fun _ => h.finR_near hfin
    cause := fun hdead => (h.cause hdead).imp_right fun hclosed => ⟨hclosed.1, rfl⟩ }

theorem Inv.close (hclosed : p.near.flags.halfClose ∧ p.far.flags.halfClose) :
    p.close.Inv :=
  { h with
    dead := Iff.rfl
    cause := fun _ => .inr hclosed }

theorem Inv.ack (tcp : TcpSegment) : (p.ack tcp).Inv := by
  unfold TcpPair.ack
  split
  · split
    next hacked =>
      have hfin : p.near.flags.finR := (Bool.and_eq_true_iff.mp hacked).2
      dsimp only
      split
      next hnear => exact (h.halfClose hfin).close ⟨hnear, rfl⟩
      next => exact h.halfClose hfin
    · split
      · exact h.establish
      · exact h
  · exact h

theorem Inv.digest (tcp : TcpSegment) : (p.digest tcp).Inv := by
  unfold TcpPair.digest
  split
  · exact h.reset
  apply Inv.ack
  split
  · exact h.syn tcp
  · split
    · exact h.fin tcp
    · exact h

end

end TcpPair

/-! ## Flags are only set -/

/-- Every flag of `a` is set in `b`. -/
structure FlowTcpFlags.Le (a b : FlowTcpFlags) : Prop where
  fin : a.fin → b.fin
  halfClose : a.halfClose → b.halfClose
  finR : a.finR → b.finR
  syn : a.syn → b.syn
  synR : a.synR → b.synR
  established : a.established → b.established
  establishedR : a.establishedR → b.establishedR
  rst : a.rst → b.rst
  dead : a.dead → b.dead

namespace TcpPair

theorem le_refl (a : FlowTcpFlags) : a.Le a := ⟨id, id, id, id, id, id, id, id, id⟩

theorem le_trans {a b c : FlowTcpFlags} (h : a.Le b) (h' : b.Le c) : a.Le c :=
  ⟨h'.fin ∘ h.fin, h'.halfClose ∘ h.halfClose, h'.finR ∘ h.finR, h'.syn ∘ h.syn,
    h'.synR ∘ h.synR, h'.established ∘ h.established, h'.establishedR ∘ h.establishedR,
    h'.rst ∘ h.rst, h'.dead ∘ h.dead⟩

/-- Both directions have at least the flags they had. -/
structure Grows (p q : TcpPair) : Prop where
  near : p.near.flags.Le q.near.flags
  far : p.far.flags.Le q.far.flags

theorem Grows.trans {r : TcpPair} (h : p.Grows q) (h' : q.Grows r) : p.Grows r :=
  ⟨le_trans h.near h'.near, le_trans h.far h'.far⟩

variable (p) (tcp : TcpSegment)

theorem Grows.refl : p.Grows p := ⟨le_refl _, le_refl _⟩

theorem grows_close : p.Grows p.close :=
  ⟨⟨id, id, id, id, id, id, id, id, fun _ => rfl⟩, ⟨id, id, id, id, id, id, id, id, fun _ => rfl⟩⟩

theorem grows_reset : p.Grows p.reset :=
  ⟨⟨id, id, id, id, id, id, id, fun _ => rfl, fun _ => rfl⟩,
    ⟨id, id, id, id, id, id, id, fun _ => rfl, fun _ => rfl⟩⟩

theorem grows_establish : p.Grows p.establish :=
  ⟨⟨id, id, id, id, id, id, fun _ => rfl, id, id⟩, ⟨id, id, id, id, id, fun _ => rfl, id, id, id⟩⟩

theorem grows_syn : p.Grows (p.syn tcp) := by
  have hset : p.Grows (((p.setSeq (tcp.tcpSeq % 2 ^ 32)).setNear fun x =>
      { x with syn := true }).setFar fun x => { x with synR := true }) :=
    ⟨⟨id, id, id, fun _ => rfl, id, id, id, id, id⟩, ⟨id, id, id, id, fun _ => rfl, id, id, id, id⟩⟩
  unfold TcpPair.syn
  dsimp only
  split
  · exact hset.trans (grows_establish _)
  · exact hset

theorem grows_fin : p.Grows (p.fin tcp) :=
  ⟨⟨fun _ => rfl, id, id, id, id, id, id, id, id⟩, ⟨id, id, fun _ => rfl, id, id, id, id, id, id⟩⟩

theorem grows_ack : p.Grows (p.ack tcp) := by
  have hhalf : p.Grows (p.setFar fun x => { x with halfClose := true }) :=
    ⟨le_refl _, ⟨id, fun _ => rfl, id, id, id, id, id, id, id⟩⟩
  unfold TcpPair.ack
  split
  · split
    · dsimp only
      split
      · exact hhalf.trans (grows_close _)
      · exact hhalf
    · split
      · exact grows_establish p
      · exact Grows.refl p
  · exact Grows.refl p

theorem grows_digest : p.Grows (p.digest tcp) := by
  unfold TcpPair.digest
  split
  · exact grows_reset p
  refine Grows.trans ?_ (grows_ack _ tcp)
  split
  · exact grows_syn p tcp
  · split
    · exact grows_fin p tcp
    · exact Grows.refl p

end TcpPair

/-! ## The entries of a connection -/

namespace FlowSys

/-- The TCP states of two entries. -/
def tcpPair (s : FlowSys) (fe rfe : Nat) : TcpPair :=
  ⟨⟨(s.entry fe).feTcpFlags, (s.entry fe).feTcpSeq⟩,
    ⟨(s.entry rfe).feTcpFlags, (s.entry rfe).feTcpSeq⟩⟩

/-- The segment `vr_flow_tcp_digest` looks at: packets of fat flows are passed over. -/
def digestedSegment (s : FlowSys) (fe : Nat) (pkt : FlowPacket) : Option TcpSegment :=
  if pkt.vpType ≠ .ip ∧ pkt.vpType ≠ .ip6 then none
  else if (s.entry fe).isFatFlow then none
  else pkt.tcp

/-- The flow module with the TCP states of two entries replaced. -/
def setTcpPair (s : FlowSys) (fe rfe : Nat) (p : TcpPair) : FlowSys :=
  (s.modify fe fun e => { e with feTcpFlags := p.near.flags, feTcpSeq := p.near.seq }).modify rfe
    fun e => { e with feTcpFlags := p.far.flags, feTcpSeq := p.far.seq }

/-- Each of two entries has the other one as its valid reverse flow. -/
structure LinkedPair (s : FlowSys) (fe rfe : Nat) : Prop where
  ne : fe ≠ rfe
  valid : (s.entry fe).feFlags.rflowValid
  rvalid : (s.entry rfe).feFlags.rflowValid
  rflow : s.vrFlowGetEntry (s.entry fe).feRflow = some rfe
  rrflow : s.vrFlowGetEntry (s.entry rfe).feRflow = some fe

variable {rfe fe : Nat} {s : FlowSys}

theorem LinkedPair.swap (h : s.LinkedPair fe rfe) : s.LinkedPair rfe fe :=
  ⟨h.ne.symm, h.rvalid, h.valid, h.rrflow, h.rflow⟩

section

variable {f : FlowEntry → FlowEntry} {i : Nat}

theorem setTcpPair_other (hfe : i ≠ fe) (hrfe : i ≠ rfe) :
    (s.setTcpPair fe rfe p).entry i = s.entry i := by
  unfold setTcpPair
  rw [modify_of_ne _ _ _ hrfe, modify_of_ne _ _ _ hfe]

theorem ext_entry {t : FlowSys} (f : FlowEntry → FlowEntry) (hself : t.entry i = f (s.entry i))
    (hother : ∀ j, j ≠ i → t.entry j = s.entry j) (hrest : t = { s with entry := t.entry }) :
    s.modify i f = t := by
  rw [hrest]
  unfold modify
  congr 1
  funext j
  rcases eq_or_ne j i with rfl | hj
  · rw [Function.update_self, hself]
  · rw [Function.update_of_ne hj, hother j hj]

theorem setTcpPair_tcpPair (s : FlowSys) (fe rfe : Nat) :
    s.setTcpPair fe rfe (s.tcpPair fe rfe) = s := by
  unfold setTcpPair
  rw [ext_entry (t := s) _ rfl (fun _ _ => rfl) rfl]
  exact ext_entry _ rfl (fun _ _ => rfl) rfl

theorem setReverseTcpFlags_some (f : FlowTcpFlags → FlowTcpFlags) :
    s.setReverseTcpFlags (some rfe) f = s.setTcpFlags rfe f := rfl

variable (hne : fe ≠ rfe)
include hne

theorem setTcpPair_near : (s.setTcpPair fe rfe p).entry fe =
    { s.entry fe with feTcpFlags := p.near.flags, feTcpSeq := p.near.seq } := by
  unfold setTcpPair
  rw [modify_of_ne _ _ _ hne, modify_self]

theorem setTcpPair_far : (s.setTcpPair fe rfe p).entry rfe =
    { s.entry rfe with feTcpFlags := p.far.flags, feTcpSeq := p.far.seq } := by
  unfold setTcpPair
  rw [modify_self, modify_of_ne _ _ _ hne.symm]

theorem modify_near
    (hf : f { s.entry fe with feTcpFlags := p.near.flags, feTcpSeq := p.near.seq } =
      { s.entry fe with feTcpFlags := q.near.flags, feTcpSeq := q.near.seq }) (hfar : q.far = p.far)
    : (s.setTcpPair fe rfe p).modify fe f = s.setTcpPair fe rfe q := by
  apply ext_entry
  · rw [setTcpPair_near hne, setTcpPair_near hne, hf]
  · intro j hj
    rcases eq_or_ne j rfe with rfl | hjr
    · rw [setTcpPair_far hne, setTcpPair_far hne, hfar]
    · rw [setTcpPair_other hj hjr, setTcpPair_other hj hjr]
  · rfl

theorem modify_far
    (hf : f { s.entry rfe with feTcpFlags := p.far.flags, feTcpSeq := p.far.seq } =
      { s.entry rfe with feTcpFlags := q.far.flags, feTcpSeq := q.far.seq })
    (hnear : q.near = p.near) : (s.setTcpPair fe rfe p).modify rfe f = s.setTcpPair fe rfe q := by
  apply ext_entry
  · rw [setTcpPair_far hne, setTcpPair_far hne, hf]
  · intro j hj
    rcases eq_or_ne j fe with rfl | hjf
    · rw [setTcpPair_near hne, setTcpPair_near hne, hnear]
    · rw [setTcpPair_other hjf hj, setTcpPair_other hjf hj]
  · rfl

theorem setTcpFlags_near (f : FlowTcpFlags → FlowTcpFlags) :
    (s.setTcpPair fe rfe p).setTcpFlags fe f = s.setTcpPair fe rfe (p.setNear f) :=
  modify_near hne rfl rfl

theorem setTcpFlags_far (f : FlowTcpFlags → FlowTcpFlags) :
    (s.setTcpPair fe rfe p).setTcpFlags rfe f = s.setTcpPair fe rfe (p.setFar f) :=
  modify_far hne rfl rfl

theorem setSeq_near (seq : Nat) :
    (s.setTcpPair fe rfe p).modify fe (fun e => { e with feTcpSeq := seq }) =
      s.setTcpPair fe rfe (p.setSeq seq) :=
  modify_near hne rfl rfl

theorem flags_near : ((s.setTcpPair fe rfe p).entry fe).feTcpFlags = p.near.flags := by
  rw [setTcpPair_near hne]

theorem seq_far : ((s.setTcpPair fe rfe p).entry rfe).feTcpSeq = p.far.seq := by
  rw [setTcpPair_far hne]

end

namespace LinkedPair

variable (h : s.LinkedPair fe rfe) (p) (tcp : TcpSegment)

include h

theorem setTcpPair : (s.setTcpPair fe rfe p).LinkedPair fe rfe := by
  refine ⟨h.ne, ?_, ?_, ?_, ?_⟩
  · rw [setTcpPair_near h.ne]
    exact h.valid
  · rw [setTcpPair_far h.ne]
    exact h.rvalid
  · rw [setTcpPair_near h.ne]
    exact h.rflow
  · rw [setTcpPair_far h.ne]
    exact h.rrflow

theorem reverseFlow : s.reverseFlow fe = some rfe := by
  unfold FlowSys.reverseFlow
  rw [if_pos h.valid, h.rflow]

theorem vrFlowInitClose : (s.setTcpPair fe rfe p).vrFlowInitClose fe =
    s.setTcpPair fe rfe p.close := by
  unfold FlowSys.vrFlowInitClose
  dsimp only
  rw [setTcpFlags_near h.ne, (h.setTcpPair _).rflow]
  rw [setReverseTcpFlags_some, setTcpFlags_far h.ne]
  rfl

theorem digestRst : (s.setTcpPair fe rfe p).digestRst fe =
    s.setTcpPair fe rfe p.reset := by
  unfold FlowSys.digestRst
  dsimp only
  rw [setTcpFlags_near h.ne, (h.setTcpPair _).reverseFlow]
  rw [setReverseTcpFlags_some, setTcpFlags_far h.ne, h.vrFlowInitClose]
  rfl

theorem digestSyn : (s.setTcpPair fe rfe p).digestSyn fe tcp =
    s.setTcpPair fe rfe (p.syn tcp) := by
  unfold FlowSys.digestSyn TcpPair.syn
  dsimp only
  rw [setSeq_near h.ne, setTcpFlags_near h.ne, (h.setTcpPair _).reverseFlow]
  dsimp only
  rw [setTcpFlags_far h.ne, flags_near h.ne, seq_far h.ne]
  unfold TcpPair.acked
  split
  · rw [setTcpFlags_far h.ne, setTcpFlags_near h.ne]
    rfl
  · rfl

theorem digestFin : (s.setTcpPair fe rfe p).digestFin fe tcp =
    s.setTcpPair fe rfe (p.fin tcp) := by
  unfold FlowSys.digestFin TcpPair.fin
  dsimp only
  rw [setSeq_near h.ne, setTcpFlags_near h.ne, (h.setTcpPair _).reverseFlow]
  rw [setReverseTcpFlags_some, setTcpFlags_far h.ne]

theorem digestAck : (s.setTcpPair fe rfe p).digestAck fe tcp =
    s.setTcpPair fe rfe (p.ack tcp) := by
  unfold FlowSys.digestAck TcpPair.ack
  rw [flags_near h.ne, (h.setTcpPair _).reverseFlow]
  dsimp only
  rw [seq_far h.ne, setTcpFlags_far h.ne, flags_near h.ne, setTcpFlags_far h.ne,
    setTcpFlags_near h.ne, h.vrFlowInitClose]
  unfold TcpPair.acked
  split
  · split
    · split <;> rfl
    · split <;> rfl
  · rfl

/-- On a linked pair the digest is a function of the two TCP states. -/
theorem vrFlowTcpDigest (pkt : FlowPacket) : s.vrFlowTcpDigest fe pkt =
    (s.digestedSegment fe pkt).elim s fun tcp =>
      s.setTcpPair fe rfe ((s.tcpPair fe rfe).digest tcp) := by
  unfold FlowSys.vrFlowTcpDigest digestedSegment
  split
  · rfl
  cases pkt.tcp with
  | none =>
    dsimp only
    split <;> rfl
  | some tcp =>
    dsimp only
    split
    · rfl
    rw [Option.elim_some]
    conv_lhs => rw [← setTcpPair_tcpPair s fe rfe]
    rw [h.digestRst, h.digestSyn, h.digestFin]
    unfold TcpPair.digest
    split
    · rfl
    rw [← h.digestAck]
    split
    · rfl
    · split <;> rfl

end LinkedPair

/-! ## Packets of a connection -/

/-- Which of the two flows a packet belongs to. -/
inductive TcpDirection where
  | forward
  | reverse
  deriving DecidableEq, Repr

/-- The entry of a direction. -/
def TcpDirection.entry (fe rfe : Nat) : TcpDirection → Nat
  | .forward => fe
  | .reverse => rfe

/-- Digest the packets of a connection, each on the entry of its direction. -/
def digestPackets (s : FlowSys) (fe rfe : Nat) (pkts : List (TcpDirection × FlowPacket)) :
    FlowSys :=
  pkts.foldl (fun s x => s.vrFlowTcpDigest (x.1.entry fe rfe) x.2) s

/-- What every packet keeps. -/
structure ConnInv (s : FlowSys) (fe rfe : Nat) : Prop where
  linked : s.LinkedPair fe rfe
  tcp : (s.tcpPair fe rfe).Inv

theorem ConnInv.swap (h : s.ConnInv fe rfe) : s.ConnInv rfe fe :=
  ⟨h.linked.swap, h.tcp.swap⟩

theorem tcpPair_setTcpPair (hne : fe ≠ rfe) :
    (s.setTcpPair fe rfe p).tcpPair fe rfe = p := by
  unfold tcpPair
  rw [setTcpPair_near hne, setTcpPair_far hne]

theorem ConnInv.digest (h : s.ConnInv fe rfe) (pkt : FlowPacket) :
    (s.vrFlowTcpDigest fe pkt).ConnInv fe rfe ∧
      ∀ i, (s.entry i).feTcpFlags.Le ((s.vrFlowTcpDigest fe pkt).entry i).feTcpFlags := by
  rw [h.linked.vrFlowTcpDigest pkt]
  cases s.digestedSegment fe pkt with
  | none => exact ⟨h, fun _ => TcpPair.le_refl _⟩
  | some tcp =>
    rw [Option.elim_some]
    have hgrows := (s.tcpPair fe rfe).grows_digest tcp
    refine ⟨⟨h.linked.setTcpPair _, ?_⟩, fun i => ?_⟩
    · rw [tcpPair_setTcpPair h.linked.ne]
      exact h.tcp.digest tcp
    rcases eq_or_ne i fe with rfl | hfe
    · rw [setTcpPair_near h.linked.ne]
      exact hgrows.near
    rcases eq_or_ne i rfe with rfl | hrfe
    · rw [setTcpPair_far h.linked.ne]
      exact hgrows.far
    · rw [setTcpPair_other hfe hrfe]
      exact TcpPair.le_refl _

theorem ConnInv.step (h : s.ConnInv fe rfe) (d : TcpDirection) (pkt : FlowPacket) :
    (s.vrFlowTcpDigest (d.entry fe rfe) pkt).ConnInv fe rfe ∧
      ∀ i, (s.entry i).feTcpFlags.Le
        ((s.vrFlowTcpDigest (d.entry fe rfe) pkt).entry i).feTcpFlags := by
  cases d with
  | forward => exact h.digest pkt
  | reverse =>
    obtain ⟨hinv, hle⟩ := h.swap.digest pkt
    exact ⟨hinv.swap, hle⟩

theorem ConnInv.run (pkts : List (TcpDirection × FlowPacket)) :
    ∀ {s : FlowSys}, s.ConnInv fe rfe → (s.digestPackets fe rfe pkts).ConnInv fe rfe := by
  induction pkts with
  | nil => exact fun h => h
  | cons x pkts ih => exact fun h => ih (h.step x.1 x.2).1

theorem connInv_of_clear (h : s.LinkedPair fe rfe) (hfe : (s.entry fe).feTcpFlags = {})
    (hrfe : (s.entry rfe).feTcpFlags = {}) : s.ConnInv fe rfe := by
  refine ⟨h, ?_⟩
  unfold tcpPair
  rw [hfe, hrfe]
  exact ⟨nofun, nofun, nofun, nofun, Iff.rfl, nofun⟩

end FlowSys

/-- Whatever packets a connection sees in whatever order: its two flows are dead together, and then
both were reset or both are closed; a flow is closed only after its FIN; and the next packet clears
no TCP flag of any entry. -/
theorem tcp_flows_die_together {s : FlowSys} {fe rfe : Nat} (hlinked : s.LinkedPair fe rfe)
    (hfe : (s.entry fe).feTcpFlags = {}) (hrfe : (s.entry rfe).feTcpFlags = {})
    (pkts : List (FlowSys.TcpDirection × FlowPacket)) :
    let t := s.digestPackets fe rfe pkts
    let f := (t.entry fe).feTcpFlags
    let r := (t.entry rfe).feTcpFlags
    ((f.dead ∨ r.dead) → f.dead ∧ r.dead ∧ ((f.rst ∧ r.rst) ∨ (f.halfClose ∧ r.halfClose))) ∧
      (f.halfClose → f.fin) ∧ (r.halfClose → r.fin) ∧
      ∀ (d : FlowSys.TcpDirection) (pkt : FlowPacket) (i : Nat), (t.entry i).feTcpFlags.Le
        ((t.vrFlowTcpDigest (d.entry fe rfe) pkt).entry i).feTcpFlags := by
  have hinv := (FlowSys.connInv_of_clear hlinked hfe hrfe).run pkts
  have htcp := hinv.tcp
  refine ⟨fun hdead => ?_, htcp.halfClose_near, htcp.halfClose_far,
    fun d pkt => (hinv.step d pkt).2⟩
  have hnear : ((s.digestPackets fe rfe pkts).entry fe).feTcpFlags.dead :=
    hdead.elim id htcp.dead.mpr
  exact ⟨hnear, htcp.dead.mp hnear, htcp.cause hnear⟩

/-- The agent adds two flows and makes each the reverse flow of the other. -/
def linkedRun : List FlowStep :=
  [.request (tcpRequest (-1) 1 0 .forward { active := true } (-1)) allSucceed,
    .request (tcpRequest (-1) 2 0 .forward { active := true, rflowValid := true } 4) allSucceed,
    .request (tcpRequest 4 1 1 .forward { active := true, rflowValid := true } 0) allSucceed]

theorem linkedRun_linkedPair : (smallEnd linkedRun rfl).LinkedPair 0 4 :=
  ⟨by decide, rfl, rfl, rfl, rfl⟩

/-- A reset on the one flow, and whatever comes after it. -/
theorem tcp_flows_die_together_reset :
    ∃ s : FlowSys, s.LinkedPair 0 4 ∧ (s.entry 0).feTcpFlags = {} ∧ (s.entry 4).feTcpFlags = {} ∧
      let t := s.digestPackets 0 4 [(.forward, tcpPacket true), (.reverse, tcpPacket false)]
      (t.entry 0).feTcpFlags.dead ∧ (t.entry 4).feTcpFlags.dead := by
  obtain ⟨hboth, -, -, -⟩ := tcp_flows_die_together linkedRun_linkedPair rfl rfl
    [(.forward, tcpPacket true), (.reverse, tcpPacket false)]
  obtain ⟨hnear, hfar, -⟩ := hboth (.inr (by decide +kernel))
  exact ⟨_, linkedRun_linkedPair, rfl, rfl, hnear, hfar⟩

end VRouter
