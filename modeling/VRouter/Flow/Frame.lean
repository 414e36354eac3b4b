import VRouter.Flow.RefineRequest
import VRouter.Flow.RefineStep

/-!
# VRouter — what the functions of the flow module leave alone

Packets, marks and locks write to the TCP state and the statistics of an entry and to three of its
flags, and they make work items. `FlowSys.lasting` is the state without all that, and there is one
lemma for each function they go through that it stays the same and that the work items made are not
deletions (`FlowSys.Lasts`).

An entry is in use for a key under a generation number. That changes when the entry is taken into
use and when it goes out of use, and at no other time: requests for an entry in use and work items
write to its flags, its action, its queue. `FlowSys.frame` is the part of the state those writes
cannot reach either: the hash table, the incarnations, and of each entry what `FlowIdent` has.
-/

namespace VRouter

open LongestMatch

/-! ## What packets and marks leave alone -/

/-- An entry without what packets, marks and locks write: the TCP state, the statistics and three
of the flags. -/
def FlowEntry.lasting (e : FlowEntry) : FlowEntry :=
  { e with
    feTcpFlags := {}
    feTcpSeq := 0
    feStats := {}
    feFlags := { e.feFlags with evictCandidate := false, modified := false, newFlow := false } }

/-- The state without that, and without the work items that marks make. -/
def FlowSys.lasting (s : FlowSys) : FlowSys :=
  { s with entry := fun i => (s.entry i).lasting, works := [] }

/-- What is read of an entry is the same if it is no part of what packets and marks write. -/
theorem FlowEntry.eq_of_lasting {β : Type} (π : FlowEntry → β) (hπ : ∀ e, π e.lasting = π e)
    {e e' : FlowEntry} (h : e.lasting = e'.lasting) : π e = π e' := by
  rw [← hπ e, h, hπ]

variable {cfg : FlowConfig} {s s' : FlowSys} {o : FlowOutcome} {req : FlowReq} {fe index : Nat}

variable {f : FlowEntry → FlowEntry} {pkt : FlowPacket} {i : Nat}

namespace FlowSys

theorem lasting_entry (h : s'.lasting = s.lasting) (i : Nat) :
    (s'.entry i).lasting = (s.entry i).lasting :=
  congrArg (fun s : FlowSys => s.entry i) h

theorem lasting_ht (h : s'.lasting = s.lasting) : s'.ht = s.ht := by
  have hht : s'.lasting.ht = s.lasting.ht := congrArg ht h
  exact hht

theorem valid_of_ht (hht : s'.ht = s.ht) : s'.view.valid = s.view.valid :=
  congrArg (fun ht : HtSys => fun i => (ht.table.hentry i).flagValid) hht

theorem lasting_callbacks (h : s'.lasting = s.lasting) : s'.callbacks = s.callbacks := by
  have hcallbacks : s'.lasting.callbacks = s.lasting.callbacks := congrArg FlowSys.callbacks h
  exact hcallbacks

theorem lasting_modify (h : (f (s.entry i)).lasting = (s.entry i).lasting) :
    (s.modify i f).lasting = s.lasting := by
  show { s with entry := fun j => ((s.modify i f).entry j).lasting, works := [] } = _
  rw [modify_keeps FlowEntry.lasting h]
  rfl

theorem vrFlowTcpDigest_lasting (s : FlowSys) (fe : Nat) (pkt : FlowPacket) :
    (s.vrFlowTcpDigest fe pkt).lasting = s.lasting :=
  vrFlowTcpDigest_keeps (fun _ _ _ => lasting_modify rfl) (fun _ _ _ => lasting_modify rfl) s pkt

theorem vrFlowScheduleTransition_lasting {o : TransitionOutcome} {flags : FlowFlags} {ok : Bool}
    (h : s.vrFlowScheduleTransition o fe index flags = some (s', ok)) : s'.lasting = s.lasting := by
  rcases vrFlowScheduleTransition_eq h with ⟨-, rfl⟩ | ⟨-, flmd, rfl, -⟩
  · rfl
  · rfl

/-- Nothing else has changed, and the work items made are not deletions. -/
structure Lasts (s s' : FlowSys) : Prop where
  lasting : s'.lasting = s.lasting
  works : ∃ made, s'.works = s.works ++ made ∧ ∀ flmd ∈ made, flmd.flmdFlags.active = true

namespace Lasts

theorem refl (s : FlowSys) : Lasts s s := ⟨rfl, [], (List.append_nil _).symm, by simp⟩

theorem trans {s₁ : FlowSys} (h : Lasts s s₁) (h' : Lasts s₁ s') : Lasts s s' := by
  obtain ⟨made, hmade, hactive⟩ := h.works
  obtain ⟨made', hmade', hactive'⟩ := h'.works
  refine ⟨h'.lasting.trans h.lasting, made ++ made', ?_, fun flmd hmem => ?_⟩
  · rw [hmade', hmade, List.append_assoc]
  · exact (List.mem_append.mp hmem).elim (hactive flmd) (hactive' flmd)

theorem of_works (hlasting : s'.lasting = s.lasting) (hworks : s'.works = s.works) : Lasts s s' :=
  ⟨hlasting, [], hworks.trans (List.append_nil _).symm, by simp⟩

theorem modify (h : (f (s.entry i)).lasting = (s.entry i).lasting) : Lasts s (s.modify i f) :=
  of_works (lasting_modify h) rfl

end Lasts

theorem vrFlowTcpDigest_works (s : FlowSys) (fe : Nat) (pkt : FlowPacket) :
    (s.vrFlowTcpDigest fe pkt).works = s.works :=
  vrFlowTcpDigest_keeps (fun _ _ _ => rfl) (fun _ _ _ => rfl) s pkt

theorem vrFlowTcpDigest_lasts (s : FlowSys) (fe : Nat) (pkt : FlowPacket) :
    Lasts s (s.vrFlowTcpDigest fe pkt) :=
  .of_works (s.vrFlowTcpDigest_lasting fe pkt) (s.vrFlowTcpDigest_works fe pkt)

end FlowSys

/-! ### Locks, marks and what they schedule -/

/-- An entry without its lock and its mark. -/
def FlowEntry.unmarked (e : FlowEntry) : FlowEntry :=
  { e with feFlags := { e.feFlags with evictCandidate := false, modified := false } }

namespace FlowSys

/-- A relation between states that locks, marks and work items for flows in use do not lead out
of. -/
structure MarkClosed (R : FlowSys → FlowSys → Prop) : Prop where
  refl : ∀ s, R s s
  trans : ∀ {s s₁ s'}, R s s₁ → R s₁ s' → R s s'
  modify : ∀ s i f, (∀ e, FlowEntry.unmarked (f e) = e.unmarked) → R s (s.modify i f)
  scheduled : ∀ (s : FlowSys) (flmd : FlowMd), flmd.flmdFlags.active = true →
    R s { s with works := s.works ++ [flmd] }

namespace MarkClosed

variable {R : FlowSys → FlowSys → Prop}

variable (hR : MarkClosed R)
include hR

theorem modifyPair (rfe : Option Nat) (h : ∀ e, (f e).unmarked = e.unmarked) :
    R s (s.modifyPair rfe fe f) := by
  cases rfe with
  | none => exact hR.modify s fe f h
  | some r => exact hR.trans (hR.modify s r f h) (hR.modify _ fe f h)

theorem vrFlowMarkEvictCore (s : FlowSys) (fe : Nat) : R s (s.vrFlowMarkEvictCore fe).2 := by
  unfold FlowSys.vrFlowMarkEvictCore
  dsimp only
  split
  · exact hR.modify s fe markCandidate fun _ => rfl
  · exact hR.refl s

theorem evictForwardFlow {o : TransitionOutcome} {rfe : Option Nat}
    (h : s.evictForwardFlow o fe index rfe = some s') : R s s' := by
  have hmark : R s (s.modify fe markCandidate) := hR.modify s fe markCandidate fun _ => rfl
  rcases evictForwardFlow_eq h with ⟨-, rfl⟩ | ⟨-, rfl⟩ | ⟨-, flmd, rfl, hdelete, -⟩
  · exact hR.trans (hR.vrFlowMarkEvictCore s fe) (hR.modifyPair rfe fun _ => rfl)
  · exact hR.trans hmark (hR.modifyPair rfe fun _ => rfl)
  · refine hR.trans hmark (hR.scheduled _ flmd ?_)
    exact (Bool.not_eq_false' (b := flmd.flmdFlags.active)).mp hdelete

theorem vrFlowMarkEvict {o : TransitionOutcome}
    (h : s.vrFlowMarkEvict o fe index = some s') : R s s' := by
  unfold FlowSys.vrFlowMarkEvict at h
  split at h
  · cases h
    exact hR.refl s
  rename_i e hstart
  obtain ⟨-, rfl⟩ := vrFlowStartModify_eq_some hstart
  dsimp only at h
  rw [show (s.modify fe fun _ => lock (s.entry fe)) = s.modify fe lock from rfl] at h
  refine hR.trans (hR.modify s fe lock fun _ => rfl) ?_
  generalize s.modify fe lock = s₁ at h ⊢
  split at h
  · exact hR.evictForwardFlow h
  rename_i r _
  split at h
  · split at h
    · cases h
      exact hR.modify s₁ fe _ fun _ => rfl
    · rename_i re hstartr
      obtain ⟨-, rfl⟩ := vrFlowStartModify_eq_some hstartr
      rw [show (s₁.modify r fun _ => lock (s₁.entry r)) = s₁.modify r lock from rfl] at h
      -- both are locked
      refine hR.trans (hR.modify s₁ r lock fun _ => rfl) ?_
      generalize s₁.modify r lock = s₂ at h ⊢
      split at h
      · have hmark := hR.vrFlowMarkEvictCore s₂ r
        split at h
        · rename_i s₃ heq
          rw [heq] at hmark
          exact hR.trans hmark (hR.evictForwardFlow h)
        · rename_i s₃ heq
          rw [heq] at hmark
          cases h
          exact hR.trans hmark (hR.modifyPair _ fun _ => rfl)
      · cases h
        exact hR.modifyPair _ fun _ => rfl
  · cases h
    exact hR.modify s₁ fe _ fun _ => rfl

theorem vrFlowAction {o : ActionOutcome} {result : FlowResult}
    (h : s.vrFlowAction o fe index pkt = some (s', result)) : R s s' := by
  rcases vrFlowAction_cases h with rfl | ⟨-, hmark⟩
  · exact hR.refl _
  · exact hR.vrFlowMarkEvict hmark

theorem flushSlots {slots : List Nat} {vfq vfq' : FlowQueue}
    (h : flushSlots o fe index slots s vfq = some (s', vfq')) : R s s' := by
  refine (flushSlots_keeps (P := R s) (fun slot _ pkt _ s₁ s₂ result hs₁ haction => ?_)
    (hR.refl s) h).1
  exact hR.trans hs₁ (hR.vrFlowAction haction)

theorem takeBackMarks (s : FlowSys) (fe : Nat) : R s (s.takeBackMarks fe) :=
  hR.modifyPair _ fun _ => rfl

end MarkClosed

theorem Lasts.markClosed : MarkClosed Lasts where
  refl := .refl
  trans := .trans
  modify s i f h := by
    have hlasting : (f (s.entry i)).unmarked.lasting = (s.entry i).unmarked.lasting :=
      congrArg FlowEntry.lasting (h _)
    exact .modify hlasting
  scheduled s flmd hactive := by
    refine ⟨rfl, [flmd], rfl, fun flmd' hmem => ?_⟩
    obtain rfl := List.mem_singleton.mp hmem
    exact hactive

theorem vrFlowAction_lasts {o : ActionOutcome} {result : FlowResult}
    (h : s.vrFlowAction o fe index pkt = some (s', result)) : Lasts s s' :=
  Lasts.markClosed.vrFlowAction h

theorem flushSlots_lasts {slots : List Nat} {vfq vfq' : FlowQueue}
    (h : flushSlots o fe index slots s vfq = some (s', vfq')) : Lasts s s' :=
  Lasts.markClosed.flushSlots h

theorem takeBackMarks_lasts (s : FlowSys) (fe : Nat) : Lasts s (s.takeBackMarks fe) :=
  Lasts.markClosed.takeBackMarks s fe

end FlowSys

/-! ## What an entry is in use for -/

/-- What an entry is in use for. -/
structure FlowIdent where
  genId : Nat
  type : VpType
  key : List Octet
  keyLen : Nat

def FlowEntry.ident (e : FlowEntry) : FlowIdent := ⟨e.feGenId, e.feType, e.feKey, e.feKeyLen⟩

/-- The part of the state that does not change while the same entries are in use. -/
@[ext] structure FlowFrame where
  ht : HtSys
  incarnation : Nat → Nat
  ident : Nat → FlowIdent

def FlowSys.frame (s : FlowSys) : FlowFrame where
  ht := s.ht
  incarnation := s.incarnation
  ident := fun i => (s.entry i).ident

/-- An entry without its queue, unless the flow is on hold. -/
def FlowEntry.flushed (e : FlowEntry) : FlowEntry :=
  if e.feAction = .hold then e else { e with feHoldList := none }

namespace FlowSys

theorem frame_of_lasting (h : s'.lasting = s.lasting) : s'.frame = s.frame := by
  have hframe : s'.lasting.frame = s.lasting.frame := congrArg FlowSys.frame h
  exact hframe

theorem frame_modify (h : (f (s.entry i)).ident = (s.entry i).ident) :
    (s.modify i f).frame = s.frame :=
  FlowFrame.ext rfl rfl (modify_keeps FlowEntry.ident h)

/-! ## Work items -/

theorem takenBack_lasts {candidate : Bool}
    (h : s' = if candidate then s.takeBackMarks fe else s) : Lasts s s' := by
  subst h
  split
  · exact s.takeBackMarks_lasts fe
  · exact .refl s

variable {flmd flmd' : FlowMd}

theorem vrFlushEntry_lasts (h : s.vrFlushEntry o fe flmd = some (s', flmd')) :
    Lasts (s.modify fe FlowEntry.flushed) s' ∧ flmd'.flmdFlags = flmd.flmdFlags := by
  rcases vrFlushEntry_cases h with
    ⟨hidle, rfl, rfl⟩ | ⟨vfq, vfq', -, hhold, hflush, ⟨-, hflags, -⟩, -⟩
  · have hsame : (s'.entry fe).flushed = s'.entry fe := by
      unfold FlowEntry.flushed
      split
      · rfl
      · rename_i hhold
        rw [← hidle.resolve_right hhold]
    rw [modify_eq_self hsame]
    exact ⟨.refl s', rfl⟩
  · have hoff : (s.entry fe).flushed = { s.entry fe with feHoldList := none } := if_neg hhold
    have hs : s.modify fe FlowEntry.flushed = s.modify fe fun e => { e with feHoldList := none } :=
      congrArg (fun e => s.modify fe fun _ => e) hoff
    rw [hs]
    exact ⟨flushSlots_lasts hflush, hflags⟩

/-- The defer data a work item is left with say whether it is a deletion. Their queue is the one the
entry had. -/
theorem vrFlushEntry_data (hcons : flmd.Consistent)
    (h : s.vrFlushEntry o fe flmd = some (s', flmd')) {vfdd : FlowDeferData}
    (hvfdd : flmd'.vfdd? = some vfdd) : vfdd.vfddDelete = !flmd.flmdFlags.active ∧
      ∀ vfq, vfdd.vfddFlowQueue = some vfq →
        ∃ old, (s.entry fe).feHoldList = some old ∧ vfq.vfqIndex = old.vfqIndex := by
  rcases vrFlushEntry_cases h with ⟨-, -, rfl⟩ | ⟨old, vfq', hold, -, hslots, -, hdata⟩
  · obtain ⟨hdelete, -, hnone⟩ := hcons vfdd hvfdd
    refine ⟨hdelete, fun vfq hvfq => ?_⟩
    rw [hnone] at hvfq
    cases hvfq
  · rw [hvfdd] at hdata
    obtain ⟨data, hsome, rfl⟩ := Option.map_eq_some_iff.mp hdata.symm
    refine ⟨(hcons data hsome).1, ?_⟩
    rintro _ ⟨⟩
    exact ⟨old, hold, by rw [flushSlots_queue hslots]⟩

/-- A work item takes the queue off its entry, unless the flow is on hold, and ends there, or leaves
a callback behind, or, if it is there to delete the entry, resets it. -/
theorem vrFlowWork_ends (hinv : FlowInv cfg s.view) (hcons : flmd.Consistent)
    (h : s.vrFlowWork o flmd = some s') :
    (s.vrFlowGetEntry flmd.flmdIndex = none ∧ s' = s) ∨
      ∃ fe, ∃ s₁ : FlowSys, s.vrFlowGetEntry flmd.flmdIndex = some fe ∧
        Lasts (s.modify fe FlowEntry.flushed) s₁ ∧
        (s' = s₁ ∨
          (∃ vfdd : FlowDeferData, vfdd.vfddFe = fe ∧ vfdd.vfddDelete = !flmd.flmdFlags.active ∧
            (∀ vfq, vfdd.vfddFlowQueue = some vfq →
              ∃ old, (s.entry fe).feHoldList = some old ∧ vfq.vfqIndex = old.vfqIndex) ∧
            s' = { s₁ with callbacks := s₁.callbacks ++ [vfdd] }) ∨
          (flmd.flmdFlags.active = false ∧ ∃ ht, s₁.ht.table.Releases ht.table fe ∧
            s' = { s₁.modify fe FlowEntry.resetAll with ht := ht })) := by
  rcases vrFlowWork_cases h with ⟨hnone, rfl⟩ | ⟨fe, s₁, flmd₁, hget, hflush, hdefer⟩
  · exact Or.inl ⟨hnone, rfl⟩
  obtain ⟨hlasts, hflags⟩ := vrFlushEntry_lasts hflush
  rcases vrFlowDefer_cases hdefer with ⟨vfdd, hvfdd, rfl⟩ | ⟨-, s₂, hs₂, hend⟩
  · obtain ⟨hdelete, hqueue⟩ := vrFlushEntry_data hcons hflush hvfdd
    exact Or.inr ⟨fe, s₁, hget, hlasts,
      Or.inr (Or.inl ⟨{ vfdd with vfddFe := fe }, rfl, hdelete, hqueue, rfl⟩)⟩
  have hlasts₂ := hlasts.trans (takenBack_lasts hs₂)
  refine Or.inr ⟨fe, s₂, hget, hlasts₂, ?_⟩
  rcases hend with ⟨-, rfl⟩ | ⟨hdelete, hreset⟩
  · exact Or.inl rfl
  obtain ⟨ht, hrelease, rfl⟩ := Option.map_eq_some_iff.mp hreset
  have hht : s₂.ht = (s.modify fe FlowEntry.flushed).ht := lasting_ht hlasts₂.lasting
  refine Or.inr (Or.inr ⟨hflags ▸ hdelete, ht, ?_, rfl⟩)
  rw [hht] at hrelease ⊢
  exact (hinv.releases hrelease).2.2

/-! ## Requests for an entry in use -/

/-- What a request leaves alone when it writes an entry: the frame, the queues, and what is
scheduled. -/
@[ext] structure FlowKept extends FlowFrame where
  holdList : Nat → Option FlowQueue
  works : List FlowMd
  callbacks : List FlowDeferData

def kept (s : FlowSys) : FlowKept where
  toFlowFrame := s.frame
  holdList := fun i => (s.entry i).feHoldList
  works := s.works
  callbacks := s.callbacks

theorem frame_of_kept (h : s'.kept = s.kept) : s'.frame = s.frame :=
  congrArg FlowKept.toFlowFrame h

theorem kept_modify (hident : (f (s.entry i)).ident = (s.entry i).ident)
    (hlist : (f (s.entry i)).feHoldList = (s.entry i).feHoldList) : (s.modify i f).kept = s.kept :=
  FlowKept.ext rfl rfl (modify_keeps FlowEntry.ident hident)
    (modify_keeps FlowEntry.feHoldList hlist) rfl rfl

theorem vrFlowEntrySetHold_kept (s : FlowSys) (cpu fe : Nat) :
    (s.vrFlowEntrySetHold cfg cpu fe).kept = s.kept := by
  unfold vrFlowEntrySetHold
  split
  · rfl
  · have hhold : (s.modify fe fun e => { e with feAction := .hold }).kept = s.kept :=
      kept_modify rfl rfl
    exact hhold

theorem writeEntry_kept (s : FlowSys) (fe : Nat) (newFlow : Bool) :
    (s.writeEntry cfg o req fe newFlow).kept = s.kept := by
  obtain ⟨x, info, heq, hx, -⟩ := writeEntry_eq cfg s o req fe newFlow
  have hkept : (s.modify fe fun _ => x).kept = s.kept :=
    kept_modify (congrArg (·.ident) hx) (congrArg (·.feHoldList) hx)
  rw [heq]
  exact hkept

/-- A deletion hides the entry from lookups and makes it drop what still comes; then it makes a work
item. -/
theorem vrFlowDelete_cases {ok : Bool} (h : s.vrFlowDelete o req fe = some (s', ok)) :
    ∃ s₁ : FlowSys, s₁.kept = s.kept ∧ (s₁.entry fe).feAction = .drop ∧
      s₁.vrFlowScheduleTransition o.transition fe req.frIndex.toNat req.frFlags =
        some (s', ok) := by
  have hkept : (s.modify fe FlowEntry.dropped).kept = s.kept := kept_modify rfl rfl
  refine ⟨s.deleted fe, hkept, ?_, ?_⟩
  · rw [deleted_self]
    rfl
  · rw [← vrFlowDelete_eq, h]

theorem vrFlowDelete_frame {ok : Bool} (h : s.vrFlowDelete o req fe = some (s', ok)) :
    s'.frame = s.frame := by
  obtain ⟨s₁, hkept, -, hschedule⟩ := vrFlowDelete_cases h
  exact (frame_of_lasting (vrFlowScheduleTransition_lasting hschedule)).trans (frame_of_kept hkept)

/-- An entry that goes on hold without a queue gets one. -/
def attachQueue (s : FlowSys) (req : FlowReq) (fe : Nat) : FlowSys :=
  if req.frAction = .hold ∧ (s.entry fe).feAction ≠ .hold ∧ (s.entry fe).feHoldList.isNone then
    s.modify fe fun e => { e with feHoldList := some FlowQueue.zalloc }
  else s

/-- `vr_flow_set` on an entry in use deletes it, gives up for want of memory, or writes it. -/
theorem vrFlowSetChange_cases {result : Option Errno × FlowReq}
    (h : s.vrFlowSetChange cfg o req fe = some (s', result)) :
    ∃ info,
      (req.frFlags.active = false ∧ ∃ ok, { s with info := info }.vrFlowDelete o req fe =
        some (s', ok)) ∨
      (req.frFlags.active = true ∧
        (s' = { s with info := info }.modify fe FlowEntry.vrFlowStopModify ∨
          ∃ s₁ ok, ((({ s with info := info }.attachQueue req fe).writeEntry cfg o req fe
              false).vrFlowScheduleTransition o.transition fe req.frIndex.toNat req.frFlags =
                some (s₁, ok)) ∧
            s' = s₁.modify fe FlowEntry.vrFlowStopModify)) := by
  unfold vrFlowSetChange at h
  dsimp only at h
  have hinfo : ∃ info, (if (s.entry fe).feAction = .hold ∧
      (req.frAction ≠ (s.entry fe).feAction ∨ (!req.frFlags.active) = true) then
    { s with info := s.info.countAction } else s) = { s with info := info } := by
    split
    · exact ⟨_, rfl⟩
    · exact ⟨s.info, rfl⟩
  obtain ⟨info, hinfo⟩ := hinfo
  rw [hinfo] at h
  refine ⟨info, ?_⟩
  cases hactive : req.frFlags.active with
  | false =>
    rw [hactive] at h
    obtain ⟨⟨s₁, ok⟩, hdelete, heq⟩ := Option.map_eq_some_iff.mp h
    cases heq
    exact Or.inl ⟨rfl, ok, hdelete⟩
  | true =>
    rw [hactive] at h
    refine Or.inr ⟨rfl, ?_⟩
    simp only [Bool.not_true, Bool.false_eq_true, if_false] at h
    split at h
    · cases h
      exact Or.inl rfl
    split at h
    · cases h
    · rename_i s₁ ok hschedule
      cases h
      exact Or.inr ⟨s₁, ok, hschedule, rfl⟩

theorem attachQueue_frame (s : FlowSys) (req : FlowReq) (fe : Nat) :
    (s.attachQueue req fe).frame = s.frame := by
  unfold attachQueue
  split
  · exact frame_modify rfl
  · rfl

theorem vrFlowSetChange_frame {result : Option Errno × FlowReq}
    (h : s.vrFlowSetChange cfg o req fe = some (s', result)) : s'.frame = s.frame := by
  obtain ⟨info, hcases⟩ := vrFlowSetChange_cases h
  have hinfo : { s with info := info }.frame = s.frame := rfl
  rw [← hinfo]
  rcases hcases with ⟨-, ok, hdelete⟩ | ⟨-, rfl | ⟨s₁, ok, hschedule, rfl⟩⟩
  · exact vrFlowDelete_frame hdelete
  · exact frame_modify rfl
  · rw [frame_modify rfl, frame_of_lasting (vrFlowScheduleTransition_lasting hschedule),
      frame_of_kept (writeEntry_kept _ _ _), attachQueue_frame]

end FlowSys

end VRouter
