import VRouter.Flow.Step
import VRouter.Htable.Find

/-!
# VRouter — the protocol of the flow table

Flow entries are shared by packets, the agent, work items and callbacks. What they agree on is a
protocol over a few bits of an entry: whether it is valid, which key it has and whether lookups see
it, the modify bit, the eviction mark and whether the flow is on hold. `FlowView` is the table seen
that way, and `FlowMove` says what can happen to it: an entry is taken into use, changed, deleted,
marked, reset, evicted, and work items go from one queue to the next. The view leaves out what the
protocol does not depend on (statistics, TCP state, mirrors, addresses).

`VRouter.Flow.Refine` shows that every step of the source is a sequence of moves. Here is what all
moves keep, `FlowInv`:

* the hash table is in order, and lookups find every visible key;
* entries that are not in use are clean: not locked, not marked, not on hold;
* entries in use are active, and no two of them are visible with the same key;
* an entry marked for eviction is locked.
-/

namespace VRouter

open LongestMatch Function

/-! ## The view -/

/-- The protocol's part of an entry. -/
structure FlowCore where
  key : List Octet
  active : Bool
  deleteMarked : Bool
  modified : Bool
  evictCandidate : Bool
  hold : Bool
  rflow : Int

/-- The protocol's part of a work item or callback: whether it is there to delete its entry, and
whether it is a work item that takes back the eviction marks. -/
structure FlowItem where
  index : Nat
  delete : Bool
  takesBack : Bool
  madeFor : List (Nat × Nat)

/-- The table as the protocol sees it. `running` is the work item or callback under way. -/
@[ext] structure FlowView where
  ht : HtSys
  core : Nat → FlowCore
  info : FlowTableInfo
  works : List FlowMd
  callbacks : List FlowDeferData
  incarnation : Nat → Nat
  running : Option FlowItem

def FlowEntry.core (e : FlowEntry) : FlowCore where
  key := e.feKey.take e.feKeyLen
  active := e.feFlags.active
  deleteMarked := e.feFlags.deleteMarked
  modified := e.feFlags.modified
  evictCandidate := e.feFlags.evictCandidate
  hold := decide (e.feAction = .hold)
  rflow := e.feRflow

/-- The defer data a work item hands on to its callback. -/
def FlowMd.vfdd? (flmd : FlowMd) : Option FlowDeferData := flmd.flmdDeferData.join

def FlowMd.item (flmd : FlowMd) : FlowItem where
  index := flmd.flmdIndex
  delete := !flmd.flmdFlags.active
  takesBack := flmd.flmdFlags.evictCandidate && flmd.vfdd?.isNone
  madeFor := flmd.madeFor

def FlowDeferData.item (vfdd : FlowDeferData) : FlowItem where
  index := vfdd.vfddFe
  delete := vfdd.vfddDelete
  takesBack := false
  madeFor := vfdd.madeFor

/-- The defer data says the same as the work item, and has no queue yet. -/
def FlowMd.Consistent (flmd : FlowMd) : Prop :=
  ∀ vfdd, flmd.vfdd? = some vfdd → vfdd.vfddDelete = !flmd.flmdFlags.active ∧
    vfdd.madeFor = flmd.madeFor ∧ vfdd.vfddFlowQueue = none

/-- The queue of a callback has no packets left. -/
def FlowDeferData.Flushed (vfdd : FlowDeferData) : Prop :=
  ∀ vfq, vfdd.vfddFlowQueue = some vfq → ∀ i, i < vrMaxFlowQueueEntries → vfq.vfqPnodes i = none

/-- The view of a state while a work item or callback is under way. -/
def FlowSys.viewWith (s : FlowSys) (running : Option FlowItem) : FlowView where
  ht := s.ht
  core := fun i => (s.entry i).core
  info := s.info
  works := s.works
  callbacks := s.callbacks
  incarnation := s.incarnation
  running := running

/-- The view of a state between two steps. -/
def FlowSys.view (s : FlowSys) : FlowView := s.viewWith none

/-- Lookups see the entry. -/
def FlowCore.visible (c : FlowCore) : Bool := c.active && !c.deleteMarked

/-- `vr_flow_get_key`. -/
def FlowCore.getKey (c : FlowCore) : Option (List Octet) := if c.visible then some c.key else none

/-- `vr_flow_table_get_free_entry` and the key that is written then. -/
def FlowCore.activate (c : FlowCore) (key : List Octet) : FlowCore :=
  if c.active then { c with key := key }
  else
    { c with
      key := key
      active := true
      deleteMarked := false
      modified := false
      evictCandidate := false
      rflow := -1 }

@[simp] theorem FlowCore.activate_key (c : FlowCore) (key : List Octet) :
    (c.activate key).key = key := by
  unfold FlowCore.activate
  split <;> rfl

@[simp] theorem FlowCore.activate_active (c : FlowCore) (key : List Octet) :
    (c.activate key).active = true := by
  unfold FlowCore.activate
  split
  · assumption
  · rfl

@[simp] theorem FlowCore.activate_hold (c : FlowCore) (key : List Octet) :
    (c.activate key).hold = c.hold := by
  unfold FlowCore.activate
  split <;> rfl

/-- What an eviction leaves of an entry. -/
def FlowCore.evicted (c : FlowCore) : FlowCore where
  key := []
  active := c.active
  deleteMarked := c.deleteMarked
  modified := false
  evictCandidate := false
  hold := false
  rflow := -1

/-- What a deletion leaves of an entry. -/
def FlowCore.cleared (c : FlowCore) : FlowCore :=
  { c.evicted with active := false, deleteMarked := false }

namespace FlowView

variable (v : FlowView)

/-- The entry is in use. -/
def valid (i : Nat) : Bool := (v.ht.table.hentry i).flagValid

/-- The keys as the hash table asks for them. -/
def getKey (i : Nat) : Option (List Octet) := (v.core i).getKey

/-- `vr_flow_get_entry`. -/
def getEntry (index : Int) : Option Nat :=
  if index < 0 then none else vrHtableGetHentryByIndex v.ht.table index.toNat

/-- The entries a work item for `i` is made for. -/
def madeForNow (i : Nat) : List (Nat × Nat) :=
  (i, v.incarnation i) :: ((v.getEntry (v.core i).rflow).map fun r => (r, v.incarnation r)).toList

/-- Write to one entry. -/
@[simps -fullyApplied ht info works callbacks incarnation running]
def setCore (i : Nat) (c : FlowCore) : FlowView := { v with core := Function.update v.core i c }

/-- The items that still have to run, the running one included. -/
def items : List FlowItem :=
  v.running.toList ++ v.works.map FlowMd.item ++ v.callbacks.map FlowDeferData.item

/-- The table with the keys of its entries. -/
def keyed : KeyedSys where
  sys := v.ht
  keys := fun i => some (v.core i).key
  live := v.valid

end FlowView

/-! ## Moves -/

/-- What the surroundings of a run promise about the moves it makes: when a flow may be marked for
eviction, which work items are made, and which entries a deletion may reset. -/
structure FlowRules where
  mark : FlowView → Nat → Prop
  push : FlowItem → Prop
  reset : FlowCore → Prop

/-- How the counters follow an entry that goes on hold or leaves hold. -/
inductive HoldChange (cfg : FlowConfig) : Bool → Bool → FlowTableInfo → FlowTableInfo → Prop
  | same {hold info} : HoldChange cfg hold hold info info
  | set {cpu info} (hcpu : cpu < cfg.vrNumCpus) :
      HoldChange cfg false true info (info.countHold cpu)
  | leave {info} : HoldChange cfg true false info info.countAction

/-- The modify bit is taken, or given back. -/
def FlowCore.locked (c : FlowCore) : FlowCore := { c with modified := true }

def FlowCore.unlocked (c : FlowCore) : FlowCore := { c with modified := false }

/-- The eviction mark is set. -/
def FlowCore.candidate (c : FlowCore) : FlowCore := { c with evictCandidate := true }

/-- The entry is locked and marked. -/
def FlowCore.marked (c : FlowCore) : FlowCore := c.locked.candidate

/-- The eviction mark and the modify bit are taken back. -/
def FlowCore.takenBack (c : FlowCore) : FlowCore :=
  { c with modified := false, evictCandidate := false }

/-- A flow that can be marked: nobody has locked it, and it is not on hold. -/
structure FlowCore.Markable (c : FlowCore) : Prop where
  active : c.active = true
  modified : c.modified = false
  evictCandidate : c.evictCandidate = false
  hold : c.hold = false

/-- The move `mark` on the cores: the flow and its reverse flow. -/
def FlowView.markPair (v : FlowView) (i : Nat) : FlowView :=
  { v with
    core := fun j =>
      if j = i ∨ v.getEntry (v.core i).rflow = some j then (v.core j).marked else v.core j }

/-- One move. -/
inductive FlowMove (cfg : FlowConfig) (R : FlowRules) : FlowView → FlowView → Prop
  /-- An entry is taken into use for a key no lookup finds. The agent gives it its own reverse flow
  and flags at once, a packet puts it on hold. -/
  | take {v : FlowView} {k : List Octet} (i : Nat) {t : Htable} (c : FlowCore)
      {info : FlowTableInfo} (added : Nat)
      (hfind : vrHtableFindHentry v.ht.table v.getKey k (cfg.vrHash k) = some none)
      (hfree : vrHtableFindFreeHentry v.ht.table (cfg.vrHash k) = some (some i, t))
      (hkey : c.key = k) (hactive : c.active = true)
      (hmodified : c.modified = ((v.core i).activate k).modified)
      (hcandidate : c.evictCandidate = ((v.core i).activate k).evictCandidate)
      (hhold : HoldChange cfg (v.core i).hold c.hold v.info info ∨ (v.core i).hold = true) :
      FlowMove cfg R v
        { v.setCore i c with
          ht := { v.ht with table := t }
          info := { info with vftiAdded := added }
          incarnation := Function.update v.incarnation i (v.incarnation i + 1) }
  /-- The agent changes an entry. -/
  | change {v : FlowView} (i : Nat) (c : FlowCore) {info : FlowTableInfo}
      (hvalid : v.valid i = true) (hmodified : (v.core i).modified = false)
      (hdelete : (v.core i).deleteMarked = false) (hkey : c.key = (v.core i).key)
      (hactive : c.active = true) (hmodified' : c.modified = false)
      (hcandidate : c.evictCandidate = (v.core i).evictCandidate)
      (hhold : HoldChange cfg (v.core i).hold c.hold v.info info) :
      FlowMove cfg R v { v.setCore i c with info := info }
  /-- The agent deletes an entry, and a work item is made if there is memory for it. -/
  | delete {v : FlowView} (i : Nat) {info : FlowTableInfo} {items : List FlowMd}
      (hvalid : v.valid i = true) (hmodified : (v.core i).modified = false)
      (hdelete : (v.core i).deleteMarked = false)
      (hhold : HoldChange cfg (v.core i).hold false v.info info)
      (hitems : items.length ≤ 1)
      (hitem : ∀ flmd ∈ items, flmd.Consistent ∧ flmd.item.index = i ∧ flmd.item.delete = true ∧
        flmd.item.madeFor = v.madeForNow i ∧ R.push flmd.item) :
      FlowMove cfg R v
        { v.setCore i { v.core i with deleteMarked := true, modified := true, hold := false } with
          info := info
          works := v.works ++ items }
  /-- A work item is made for a change. -/
  | schedule {v : FlowView} {flmd : FlowMd} (hflmd : flmd.Consistent)
      (hdelete : flmd.item.delete = false)
      (hmade : flmd.item.madeFor = v.madeForNow flmd.item.index) (hpush : R.push flmd.item) :
      FlowMove cfg R v { v with works := v.works ++ [flmd] }
  /-- A packet marks a flow and its reverse flow for eviction. -/
  | mark {v : FlowView} (i : Nat) {flmd : FlowMd} (hvalid : v.valid i = true)
      (hmark : (v.core i).Markable)
      (hreverse : ∀ r, v.getEntry (v.core i).rflow = some r → r ≠ i ∧ (v.core r).Markable)
      (hrule : R.mark v i) (hflmd : flmd.Consistent) (hindex : flmd.item.index = i)
      (hdelete : flmd.item.delete = false) (hmade : flmd.item.madeFor = v.madeForNow i)
      (hpush : R.push flmd.item) :
      FlowMove cfg R v { v.markPair i with works := v.works ++ [flmd] }
  /-- A work item starts. -/
  | work {v : FlowView} {n : Nat} {flmd : FlowMd} (hget : v.works[n]? = some flmd)
      (hrunning : v.running = none) :
      FlowMove cfg R v { v with works := v.works.eraseIdx n, running := some flmd.item }
  /-- A callback starts. -/
  | callback {v : FlowView} {n : Nat} {vfdd : FlowDeferData} (hget : v.callbacks[n]? = some vfdd)
      (hrunning : v.running = none) :
      FlowMove cfg R v { v with callbacks := v.callbacks.eraseIdx n, running := some vfdd.item }
  /-- A work item hands on to its callback. -/
  | defer {v : FlowView} {it : FlowItem} {vfdd : FlowDeferData} (hrunning : v.running = some it)
      (hback : it.takesBack = false) (hitem : vfdd.item = it) (hflushed : vfdd.Flushed) :
      FlowMove cfg R v { v with callbacks := v.callbacks ++ [vfdd], running := none }
  /-- A work item takes a mark back. -/
  | takeBack {v : FlowView} {it : FlowItem} (i : Nat) (hrunning : v.running = some it)
      (hback : it.takesBack = true) : FlowMove cfg R v (v.setCore i (v.core i).takenBack)
  /-- A deletion resets its entry. -/
  | reset {v : FlowView} {it : FlowItem} {ht : HtSys} {scheduled : Bool}
      (hrunning : v.running = some it) (hdelete : it.delete = true)
      (hrule : R.reset (v.core it.index))
      (hrelease : vrHtableReleaseHentry v.ht scheduled it.index = some ht) :
      FlowMove cfg R v
        { v.setCore it.index (v.core it.index).cleared with ht := ht, running := none }
  /-- A callback evicts a flow that is marked. -/
  | evict {v : FlowView} {it : FlowItem} (i : Nat) {ht : HtSys} {scheduled : Bool}
      (hrunning : v.running = some it) (hdelete : it.delete = false)
      (hactive : (v.core i).active = true) (hcandidate : (v.core i).evictCandidate = true)
      (hrelease : vrHtableReleaseHentry v.ht scheduled i = some ht) :
      FlowMove cfg R v { v.setCore i (v.core i).evicted with ht := ht }
  /-- A work item or callback ends. A deletion ends here only if its entry is gone. -/
  | finish {v : FlowView} {it : FlowItem} (hrunning : v.running = some it)
      (hdelete : it.delete = true → v.valid it.index = false) :
      FlowMove cfg R v { v with running := none }
  /-- A work item or callback of the hash table, or a write to `vr_not_ready`. -/
  | table {v : FlowView} {ht : HtSys} {a : HtStep} (ha : a.Rests) (hstep : v.ht.step a = some ht) :
      FlowMove cfg R v { v with ht := ht }

/-! ## What all moves keep -/

/-- The part of an entry that is not in use. -/
structure FlowCore.Clean (c : FlowCore) : Prop where
  modified : c.modified = false
  evictCandidate : c.evictCandidate = false
  hold : c.hold = false

/-- The invariant of the protocol. -/
structure FlowInv (cfg : FlowConfig) (v : FlowView) : Prop where
  keyed : KeyedInv cfg.vrHash v.keyed
  tile : v.ht.table.BucketsTile
  clean : ∀ i, v.valid i = false → (v.core i).Clean
  active : ∀ i, v.valid i = true → (v.core i).active = true
  unique : ∀ i j, v.valid i = true → v.valid j = true → (v.core i).visible = true →
    (v.core j).visible = true → (v.core i).key = (v.core j).key → i = j
  locked : ∀ i, (v.core i).evictCandidate = true → (v.core i).modified = true
  consistent : ∀ flmd ∈ v.works, flmd.Consistent
  flushed : ∀ vfdd ∈ v.callbacks, vfdd.Flushed

theorem FlowCore.evicted_clean (c : FlowCore) : c.evicted.Clean := ⟨rfl, rfl, rfl⟩

theorem FlowCore.cleared_clean (c : FlowCore) : c.cleared.Clean := ⟨rfl, rfl, rfl⟩

variable {k : List Octet} {c : FlowCore}

theorem FlowCore.getKey_eq_some : c.getKey = some k ↔ c.visible = true ∧ c.key = k := by
  unfold FlowCore.getKey
  rw [Option.ite_none_right_eq_some, Option.some_inj]

/-- An entry that was clean is clean when it has been taken into use, except for hold. -/
theorem FlowCore.Clean.activate (h : c.Clean) (key : List Octet) :
    (c.activate key).modified = false ∧ (c.activate key).evictCandidate = false := by
  unfold FlowCore.activate
  split
  · exact ⟨h.modified, h.evictCandidate⟩
  · exact ⟨rfl, rfl⟩

namespace FlowView

variable {v : FlowView} {i j : Nat}

theorem setCore_self : (v.setCore i c).core i = c := by
  simp [setCore]

theorem setCore_of_ne (h : j ≠ i) : (v.setCore i c).core j = v.core j := by
  simp [setCore, h]

@[simp] theorem setCore_apply : (v.setCore i c).core j = if j = i then c else v.core j :=
  update_apply v.core i c j

theorem valid_of_getEntry {index : Int} (h : v.getEntry index = some i) : v.valid i = true := by
  unfold getEntry at h
  split at h
  · cases h
  · exact (vrHtableGetHentryByIndex_eq_some h).2

end FlowView

namespace FlowInv

variable {cfg : FlowConfig} {v v' : FlowView} {i : Nat}

theorem of_eq (h : FlowInv cfg v) (hht : v'.ht = v.ht) (hcore : v'.core = v.core)
    (hworks : ∀ flmd ∈ v'.works, flmd.Consistent)
    (hcallbacks : ∀ vfdd ∈ v'.callbacks, vfdd.Flushed) : FlowInv cfg v' := by
  obtain ⟨ht, core, info, works, callbacks, incarnation, running⟩ := v'
  subst hht hcore
  exact { h with consistent := hworks, flushed := hcallbacks }

variable {core : Nat → FlowCore} {ht : HtSys} {t : Htable} {scheduled : Bool} {hash : Nat}

section

variable (h : FlowInv cfg v)
include h

theorem tile_of_shape (hshape : t.shape = v.ht.table.shape) : t.BucketsTile := by
  obtain ⟨hE, -, hB, hstart⟩ := Htable.sizes_of_shape hshape
  intro hash
  rw [hE, hB, hstart]
  exact h.tile hash

/-- A new state in which every entry is in use as before, with its key and nothing new that lookups
see, or given back, or is the entry `e` that was taken for a key. -/
theorem of_entries (e : Nat) (hinv : ∃ place cont, HtInv ht place cont)
    (hshape : ht.table.shape = v.ht.table.shape)
    (hentry : ∀ j, (v.ht.table.KeepsEntry ht.table j ∧ (v.valid j = false → (core j).Clean) ∧
        (v.valid j = true → (core j).key = (v.core j).key ∧ (core j).active = true ∧
          ((core j).visible = true → (v.core j).visible = true))) ∨
      ((ht.table.hentry j).flagValid = false ∧ (core j).Clean) ∨
      (j = e ∧ v.ht.table.Inserts ht.table (cfg.vrHash (core j).key) j ∧ (core j).active = true ∧
        ∀ l, v.valid l = true → (v.core l).visible = true → (v.core l).key ≠ (core j).key))
    (hlocked : ∀ j, (core j).evictCandidate = true → (core j).modified = true) :
    FlowInv cfg { v with ht := ht, core := core } := by
  -- an entry in use was so before, or it is the one that was taken
  have hvalid : ∀ j, (ht.table.hentry j).flagValid = true →
      (v.valid j = true ∧ (core j).key = (v.core j).key ∧ (core j).active = true ∧
        ((core j).visible = true → (v.core j).visible = true)) ∨
      (j = e ∧ (core j).active = true ∧
        ∀ l, v.valid l = true → (v.core l).visible = true → (v.core l).key ≠ (core j).key) := by
    intro j hj
    rcases hentry j with ⟨hkeep, -, hsame⟩ | ⟨hnot, -⟩ | ⟨rfl, -, hnew⟩
    · exact .inl ⟨hkeep.1.symm.trans hj, hsame (hkeep.1.symm.trans hj)⟩
    · cases hnot.symm.trans hj
    · exact .inr ⟨rfl, hnew⟩
  refine ⟨h.keyed.of_entries hinv hshape fun j => ?_, h.tile_of_shape hshape, fun j hj => ?_,
    fun j hj => ?_, fun j l hj hl hvj hvl heq => ?_, hlocked, h.consistent, h.flushed⟩
  · rcases hentry j with ⟨hkeep, -, hsame⟩ | ⟨hnot, -⟩ | ⟨-, hins, -⟩
    · exact .inl ⟨hkeep, hkeep.1, fun hj => congrArg some (hsame hj).1⟩
    · exact .inr (.inl ⟨hnot, hnot⟩)
    · exact .inr (.inr ⟨hins.valid, _, rfl, hins⟩)
  · rcases hentry j with ⟨hkeep, hclean, -⟩ | ⟨-, hclean⟩ | ⟨-, hins, -⟩
    · exact hclean (hkeep.1.symm.trans hj)
    · exact hclean
    · cases hins.valid.symm.trans hj
  · rcases hvalid j hj with ⟨-, -, hactive, -⟩ | ⟨-, hactive, -⟩ <;> exact hactive
  rcases hvalid j hj with ⟨hj, hkj, -, hsj⟩ | ⟨rfl, -, hnew⟩ <;>
    rcases hvalid l hl with ⟨hl, hkl, -, hsl⟩ | ⟨rfl, -, hnew'⟩
  · exact h.unique j l hj hl (hsj hvj) (hsl hvl) (hkj.symm.trans (heq.trans hkl))
  · exact absurd (hkj.symm.trans heq) (hnew' j hj (hsj hvj))
  · exact absurd (hkl.symm.trans heq.symm) (hnew l hl (hsl hvl))
  · rfl

theorem of_core (hkey : ∀ j, (core j).key = (v.core j).key)
    (hclean : ∀ j, v.valid j = false → (core j).Clean)
    (hactive : ∀ j, v.valid j = true → (core j).active = true)
    (hvisible : ∀ j, v.valid j = true → (core j).visible = true → (v.core j).visible = true)
    (hlocked : ∀ j, (core j).evictCandidate = true → (core j).modified = true) :
    FlowInv cfg { v with core := core } :=
  h.of_entries 0 h.keyed.inv rfl (fun j => .inl ⟨⟨rfl, fun _ => rfl⟩, hclean j,
    fun hj => ⟨hkey j, hactive j hj, hvisible j hj⟩⟩) hlocked

theorem of_bits (hbits : ∀ j, (core j).key = (v.core j).key ∧ (core j).active = (v.core j).active ∧
      (core j).deleteMarked = (v.core j).deleteMarked)
    (hclean : ∀ j, v.valid j = false → (core j).Clean)
    (hlocked : ∀ j, (core j).evictCandidate = true → (core j).modified = true) :
    FlowInv cfg { v with core := core } := by
  refine h.of_core (fun j => (hbits j).1) hclean ?_ ?_ hlocked
  · intro j hj
    rw [(hbits j).2.1]
    exact h.active j hj
  · intro j _ hvisible
    unfold FlowCore.visible at hvisible ⊢
    rwa [(hbits j).2.1, (hbits j).2.2] at hvisible

theorem locked_setCore (hc : c.evictCandidate = true → c.modified = true) :
    ∀ j, ((v.setCore i c).core j).evictCandidate = true →
      ((v.setCore i c).core j).modified = true := by
  show ∀ j, (update v.core i c j).evictCandidate = true →
    (update v.core i c j).modified = true
  rw [forall_update_iff v.core fun _ x => x.evictCandidate = true → x.modified = true]
  exact ⟨hc, fun j _ => h.locked j⟩

theorem setCore (hvalid : v.valid i = true) (hkey : c.key = (v.core i).key)
    (hactive : c.active = true) (hvisible : c.visible = true → (v.core i).visible = true)
    (hlocked : c.evictCandidate = true → c.modified = true) : FlowInv cfg (v.setCore i c) := by
  refine h.of_core ?_ ?_ ?_ ?_ ?_
  · rw [forall_update_iff v.core fun j x => x.key = (v.core j).key]
    exact ⟨hkey, fun _ _ => rfl⟩
  · rw [forall_update_iff v.core fun j x => v.valid j = false → x.Clean]
    refine ⟨?_, fun j _ => h.clean j⟩
    rw [hvalid]
    simp
  · rw [forall_update_iff v.core fun j x => v.valid j = true → x.active = true]
    exact ⟨fun _ => hactive, fun j _ => h.active j⟩
  · rw [forall_update_iff v.core fun j x =>
      v.valid j = true → x.visible = true → (v.core j).visible = true]
    exact ⟨fun _ => hvisible, fun _ _ _ => id⟩
  · exact h.locked_setCore hlocked

/-- Releasing an entry of the table, or one that is not in use, does to the hash table what it
should. -/
theorem releases (hrelease : vrHtableReleaseHentry v.ht scheduled i = some ht) :
    (∃ place cont, HtInv ht place cont) ∧ ht.table.shape = v.ht.table.shape ∧
      v.ht.table.Releases ht.table i := by
  obtain ⟨place, cont, hi⟩ := h.keyed.inv
  cases hv : v.valid i with
  | false =>
    have hv : (v.ht.table.hentry i).flagValid = false := hv
    unfold vrHtableReleaseHentry at hrelease
    rw [if_pos (by simp [hv])] at hrelease
    cases hrelease
    exact ⟨⟨place, cont, hi⟩, rfl, .of_invalid hv⟩
  | true =>
    obtain ⟨ht', hht', hi', hrel, hkeep⟩ := hi.release scheduled (h.keyed.bound i hv)
    have hht' : vrHtableReleaseHentry v.ht scheduled i = some ht' := hht'
    rw [hrelease] at hht'
    cases hht'
    exact ⟨⟨place, cont, hi'⟩, hkeep.shape, hrel⟩

theorem release (hrelease : vrHtableReleaseHentry v.ht scheduled i = some ht)
    (hc : c.Clean) : FlowInv cfg { v.setCore i c with ht := ht } := by
  obtain ⟨hinv, hshape, hrel⟩ := h.releases hrelease
  refine h.of_entries i hinv hshape (fun j => ?_)
    (h.locked_setCore fun hcand => absurd hc.evictCandidate (by simp [hcand]))
  have hvalid := (hrel j).1
  by_cases hji : j = i
  · rw [if_pos hji] at hvalid
    rw [hji] at hvalid ⊢
    rw [FlowView.setCore_self]
    exact .inr (.inl ⟨hvalid, hc⟩)
  · rw [if_neg hji] at hvalid
    rw [FlowView.setCore_of_ne hji]
    exact .inl ⟨⟨hvalid, fun _ => (hrel j).2⟩, h.clean j, fun hj => ⟨rfl, h.active j hj, id⟩⟩

theorem unused
    (hfind : vrHtableFindHentry v.ht.table v.getKey k (cfg.vrHash k) = some none) (j : Nat)
    (hj : v.valid j = true) (hvisible : (v.core j).visible = true) : (v.core j).key ≠ k := by
  intro hk
  have hget : ∀ i k, v.keyed.live i = true → v.getKey i = some k → v.keyed.keys i = some k := by
    intro i k _ hik
    show some _ = some _
    rw [(FlowCore.getKey_eq_some.mp hik).2]
  obtain ⟨r, hr, hnone, -⟩ := h.keyed.find h.tile hget k
  have hr : vrHtableFindHentry v.ht.table v.getKey k (cfg.vrHash k) = some r := hr
  rw [hfind] at hr
  cases hr
  exact hnone rfl j hj (FlowCore.getKey_eq_some.mpr ⟨hvisible, hk⟩)

theorem take (hfind : vrHtableFindHentry v.ht.table v.getKey k (cfg.vrHash k) = some none)
    (hfree : vrHtableFindFreeHentry v.ht.table (cfg.vrHash k) = some (some i, t)) (hkey : c.key = k)
    (hactive : c.active = true) (hcandidate : c.evictCandidate = false) :
    v.ht.table.Inserts t (cfg.vrHash k) i ∧ t.shape = v.ht.table.shape ∧
      FlowInv cfg { v.setCore i c with ht := { v.ht with table := t } } := by
  obtain ⟨place, cont, hi⟩ := h.keyed.inv
  obtain ⟨place', cont', hi', hshape, -, hins⟩ := hi.findFree hfree
  have hins := hins i rfl
  refine ⟨hins, hshape, h.of_entries i ⟨place', cont', hi'⟩ hshape (fun j => ?_)
    (h.locked_setCore fun hcand => absurd hcandidate (by simp [hcand]))⟩
  by_cases hji : j = i
  · rw [hji, FlowView.setCore_self, hkey]
    -- the key of the new entry was not in use
    exact .inr (.inr ⟨rfl, hins, hactive, h.unused hfind⟩)
  · rw [FlowView.setCore_of_ne hji]
    exact .inl ⟨hins.others j hji, h.clean j, fun hj => ⟨rfl, h.active j hj, id⟩⟩

theorem table {a : HtStep} (ha : a.Rests) (hstep : v.ht.step a = some ht) :
    FlowInv cfg { v with ht := ht } ∧ ht.table.shape = v.ht.table.shape ∧
      ∀ i, (ht.table.hentry i).flagValid = v.valid i := by
  obtain ⟨place, cont, hi⟩ := h.keyed.inv
  obtain ⟨place', cont', hi', hshape, hkeeps⟩ := hi.rests ha hstep
  refine ⟨h.of_entries 0 ⟨place', cont', hi'⟩ hshape (fun j => ?_) h.locked, hshape,
    fun i => (hkeeps i).1⟩
  exact .inl ⟨hkeeps j, h.clean j, fun hj => ⟨rfl, h.active j hj, id⟩⟩

theorem getEntry_of_valid (hi : v.valid i = true) : v.getEntry i = some i := by
  obtain ⟨place, cont, hinv⟩ := h.keyed.inv
  have hget : vrHtableGetHentryByIndexCore v.ht.table i = some i :=
    hinv.sized.get i (h.keyed.bound i hi)
  unfold FlowView.getEntry vrHtableGetHentryByIndex
  rw [Int.toNat_natCast, hget]
  exact if_pos hi

/-- The entry the hash table gives out for a key was not in use. -/
theorem inserts (hfree : vrHtableFindFreeHentry v.ht.table hash = some (some i, t)) :
    v.ht.table.Inserts t hash i := by
  obtain ⟨place, cont, hi⟩ := h.keyed.inv
  obtain ⟨-, -, -, -, -, hins⟩ := hi.findFree hfree
  exact hins i rfl

theorem clean_of_free
    (hfree : vrHtableFindFreeHentry v.ht.table hash = some (some i, t)) : (v.core i).Clean :=
  h.clean i (h.inserts hfree).fresh

theorem consistent_append {items : List FlowMd}
    (hitems : ∀ flmd ∈ items, flmd.Consistent) : ∀ flmd ∈ v.works ++ items, flmd.Consistent := by
  intro flmd hmem
  rcases List.mem_append.mp hmem with hmem | hmem
  · exact h.consistent flmd hmem
  · exact hitems flmd hmem

end

theorem move {R : FlowRules} (h : FlowInv cfg v) (hm : FlowMove cfg R v v') : FlowInv cfg v' := by
  cases hm with
  | take i c added hfind hfree hkey hactive _ hcandidate _ =>
    rw [((h.clean_of_free hfree).activate _).2] at hcandidate
    exact (h.take hfind hfree hkey hactive hcandidate).2.2.of_eq rfl rfl h.consistent h.flushed
  | change i c hvalid hmodified hdelete hkey hactive _ hcandidate _ =>
    have hinv : FlowInv cfg (v.setCore i c) := by
      refine h.setCore hvalid hkey hactive ?_ ?_
      · intro _
        unfold FlowCore.visible
        rw [h.active i hvalid, hdelete]
        rfl
      · intro hcand
        rw [hcandidate] at hcand
        rw [h.locked i hcand] at hmodified
        cases hmodified
    exact hinv.of_eq rfl rfl h.consistent h.flushed
  | delete i hvalid _ _ _ _ hitem =>
    have hinv : FlowInv cfg (v.setCore i
        { v.core i with deleteMarked := true, modified := true, hold := false }) := by
      refine h.setCore hvalid rfl (h.active i hvalid) ?_ fun _ => rfl
      intro hvisible
      simp [FlowCore.visible] at hvisible
    exact hinv.of_eq rfl rfl (h.consistent_append fun flmd hmem => (hitem flmd hmem).1) h.flushed
  | schedule hflmd =>
    exact h.of_eq rfl rfl (h.consistent_append (by simpa using hflmd)) h.flushed
  | mark i hvalid _ _ _ hflmd =>
    have hinv : FlowInv cfg (v.markPair i) := by
      refine h.of_bits ?_ ?_ ?_
      · intro j
        split <;> exact ⟨rfl, rfl, rfl⟩
      · -- only entries in use are marked
        intro j hj
        rw [if_neg]
        · exact h.clean j hj
        rintro (rfl | hr)
        · rw [hvalid] at hj
          cases hj
        · rw [FlowView.valid_of_getEntry hr] at hj
          cases hj
      · intro j
        split
        · exact fun _ => rfl
        · exact h.locked j
    exact hinv.of_eq rfl rfl (h.consistent_append (by simpa using hflmd)) h.flushed
  | work =>
    refine h.of_eq rfl rfl (fun flmd hmem => ?_) h.flushed
    exact h.consistent flmd (List.mem_of_mem_eraseIdx hmem)
  | callback =>
    refine h.of_eq rfl rfl h.consistent fun vfdd hmem => ?_
    exact h.flushed vfdd (List.mem_of_mem_eraseIdx hmem)
  | defer _ _ _ hflushed =>
    refine h.of_eq rfl rfl h.consistent fun vfdd hmem => ?_
    rcases List.mem_append.mp hmem with hmem | hmem
    · exact h.flushed vfdd hmem
    · rw [List.mem_singleton.mp hmem]
      exact hflushed
  | takeBack i =>
    refine h.of_bits ?_ ?_ (h.locked_setCore (by simp [FlowCore.takenBack]))
    · rw [forall_update_iff v.core fun j x => x.key = (v.core j).key ∧
        x.active = (v.core j).active ∧ x.deleteMarked = (v.core j).deleteMarked]
      exact ⟨⟨rfl, rfl, rfl⟩, fun _ _ => ⟨rfl, rfl, rfl⟩⟩
    · rw [forall_update_iff v.core fun j x => v.valid j = false → x.Clean]
      exact ⟨fun hi => ⟨rfl, rfl, (h.clean i hi).hold⟩, fun j _ => h.clean j⟩
  | reset _ _ _ hrelease =>
    exact (h.release hrelease (FlowCore.cleared_clean _)).of_eq rfl rfl h.consistent h.flushed
  | evict i _ _ _ _ hrelease => exact h.release hrelease (FlowCore.evicted_clean _)
  | finish => exact h.of_eq rfl rfl h.consistent h.flushed
  | table ha hstep => exact (h.table ha hstep).1

end FlowInv

end VRouter
