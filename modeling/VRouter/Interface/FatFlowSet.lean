import VRouter.Interface.FatFlow

/-!
# VRouter — the ports set are those of the latest request

Working out a request as a difference to the old lists goes wrong in four ways: 0 marks a port that
is struck out, so that port 0 is neither added after a strike-out nor ever deleted; a port listed
twice is struck out once only, and deleted although it is named again; and the array of rows is
taken for empty when its first 8 rows are gone. `FatFlowReqOk` rules these out, and for requests
that meet it the bitmap has exactly the ports of the latest one (`vifFatFlowPortIsSet_iff`).
-/

namespace VRouter

/-! ## Bits -/

variable {memRow : Fin 64 → Option FatFlowBitmap} {port p i : Nat} {req last l l' : List Nat}
    {vif : FatFlowVif} {memColumn column : FatFlowBitmap} {alloc : FatFlowAlloc}
    {rows : FatFlowRows} {value : Bool} {c : FatFlowProto}

theorem getLsbD_one_shiftLeft {b : Nat} (hb : b < 8) : (1#8 <<< b).getLsbD i = decide (b = i) := by
  rw [← BitVec.twoPow_eq, BitVec.getLsbD_twoPow, decide_eq_true hb, Bool.true_and]

theorem bit_test (x : BitVec 8) {b : Nat} (hb : b < 8) :
    (x &&& (1#8 <<< b) ≠ 0) ↔ x.getLsbD b = true := by
  rw [← BitVec.twoPow_eq, BitVec.and_twoPow]
  split
  · rename_i hbit
    refine iff_of_true (fun h0 => ?_) hbit
    have := getLsbD_one_shiftLeft hb (i := b)
    rw [← BitVec.twoPow_eq, h0] at this
    simp at this
  · rename_i hbit
    exact iff_of_false (fun h => h rfl) hbit

theorem port_ext (hp : p < 2 ^ 16) (hport : port < 2 ^ 16) (hrow : portRow p = portRow port)
    (hword : portWord p = portWord port) (hbit : portBit p = portBit port) : p = port := by
  have hr := congrArg Fin.val hrow
  have hw := congrArg Fin.val hword
  simp only [portRow, portWord, portBit, vifFatFlowBitmapSize, Fin.ofNat_eq_cast,
    Fin.val_natCast] at hr hw hbit
  omega

theorem portRow_eq_iff (hp : p < 2 ^ 16) (hport : port < 2 ^ 16) :
    portRow p = portRow port ↔ p / 1024 = port / 1024 := by
  rw [Fin.ext_iff]
  simp only [portRow, vifFatFlowBitmapSize, Fin.ofNat_eq_cast, Fin.val_natCast]
  omega

theorem portBit_lt (p : Nat) : portBit p < 8 := Nat.mod_lt _ (by decide)

/-! ## One port -/

/-- The bit of a port in its row. -/
def bitmapBit (memColumn : FatFlowBitmap) (port : Nat) : Bool :=
  (memColumn (portWord port)).getLsbD (portBit port)

theorem fatFlowIsSet_some (memRow : Fin 64 → Option FatFlowBitmap) (p : Nat) :
    fatFlowIsSet (some memRow) p = ((memRow (portRow p)).map (bitmapBit · p)).getD false := by
  simp only [fatFlowIsSet]
  cases memRow (portRow p) with
  | none => rfl
  | some memColumn =>
    rw [Bool.eq_iff_iff, decide_eq_true_iff]
    exact bit_test _ (portBit_lt p)

theorem fatFlowIsSet_setRow (hcol : portRow p = portRow port → bitmapBit column p =
      if p = port then value else fatFlowIsSet (some memRow) p) :
    fatFlowIsSet (some (setRow memRow (portRow port) (some column))) p =
      if p = port then value else fatFlowIsSet (some memRow) p := by
  rw [fatFlowIsSet_some, setRow]
  by_cases hrow : portRow p = portRow port
  · rw [if_pos hrow]
    exact hcol hrow
  · rw [if_neg hrow, if_neg fun h => hrow (by rw [h]), fatFlowIsSet_some]

section

variable (hp : p < 2 ^ 16) (hport : port < 2 ^ 16)

include hp hport

/-- One bit of a row is changed by a change of the byte of `port` that touches no other bit. -/
theorem bitmapBit_setWord {x : BitVec 8} (hrow : portRow p = portRow port)
    (hx : ∀ i, i < 8 → x.getLsbD i =
      if i = portBit port then value else (memColumn (portWord port)).getLsbD i) :
    bitmapBit (setWord memColumn (portWord port) x) p =
      if p = port then value else bitmapBit memColumn p := by
  unfold bitmapBit setWord
  by_cases hword : portWord p = portWord port
  · rw [if_pos hword, hx _ (portBit_lt p), hword]
    refine if_congr ⟨fun hbit => port_ext hp hport hrow hword hbit, fun h => by rw [h]⟩ rfl rfl
  · rw [if_neg hword, if_neg fun h => hword (by rw [h])]

theorem bitmapBit_add (memColumn : FatFlowBitmap) (hrow : portRow p = portRow port) :
    bitmapBit (setWord memColumn (portWord port)
        (memColumn (portWord port) ||| (1#8 <<< portBit port))) p =
      if p = port then true else bitmapBit memColumn p := by
  refine bitmapBit_setWord hp hport hrow fun i hi => ?_
  rw [BitVec.getLsbD_or, getLsbD_one_shiftLeft (portBit_lt port)]
  by_cases h : i = portBit port <;> simp [h, eq_comm]

theorem bitmapBit_delete (memColumn : FatFlowBitmap) (hrow : portRow p = portRow port) :
    bitmapBit (setWord memColumn (portWord port)
        (memColumn (portWord port) &&& ~~~(1#8 <<< portBit port))) p =
      if p = port then false else bitmapBit memColumn p := by
  refine bitmapBit_setWord hp hport hrow fun i hi => ?_
  rw [BitVec.getLsbD_and, BitVec.getLsbD_not, getLsbD_one_shiftLeft (portBit_lt port)]
  by_cases h : i = portBit port <;> simp [h, hi, eq_comm]

theorem fatFlowIsSet_add {allocRows allocBitmap : Bool} {rows' : FatFlowRows}
    (hadd : fatFlowAddPort allocRows allocBitmap rows port = .ok rows') :
    fatFlowIsSet rows' p = if p = port then true else fatFlowIsSet rows p := by
  have hzero : bitmapBit (fun _ => 0) p = false := by simp [bitmapBit]
  cases rows with
  | none =>
    simp only [fatFlowAddPort] at hadd
    split at hadd
    · cases hadd
    split at hadd
    · cases hadd
    cases hadd
    refine (fatFlowIsSet_setRow fun hrow => ?_).trans (if_congr Iff.rfl rfl ?_)
    · rw [bitmapBit_add hp hport _ hrow, hzero]
      rfl
    · rfl
  | some memRow =>
    simp only [fatFlowAddPort] at hadd
    split at hadd
    · rename_i memColumn hrowp
      cases hadd
      refine fatFlowIsSet_setRow fun hrow => ?_
      rw [bitmapBit_add hp hport _ hrow, fatFlowIsSet_some, hrow, hrowp]
      rfl
    rename_i hrowp
    split at hadd
    · cases hadd
    · cases hadd
      refine fatFlowIsSet_setRow fun hrow => ?_
      rw [bitmapBit_add hp hport _ hrow, hzero, fatFlowIsSet_some, hrow, hrowp]
      rfl

end

theorem bitmapBit_of_zero (h : bitmapZero memColumn = true) (p : Nat) :
    bitmapBit memColumn p = false := by
  have h0 := List.all_eq_true.mp h (portWord p) (List.mem_finRange _)
  rw [bitmapBit, of_decide_eq_true h0]
  simp

theorem fatFlowIsSet_unlink {row : Fin 64} (hrow : memRow row = some column)
    (hzero : bitmapZero column = true) (p : Nat) :
    fatFlowIsSet (some (setRow memRow row none)) p = fatFlowIsSet (some memRow) p := by
  rw [fatFlowIsSet_some, fatFlowIsSet_some, setRow]
  by_cases h : portRow p = row
  · rw [if_pos h, h, hrow]
    exact (bitmapBit_of_zero hzero p).symm
  · rw [if_neg h]

/-- An array of rows that passes for empty has no bit set below port 8192. -/
theorem le_of_rowsZero (h : rowsZero memRow = true) (hp : p < 2 ^ 16)
    (hset : fatFlowIsSet (some memRow) p = true) : 8192 ≤ p := by
  have h0 := List.all_eq_true.mp h (portRow p) (List.mem_finRange _)
  have hval : (portRow p).val = p / 1024 := by
    simp only [portRow, vifFatFlowBitmapSize, Fin.ofNat_eq_cast, Fin.val_natCast]
    omega
  rw [Bool.or_eq_true, decide_eq_true_iff, vifFatFlowNumBitmaps] at h0
  rcases h0 with h0 | h0
  · omega
  · rw [fatFlowIsSet_some, Option.isNone_iff_eq_none.mp h0] at hset
    cases hset

/-- `__vif_fat_flow_delete` clears the bit of its port. It clears all bits if the array of rows
passes for empty by then: no port below 8192 and none in the row of `port` is set apart from
`port`. -/
theorem fatFlowIsSet_delete (deferBitmap deferRows : Bool) (rows : FatFlowRows)
    (hport : port < 2 ^ 16) :
    (∀ p, p < 2 ^ 16 → fatFlowIsSet (fatFlowDeletePort deferBitmap deferRows rows port) p =
        if p = port then false else fatFlowIsSet rows p) ∨
      ((∀ p, fatFlowIsSet (fatFlowDeletePort deferBitmap deferRows rows port) p = false) ∧
        ∀ p, p < 2 ^ 16 → fatFlowIsSet rows p = true → p ≠ port →
          8192 ≤ p ∧ p / 1024 ≠ port / 1024) := by
  cases rows with
  | none => exact Or.inl fun p _ => (ite_self _).symm
  | some memRow =>
    cases hrowp : memRow (portRow port) with
    | none =>
      refine Or.inl fun p _ => ?_
      simp only [fatFlowDeletePort, hrowp]
      by_cases hpp : p = port
      · rw [if_pos hpp, hpp, fatFlowIsSet_some, hrowp]
        rfl
      · rw [if_neg hpp]
    | some memColumn =>
      simp only [fatFlowDeletePort, hrowp]
      generalize hcol : setWord memColumn (portWord port)
        (memColumn (portWord port) &&& ~~~(1#8 <<< portBit port)) = column
      have hdel : ∀ p, p < 2 ^ 16 →
          fatFlowIsSet (some (setRow memRow (portRow port) (some column))) p =
            if p = port then false else fatFlowIsSet (some memRow) p := by
        intro p hp
        refine fatFlowIsSet_setRow fun hrow => ?_
        rw [← hcol, bitmapBit_delete hp hport _ hrow, fatFlowIsSet_some, hrow, hrowp]
        rfl
      unfold fatFlowTryFree
      split
      · rename_i hzero
        have hself : setRow memRow (portRow port) (some column) (portRow port) = some column :=
          if_pos rfl
        split
        · exact Or.inl hdel
        split
        · -- the array of rows goes as well
          rename_i hfree
          refine Or.inr ⟨fun _ => rfl, fun p hp hset hne => ?_⟩
          have hset' := hdel p hp
          rw [if_neg hne, hset] at hset'
          have hunlinked := (fatFlowIsSet_unlink hself hzero p).trans hset'
          refine ⟨le_of_rowsZero (Bool.and_eq_true_iff.mp hfree).1 hp hunlinked, fun hrow => ?_⟩
          rw [fatFlowIsSet_some, (portRow_eq_iff hp hport).mpr hrow, hself] at hset'
          exact Bool.false_ne_true ((bitmapBit_of_zero hzero p).symm.trans hset')
        · exact Or.inl fun p hp => (fatFlowIsSet_unlink hself hzero p).trans (hdel p hp)
      · exact Or.inl hdel

/-! ## The lists of a request -/

/-- The ports a request names in one class, in order. -/
def fatFlowPorts (c : FatFlowProto) (req : List Nat) : List Nat :=
  (req.filter (fatFlowClass · = c)).map fatFlowPort

theorem fatFlowPorts_cons (c : FatFlowProto) (pp : Nat) (req : List Nat) :
    fatFlowPorts c (pp :: req) =
      if fatFlowClass pp = c then fatFlowPort pp :: fatFlowPorts c req else fatFlowPorts c req := by
  unfold fatFlowPorts
  by_cases h : fatFlowClass pp = c
  · rw [if_pos h, List.filter_cons_of_pos (by simpa using h), List.map_cons]
  · rw [if_neg h, List.filter_cons_of_neg (by simpa using h)]

theorem fatFlowPort_lt (pp : Nat) : fatFlowPort pp < 2 ^ 16 := by
  unfold fatFlowPort
  split <;> exact lt_of_le_of_lt Nat.and_le_right (by decide)

theorem lt_of_mem_fatFlowPorts (h : p ∈ fatFlowPorts c req) : p < 2 ^ 16 := by
  obtain ⟨pp, -, rfl⟩ := List.mem_map.mp h
  exact fatFlowPort_lt pp

theorem fatFlowCount_eq (req : List Nat) (c : FatFlowProto) :
    fatFlowCount req c = (fatFlowPorts c req).length % 2 ^ 16 := by
  have hfold : ∀ size : FatFlowProto → Nat, size c < 2 ^ 16 →
      req.foldl (fun size pp c => if c = fatFlowClass pp then (size c + 1) % 2 ^ 16 else size c)
        size c = (size c + (fatFlowPorts c req).length) % 2 ^ 16 := by
    induction req with
    | nil => exact fun size hlt => (Nat.mod_eq_of_lt hlt).symm
    | cons pp req ih =>
      intro size hlt
      rw [List.foldl_cons, ih _ (by split <;> omega), fatFlowPorts_cons]
      by_cases h : fatFlowClass pp = c
      · rw [if_pos h.symm, if_pos h, List.length_cons, Nat.mod_add_mod, Nat.add_assoc,
          Nat.add_comm 1]
      · rw [if_neg fun h' => h h'.symm, if_neg h]
  rw [fatFlowCount, hfold _ (by decide), Nat.zero_add]

theorem length_lt_of_nodup (hnodup : l.Nodup) (hzero : 0 ∉ l) (hlt : ∀ p ∈ l, p < 2 ^ 16) :
    l.length < 2 ^ 16 := by
  have hsub : l.toFinset ⊆ (Finset.range (2 ^ 16)).erase 0 := by
    intro p hp
    rw [List.mem_toFinset] at hp
    exact Finset.mem_erase.mpr ⟨fun h => hzero (h ▸ hp), Finset.mem_range.mpr (hlt p hp)⟩
  have hcard := Finset.card_le_card hsub
  rw [List.toFinset_card_of_nodup hnodup, Finset.card_erase_of_mem (by simp),
    Finset.card_range] at hcard
  omega

/-! ## Striking out -/

/-- Apart from struck-out entries, no port is listed twice. -/
def LiveNodup (l : List Nat) : Prop := (l.filter (· ≠ 0)).Nodup

theorem strikeOut_eq_none : strikeOut port l = none ↔ port ∉ l := by
  induction l with
  | nil => simp [strikeOut]
  | cons p l ih =>
    rw [strikeOut]
    by_cases h : p = port
    · simp [h]
    · rw [if_neg h, Option.map_eq_none_iff, ih, List.mem_cons, not_or]
      exact ⟨fun h' => ⟨fun hp => h hp.symm, h'⟩, fun h' => h'.2⟩

theorem filter_strikeOut (hport : port ≠ 0) (h : strikeOut port l = some l') :
    port ∈ l ∧ l'.filter (· ≠ 0) = (l.filter (· ≠ 0)).erase port := by
  induction l generalizing l' with
  | nil => cases h
  | cons p l ih =>
    rw [strikeOut] at h
    by_cases hp : p = port
    · subst hp
      rw [if_pos rfl] at h
      cases h
      refine ⟨List.mem_cons_self, ?_⟩
      rw [List.filter_cons_of_neg (by simp), List.filter_cons_of_pos (by simpa using hport),
        List.erase_cons_head]
    rw [if_neg hp] at h
    obtain ⟨l₁, hl₁, rfl⟩ := Option.map_eq_some_iff.mp h
    obtain ⟨hmem, hfilter⟩ := ih hl₁
    refine ⟨List.mem_cons_of_mem _ hmem, ?_⟩
    by_cases hp0 : p = 0
    · rw [List.filter_cons_of_neg (by simpa using hp0), hfilter,
        List.filter_cons_of_neg (by simpa using hp0)]
    · rw [List.filter_cons_of_pos (by simpa using hp0), hfilter,
        List.filter_cons_of_pos (by simpa using hp0), List.erase_cons_tail (by simpa using hp)]

theorem LiveNodup.strikeOut (hport : port ≠ 0) (hl : LiveNodup l) (h : strikeOut port l = some l') :
    LiveNodup l' ∧ ∀ p, p ≠ 0 → (p ∈ l' ↔ p ∈ l ∧ p ≠ port) := by
  obtain ⟨-, hfilter⟩ := filter_strikeOut hport h
  have hlive : ∀ {m : List Nat} {p : Nat}, p ≠ 0 → (p ∈ m.filter (· ≠ 0) ↔ p ∈ m) := by
    intro m p hp
    rw [List.mem_filter]
    exact and_iff_left (by simpa using hp)
  refine ⟨?_, fun p hp => ?_⟩
  · unfold LiveNodup
    rw [hfilter]
    exact List.Nodup.erase _ hl
  · rw [← hlive hp, hfilter, hl.mem_erase_iff, hlive hp, and_comm]

/-! ## Adding the ports of a request -/

/-- One class in the middle of a request: of the `total` ports named, `done` have been handled, and
`before` was the list of the class before the request. -/
structure ClassAdding (before : List Nat) (total : Nat) (done : List Nat)
    (config : Option (List Nat)) (size : Nat) (rows : FatFlowRows) (old : List Nat) : Prop where
  config_eq : config =
    if total = 0 then none else some (done ++ List.replicate (total - done.length) 0)
  size_eq : size = done.length
  isSet : ∀ p, p < 2 ^ 16 → (fatFlowIsSet rows p = true ↔ p ∈ before ∨ p ∈ done)
  live : LiveNodup old
  mem_old : ∀ p, p ≠ 0 → (p ∈ old ↔ p ∈ before ∧ p ∉ done)

/-- All classes in the middle of a request. -/
def Adding (before : FatFlowProto → List Nat) (total : FatFlowProto → Nat)
    (done : FatFlowProto → List Nat) (u : FatFlowUpdate) : Prop :=
  ∀ c, ClassAdding (before c) (total c) (done c) (u.vif.vifFatFlowConfig c)
    (u.vif.vifFatFlowConfigSize c) (u.vif.vifFatFlowPorts c) (u.old c)

theorem set_append_replicate (l : List Nat) (k port : Nat) :
    (l ++ List.replicate (k + 1) 0).set l.length port = l ++ [port] ++ List.replicate k 0 := by
  rw [List.set_append_right _ _ (le_refl _), Nat.sub_self, List.replicate_succ, List.set_cons_zero,
    List.append_assoc, List.singleton_append]

section

variable {before : FatFlowProto → List Nat} {total : FatFlowProto → Nat}
  {done : FatFlowProto → List Nat} {u u' : FatFlowUpdate}

theorem stored_config (h : Adding before total done u) (hroom : (done c).length < total c)
    (htotal : total c < 2 ^ 16) (port : Nat) : ∃ list, u.vif.vifFatFlowConfig c = some list ∧
      list.set (u.vif.vifFatFlowConfigSize c) port =
        done c ++ [port] ++ List.replicate (total c - (done c ++ [port]).length) 0 ∧
      (u.vif.vifFatFlowConfigSize c + 1) % 2 ^ 16 = (done c ++ [port]).length := by
  have hc := h c
  have hconfig := hc.config_eq
  rw [if_neg (by omega)] at hconfig
  have hlen : (done c ++ [port]).length = (done c).length + 1 := by simp
  refine ⟨_, hconfig, ?_, ?_⟩
  · have hleft : total c - (done c).length = total c - ((done c).length + 1) + 1 := by omega
    rw [hc.size_eq, hlen, hleft, set_append_replicate]
  · rw [hc.size_eq, hlen]
    exact Nat.mod_eq_of_lt (by omega)

theorem Adding.step {pp : Nat} (h : Adding before total done u) (hport : fatFlowPort pp ≠ 0)
    (hnew : fatFlowPort pp ∉ done (fatFlowClass pp))
    (hroom : (done (fatFlowClass pp)).length < total (fatFlowClass pp))
    (htotal : total (fatFlowClass pp) < 2 ^ 16) (hstep : fatFlowAddOne alloc i u pp = .ok u') :
    Adding before total
      (fun c => if c = fatFlowClass pp then done c ++ [fatFlowPort pp] else done c) u' := by
  have hlt := fatFlowPort_lt pp
  obtain ⟨list, hlist, hset, hsize⟩ := stored_config h hroom htotal (fatFlowPort pp)
  unfold fatFlowAddOne at hstep
  simp only [hlist] at hstep
  generalize hc : fatFlowClass pp = c at *
  generalize fatFlowPort pp = port at *
  have hcls := h c
  have hconfig : some (list.set (u.vif.vifFatFlowConfigSize c) port) =
      if total c = 0 then none
      else some (done c ++ [port] ++ List.replicate (total c - (done c ++ [port]).length) 0) := by
    rw [if_neg (by omega), hset]
  cases hstrike : strikeOut port (u.old c) with
  | some struck =>
    rw [hstrike] at hstep
    cases hstep
    obtain ⟨hlive, hmem⟩ := hcls.live.strikeOut hport hstrike
    have hbefore : port ∈ before c :=
      ((hcls.mem_old port hport).mp (filter_strikeOut hport hstrike).1).1
    intro d
    by_cases hd : d = c
    · subst hd
      simp only [if_true]
      refine ⟨hconfig, hsize, fun p hp => ?_, hlive, fun p hp => ?_⟩
      · rw [hcls.isSet p hp, List.mem_append, List.mem_singleton, or_assoc.symm]
        exact ⟨Or.inl, fun h => h.elim id fun hpp => Or.inl (hpp ▸ hbefore)⟩
      · rw [hmem p hp, hcls.mem_old p hp, List.mem_append, List.mem_singleton, not_or, and_assoc]
    · simp only [if_neg hd]
      exact h d
  | none =>
    rw [hstrike] at hstep
    dsimp only at hstep
    split at hstep
    · cases hstep
    rename_i rows hadd
    cases hstep
    have hbefore : port ∉ before c := by
      intro hb
      exact strikeOut_eq_none.mp hstrike ((hcls.mem_old port hport).mpr ⟨hb, hnew⟩)
    intro d
    by_cases hd : d = c
    · subst hd
      simp only [if_true]
      refine ⟨hconfig, hsize, fun p hp => ?_, hcls.live, fun p hp => ?_⟩
      · rw [fatFlowIsSet_add hp hlt hadd, List.mem_append, or_assoc.symm,
          ← hcls.isSet p hp]
        by_cases hpp : p = port <;> simp [hpp]
      · rw [hcls.mem_old p hp, List.mem_append, List.mem_singleton, not_or]
        refine and_congr_right fun hb => ⟨fun hd => ⟨hd, ?_⟩, And.left⟩
        rintro rfl
        exact hbefore hb
    · simp only [if_neg hd]
      exact h d

/-- The whole loop. Induction on the elements left, with the ports handled so far as the
invariant. -/
theorem Adding.loop (h : Adding before total done u) (hport : ∀ c, 0 ∉ fatFlowPorts c req)
    (hnodup : ∀ c, (done c ++ fatFlowPorts c req).Nodup)
    (htotal : ∀ c, total c = (done c ++ fatFlowPorts c req).length ∧ total c < 2 ^ 16)
    (hloop : fatFlowAddLoop alloc i req u = .ok u') :
    Adding before total (fun c => done c ++ fatFlowPorts c req) u' := by
  induction req generalizing i u done with
  | nil =>
    cases hloop
    simpa [fatFlowPorts] using h
  | cons pp req ih =>
    rw [fatFlowAddLoop] at hloop
    split at hloop
    · cases hloop
    rename_i u₁ hone
    -- the ports of the element's own class, and those of the others
    have hsplit : ∀ c, done c ++ fatFlowPorts c (pp :: req) =
        (if c = fatFlowClass pp then done c ++ [fatFlowPort pp] else done c) ++
          fatFlowPorts c req := by
      intro c
      rw [fatFlowPorts_cons]
      by_cases hc : c = fatFlowClass pp
      · rw [if_pos hc, if_pos hc.symm, List.append_assoc, List.singleton_append]
      · rw [if_neg hc, if_neg fun h => hc h.symm]
    have hown : fatFlowPorts (fatFlowClass pp) (pp :: req) =
        fatFlowPort pp :: fatFlowPorts (fatFlowClass pp) req := by
      rw [fatFlowPorts_cons, if_pos rfl]
    have hnd := hnodup (fatFlowClass pp)
    have htot := htotal (fatFlowClass pp)
    have hz := hport (fatFlowClass pp)
    rw [hown] at hnd htot hz
    rw [List.length_append, List.length_cons] at htot
    have h₁ := h.step (fun h0 => hz (h0 ▸ List.mem_cons_self))
      (fun hmem => (List.disjoint_of_nodup_append hnd) hmem List.mem_cons_self) (by omega)
      htot.2 hone
    have := ih h₁ (fun c hc => hport c ?_) (fun c => hsplit c ▸ hnodup c)
      (fun c => hsplit c ▸ htotal c) hloop
    · intro c
      show ClassAdding _ _ (done c ++ fatFlowPorts c (pp :: req)) _ _ _ _
      rw [hsplit c]
      exact this c
    · rw [fatFlowPorts_cons]
      split
      · exact List.mem_cons_of_mem _ hc
      · exact hc

end

/-! ## Deleting what is left of the old lists -/

/-- The rows of a class may be given up only together with its ports: the request names a port
below 8192, or none, or one in each row it drops a port of. -/
def RowsKept (before after : List Nat) : Prop :=
  (∃ q ∈ after, q < 8192) ∨ after = [] ∨
    ∀ p ∈ before, p ∉ after → ∃ q ∈ after, q / 1024 = p / 1024

/-- The delete loop of one class. Induction on what is left of the old list: the ports named stay
set, and what else is set is still to be deleted. -/
theorem fatFlowIsSet_deleteLoop {before after : List Nat} (hkept : RowsKept before after)
    (hafter : ∀ q ∈ after, q < 2 ^ 16) {deferBitmap deferRows : Nat → Bool} {j : Nat}
    {old : List Nat} (hold : ∀ p ∈ old, p ≠ 0 → p ∈ before ∧ p ∉ after)
    (hlt : ∀ p ∈ before, p < 2 ^ 16) (hset : ∀ q ∈ after, fatFlowIsSet rows q = true)
    (hrest : ∀ p, p < 2 ^ 16 → fatFlowIsSet rows p = true → p ∈ after ∨ p ∈ old ∧ p ≠ 0) (p : Nat)
    (hp : p < 2 ^ 16) :
    fatFlowIsSet (fatFlowDeleteLoop deferBitmap deferRows j old rows) p = true ↔ p ∈ after := by
  induction old generalizing j rows with
  | nil =>
    refine ⟨fun h => (hrest p hp h).elim id fun h' => absurd h'.1 List.not_mem_nil, hset p⟩
  | cons port old ih =>
    rw [fatFlowDeleteLoop]
    have hold' : ∀ p ∈ old, p ≠ 0 → p ∈ before ∧ p ∉ after :=
      fun p hmem => hold p (List.mem_cons_of_mem _ hmem)
    by_cases h0 : port = 0
    · rw [if_neg (not_not.mpr h0)]
      refine ih hold' hset fun p hp hs => ?_
      refine (hrest p hp hs).imp id fun h => ⟨?_, h.2⟩
      exact (List.mem_cons.mp h.1).resolve_left fun hpp => h.2 (hpp.trans h0)
    rw [if_pos h0]
    obtain ⟨hb, hna⟩ := hold port List.mem_cons_self h0
    have hport := hlt port hb
    rcases fatFlowIsSet_delete (deferBitmap j) (deferRows j) rows hport with hdel | ⟨hwiped, hrow⟩
    · refine ih hold' (fun q hq => ?_) fun p hp hs => ?_
      · rw [hdel q (hafter q hq), if_neg fun h : q = port => hna (h ▸ hq)]
        exact hset q hq
      · rw [hdel p hp] at hs
        split at hs
        · cases hs
        · rename_i hne
          refine (hrest p hp hs).imp id fun h => ⟨?_, h.2⟩
          exact (List.mem_cons.mp h.1).resolve_left hne
    · -- the array of rows went away: the request names no port of this class
      have hnone : after = [] := by
        have hfar : ∀ q ∈ after, 8192 ≤ q ∧ q / 1024 ≠ port / 1024 := fun q hq =>
          hrow q (hafter q hq) (hset q hq) fun h : q = port => hna (h ▸ hq)
        rcases hkept with ⟨q, hq, hlow⟩ | hnil | hall
        · exact absurd (hfar q hq).1 (by omega)
        · exact hnil
        · obtain ⟨q, hq, hsame⟩ := hall port hb hna
          exact absurd hsame (hfar q hq).2
      refine ih hold' (fun q hq => ?_) fun p hp hs => ?_
      · rw [hnone] at hq
        cases hq
      · rw [hwiped p] at hs
        cases hs

/-! ## Requests -/

/-- A request the difference is worked out correctly for: in each class it names no port twice and
not port 0, and the rows it keeps are kept (`RowsKept`). -/
def FatFlowReqOk (vif : FatFlowVif) (req : List Nat) : Prop :=
  ∀ c, (fatFlowPorts c req).Nodup ∧ 0 ∉ fatFlowPorts c req ∧
    RowsKept ((vif.vifFatFlowConfig c).getD []) (fatFlowPorts c req)

/-- The interface is configured for the ports of `req`. -/
structure Configured (vif : FatFlowVif) (req : List Nat) : Prop where
  nodup : ∀ c, (fatFlowPorts c req).Nodup
  zero : ∀ c, 0 ∉ fatFlowPorts c req
  config : ∀ c, (vif.vifFatFlowConfig c).getD [] = fatFlowPorts c req
  size : ∀ c, vif.vifFatFlowConfigSize c = (fatFlowPorts c req).length
  isSet : ∀ c p, p < 2 ^ 16 →
    (fatFlowIsSet (vif.vifFatFlowPorts c) p = true ↔ p ∈ fatFlowPorts c req)

theorem configured_new : Configured .new [] where
  nodup _ := List.nodup_nil
  zero _ := List.not_mem_nil
  config _ := rfl
  size _ := rfl
  isSet c p _ := by simp [FatFlowVif.new, fatFlowIsSet, fatFlowPorts]

theorem Configured.start (h : Configured vif last) (req : List Nat) :
    Adding (fun c => fatFlowPorts c last) (fatFlowCount req) (fun _ => [])
      (fatFlowStart req vif) := by
  intro c
  have hold : (fatFlowStart req vif).old c = fatFlowPorts c last := by
    show ((vif.vifFatFlowConfig c).getD []).take (vif.vifFatFlowConfigSize c) = _
    rw [h.config c, h.size c, List.take_length]
  refine ⟨rfl, rfl, fun p hp => ?_, ?_, fun p _ => ?_⟩
  · rw [or_iff_left List.not_mem_nil]
    exact h.isSet c p hp
  · rw [hold]
    exact (h.nodup c).filter _
  · rw [hold]
    exact (and_iff_left List.not_mem_nil).symm

theorem Configured.finish {u : FatFlowUpdate} (h : Configured vif last)
    (hreq : FatFlowReqOk vif req)
    (hloop : fatFlowAddLoop alloc 0 req (fatFlowStart req vif) = .ok u) :
    Configured (fatFlowFinish alloc u) req := by
  have hlen : ∀ c, (fatFlowPorts c req).length < 2 ^ 16 := fun c =>
    length_lt_of_nodup (hreq c).1 (hreq c).2.1 fun p hp => lt_of_mem_fatFlowPorts hp
  have hcount : ∀ c, fatFlowCount req c = (fatFlowPorts c req).length := fun c => by
    rw [fatFlowCount_eq, Nat.mod_eq_of_lt (hlen c)]
  have hdone : Adding (fun c => fatFlowPorts c last) (fatFlowCount req)
      (fun c => fatFlowPorts c req) u :=
    (h.start req).loop (fun c => (hreq c).2.1) (fun c => (hreq c).1)
      (fun c => ⟨hcount c, hcount c ▸ hlen c⟩) hloop
  refine ⟨fun c => (hreq c).1, fun c => (hreq c).2.1, fun c => ?_, fun c => (hdone c).size_eq,
    fun c p hp => ?_⟩
  · show (u.vif.vifFatFlowConfig c).getD [] = _
    rw [(hdone c).config_eq, hcount c, Nat.sub_self, List.replicate_zero, List.append_nil]
    split
    · rename_i h0
      rw [List.eq_nil_of_length_eq_zero h0]
      rfl
    · rfl
  · have hkept := (hreq c).2.2
    rw [h.config c] at hkept
    refine fatFlowIsSet_deleteLoop hkept (fun q hq => lt_of_mem_fatFlowPorts hq)
      (fun p hp hp0 => ((hdone c).mem_old p hp0).mp hp) (fun p hp => lt_of_mem_fatFlowPorts hp)
      (fun q hq => ((hdone c).isSet q (lt_of_mem_fatFlowPorts hq)).mpr (Or.inr hq))
      (fun p hp hs => ?_) p hp
    by_cases hmem : p ∈ fatFlowPorts c req
    · exact Or.inl hmem
    · have hlast := (((hdone c).isSet p hp).mp hs).resolve_right hmem
      have hp0 : p ≠ 0 := fun h0 => h.zero c (h0 ▸ hlast)
      exact Or.inr ⟨((hdone c).mem_old p hp0).mpr ⟨hlast, hmem⟩, hp0⟩

theorem Configured.request {vif' : FatFlowVif} (h : Configured vif last)
    (hreq : FatFlowReqOk vif req) (hadd : vifFatFlowAdd alloc req vif = .ok vif') :
    Configured vif' req := by
  unfold vifFatFlowAdd at hadd
  split at hadd
  · -- nothing asked for, nothing there
    rename_i hnone
    cases hadd
    obtain ⟨rfl, hsize⟩ := hnone
    have hlast : ∀ c, fatFlowPorts c last = [] := by
      intro c
      apply List.eq_nil_of_length_eq_zero
      rw [← h.size c]
      exact hsize c (by cases c <;> simp)
    refine ⟨fun _ => List.nodup_nil, fun _ => List.not_mem_nil, fun c => ?_, fun c => ?_,
      fun c p hp => ?_⟩
    · rw [h.config c, hlast c]
      rfl
    · rw [h.size c, hlast c]
      rfl
    · rw [h.isSet c p hp, hlast c]
      rfl
  · split at hadd
    · cases hadd
    cases hloop : fatFlowAddLoop alloc 0 req (fatFlowStart req vif) with
    | error e =>
      rw [hloop] at hadd
      cases hadd
    | ok u =>
      rw [hloop] at hadd
      cases hadd
      exact h.finish hreq hloop

/-- Interfaces that requests meeting `FatFlowReqOk` can lead to from a new one, with the latest
request. -/
inductive FatFlowRun : FatFlowVif → List Nat → Prop where
  | new : FatFlowRun .new []
  | request {vif vif' : FatFlowVif} {last req : List Nat} {alloc : FatFlowAlloc}
      (hrun : FatFlowRun vif last) (hreq : FatFlowReqOk vif req)
      (hadd : vifFatFlowAdd alloc req vif = .ok vif') : FatFlowRun vif' req

theorem FatFlowRun.configured (h : FatFlowRun vif req) : Configured vif req := by
  induction h with
  | new => exact configured_new
  | request _ hreq hadd ih => exact ih.request hreq hadd

/-- **The ports set are those of the latest request**, in every run of successful requests that
meet `FatFlowReqOk`. -/
theorem vifFatFlowPortIsSet_iff {vif : FatFlowVif} {req : List Nat} (hrun : FatFlowRun vif req)
    (c : FatFlowProto) (port : Nat) (hport : port < 2 ^ 16) :
    vifFatFlowPortIsSet vif c port = true ↔ port ∈ fatFlowPorts c req :=
  hrun.configured.isSet c port hport

/-! ## Sample requests -/

/-- All memory can be had. -/
def FatFlowAlloc.all : FatFlowAlloc :=
  ⟨fun _ => true, fun _ => true, fun _ => true, fun _ _ => true, fun _ _ => true⟩

/-- A TCP port in a request. -/
def tcpPort (port : Nat) : Nat := 6 * 2 ^ 16 + port

/-- The bit of a TCP port after two requests on a new interface. -/
def tcpSetAfter (first second : List Nat) (port : Nat) : Option Bool :=
  match (vifFatFlowAdd .all (first.map tcpPort) .new).bind
      (vifFatFlowAdd .all (second.map tcpPort)) with
  | .ok vif => some (vifFatFlowPortIsSet vif .tcp port)
  | .error _ => none

/-- Ports 80 and 443, then ports 443 and 8080. -/
theorem vifFatFlowPortIsSet_iff_sample :
    ∃ vif, FatFlowRun vif [tcpPort 443, tcpPort 8080] ∧
      (vifFatFlowPortIsSet vif .tcp 443 = true ↔
        443 ∈ fatFlowPorts .tcp [tcpPort 443, tcpPort 8080]) := by
  have hok : ∀ {req : List Nat} {vif : FatFlowVif}, (∀ c, (fatFlowPorts c req).Nodup) →
      (∀ c, 0 ∉ fatFlowPorts c req) → (∀ c, fatFlowPorts c req = [] ∨
        ∃ q ∈ fatFlowPorts c req, q < 8192) → FatFlowReqOk vif req :=
    fun hn hz hlow c => ⟨hn c, hz c, (hlow c).elim (fun h => Or.inr (Or.inl h)) Or.inl⟩
  have hboth : ((vifFatFlowAdd .all [tcpPort 80, tcpPort 443] .new).bind
      (vifFatFlowAdd .all [tcpPort 443, tcpPort 8080])).isOk = true := by decide +kernel
  cases h₁ : vifFatFlowAdd .all [tcpPort 80, tcpPort 443] .new with
  | error e =>
    rw [h₁] at hboth
    cases hboth
  | ok vif₁ =>
    rw [h₁] at hboth
    have hrun₁ := FatFlowRun.new.request (hok (by intro c; cases c <;> decide)
      (by intro c; cases c <;> decide) (by intro c; cases c <;> decide)) h₁
    cases h₂ : vifFatFlowAdd .all [tcpPort 443, tcpPort 8080] vif₁ with
    | error e =>
      rw [Except.bind, h₂] at hboth
      cases hboth
    | ok vif₂ =>
      have hrun₂ := hrun₁.request (hok (by intro c; cases c <;> decide)
        (by intro c; cases c <;> decide) (by intro c; cases c <;> decide)) h₂
      exact ⟨vif₂, hrun₂, vifFatFlowPortIsSet_iff hrun₂ .tcp 443 (by decide)⟩

/-- After a request for port 0 and one for port 80, port 0 is still set. After one for ports 80 and
80 and one for port 80, port 80 is not set. After one for port 80 and one for ports 80 and 0, port 0
is not set. After one for ports 80 and 9000 and one for port 9000, port 9000 is not set. -/
theorem vifFatFlowAdd_differs :
    tcpSetAfter [0] [80] 0 = some true ∧ tcpSetAfter [80, 80] [80] 80 = some false ∧
      tcpSetAfter [80] [80, 0] 0 = some false ∧
      tcpSetAfter [80, 9000] [9000] 9000 = some false := by
  decide +kernel

end VRouter
