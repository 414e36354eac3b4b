import VRouter.Htable.Run

/-!
# VRouter — finding what was inserted

Callers write a key into the entry they are given and look entries up by key. `KeyedSys` is the
table with these keys and, for the statement only, a record of which entries have been inserted and
not released since. `vrHtableFindHentry_iff_live` says that in every state such runs reach a lookup
finds an entry exactly if there is one with that key, whatever the hash function does and whatever
releases and work items are still under way.

It holds for tables whose buckets lie inside the table. The bucket of a hash value is found by
masking low bits off, which is a multiple of the bucket size only if that is a power of two
(`bucketsTile_of_two_pow`); for other sizes the last bucket can reach past the end of the table.
-/

namespace VRouter

open LongestMatch Function

/-! ## The loops of the lookup -/

variable {t t' : Htable} {getKey : Nat → Option (List Octet)} {hash : List Octet → Nat}
    {s : KeyedSys} {e fuel m : Nat} {key : List Octet} {p : Option Nat}

section

variable {start left i : Nat}

theorem entryHolds_iff :
    entryHolds t getKey key e = true ↔ (t.hentry e).flagValid = true ∧ getKey e = some key := by
  simp [entryHolds]

theorem findScan_eq_bucketScan : findScan t getKey key start left i =
    bucketScan t (entryHolds t getKey key) start left i := by
  induction left generalizing i with
  | zero => rfl
  | succ left ih =>
    rw [findScan, ih]
    rfl

/-- The chain loop is a search through the chain, which its bound is long enough for. -/
theorem findChain_eq_find? {l : List Nat} (h : Linked t.next p l) (hfuel : l.length ≤ fuel) :
    findChain t getKey key fuel p = l.find? (entryHolds t getKey key) := by
  induction l generalizing fuel p with
  | nil =>
    subst h
    cases fuel <;> rfl
  | cons e l ih =>
    obtain ⟨rfl, hl⟩ := h
    cases fuel with
    | zero => exact absurd hfuel (by simp)
    | succ fuel =>
      unfold findChain
      split <;> simp_all

end

theorem vrHtableGetHentryByIndex_eq_some {index : Nat}
    (h : vrHtableGetHentryByIndex t index = some e) :
    e = index ∧ (t.hentry e).flagValid = true := by
  have hcore : ∀ e, vrHtableGetHentryByIndexCore t index = some e → e = index := by
    intro e he
    unfold vrHtableGetHentryByIndexCore at he
    split at he
    · rcases t.mainEntry_eq index with hnone | hsome
      · rw [hnone] at he
        cases he
      · rw [hsome] at he
        cases he
        rfl
    split at he
    · unfold Htable.overflowEntry at he
      split at he
      · cases he
      · obtain ⟨-, he⟩ := Option.ite_none_right_eq_some.mp he
        cases he
        omega
    · cases he
  unfold vrHtableGetHentryByIndex at h
  split at h
  · rename_i ent hent
    obtain ⟨hv, h⟩ := Option.ite_none_right_eq_some.mp h
    cases h
    exact ⟨hcore _ hent, hv⟩
  · cases h

theorem eq_of_vrHtableFindFreeHentry {hash : Nat}
    (h : vrHtableFindFreeHentry t hash = some (none, t')) : t' = t := by
  rcases vrHtableFindFreeHentry_cases h with ⟨-, heq⟩ | ⟨e, he, -⟩ | ⟨e, he, -⟩
  · exact heq
  · cases he
  · cases he

theorem findChain_some (h : findChain t getKey key fuel p = some e) :
    entryHolds t getKey key e = true := by
  induction fuel generalizing p with
  | zero => cases h
  | succ fuel ih =>
    cases p with
    | none => cases h
    | some ent =>
      unfold findChain at h
      split at h
      · cases h
        assumption
      · exact ih h

theorem vrHtableFindHentry_some {hash : Nat}
    (h : vrHtableFindHentry t getKey key hash = some (some e)) :
    entryHolds t getKey key e = true := by
  unfold vrHtableFindHentry at h
  dsimp only at h
  split at h
  · cases h
  · rename_i hscan
    cases h
    rw [findScan_eq_bucketScan] at hscan
    exact (bucketScan_some hscan).2.2.2
  · exact findChain_some (Option.some_inj.mp h)

/-! ## Buckets inside the table -/

/-- Every bucket a hash value can select lies inside the table. -/
def Htable.BucketsTile (t : Htable) : Prop :=
  ∀ hash, bucketStart t hash + t.htBucketSize ≤ t.htHentries

/-- Masking off the low bits of a 32-bit number is rounding down to a multiple of `2 ^ m`. -/
theorem and_mask_eq {r : Nat} (hr : r < 2 ^ 32) (hm : m ≤ 32) :
    r &&& (2 ^ 32 - 1 - (2 ^ m - 1)) = 2 ^ m * (r / 2 ^ m) := by
  have hmask : 2 ^ 32 - 1 - (2 ^ m - 1) = 2 ^ m * (2 ^ (32 - m) - 1) := by
    have hpow : 2 ^ m * 2 ^ (32 - m) = 2 ^ 32 := by rw [← Nat.pow_add]; congr 1; omega
    have hpos := Nat.two_pow_pos m
    rw [Nat.mul_sub]
    omega
  rw [hmask]
  apply Nat.eq_of_testBit_eq
  intro i
  rw [Nat.testBit_and, Nat.testBit_two_pow_mul, Nat.testBit_two_pow_mul, Nat.testBit_div_two_pow]
  by_cases hmi : m ≤ i
  · have hsub : i - m + m = i := by omega
    rw [hsub]
    by_cases hi : i < 32
    · simp [hmi, show i - m < 32 - m by omega]
    · -- the number has no bits up there
      rw [Nat.testBit_lt_two_pow (lt_of_lt_of_le hr (Nat.pow_le_pow_right (by decide) (by omega)))]
      simp
  · simp [hmi]

theorem bucketsTile_of_two_pow (hB : t.htBucketSize = 2 ^ m) (hdvd : t.htBucketSize ∣ t.htHentries)
    (hpos : 0 < t.htHentries) (hE : t.htHentries < 2 ^ 32) : t.BucketsTile := by
  intro hash
  obtain ⟨q, hq⟩ := hdvd
  rw [hB] at hq
  have hr : hash % t.htHentries < t.htHentries := Nat.mod_lt _ hpos
  have hm : m ≤ 32 := by
    have hle : 2 ^ m ≤ t.htHentries := Nat.le_of_dvd hpos ⟨q, hq⟩
    exact le_of_lt ((Nat.pow_lt_pow_iff_right (by decide)).mp (lt_of_le_of_lt hle hE))
  unfold bucketStart
  rw [hB, and_mask_eq (lt_trans hr hE) hm]
  have hlt : hash % t.htHentries / 2 ^ m < q := Nat.div_lt_of_lt_mul (hq ▸ hr)
  calc 2 ^ m * (hash % t.htHentries / 2 ^ m) + 2 ^ m
    _ ≤ 2 ^ m * q := Nat.mul_le_mul_left _ hlt
    _ = t.htHentries := hq.symm

/-! ## The table with its keys -/

/-- The table, the key each entry holds, and a record of the entries that have been inserted and
not released since. -/
structure KeyedSys where
  sys : HtSys
  keys : Nat → Option (List Octet)
  live : Nat → Bool

/-- What callers and the scheduler do. -/
inductive KeyedStep where
  /-- `vr_htable_find_free_hentry`, and the key is written into the entry it returns. -/
  | insert (key : Option (List Octet)) (keySize : Nat)
  /-- `vr_htable_release_hentry` on an entry of the table. -/
  | release (ent : Nat) (scheduled : Bool)
  /-- A scheduled work item or a deferred callback runs. -/
  | work (deleteIndex : Nat) (alloc : Nat → Bool)
  | callback (ent : Nat)
  /-- `vr_not_ready` is written. -/
  | setNotReady (notReady : Bool)

/-- One step, with `hash` for `vr_hash`. -/
def KeyedSys.step (hash : List Octet → Nat) (s : KeyedSys) : KeyedStep → Option KeyedSys
  | .insert key keySize =>
    match keyOf s.sys.table key keySize with
    | none => some s
    | some k =>
      match vrHtableFindFreeHentry s.sys.table (hash k) with
      | none => none
      | some (none, t) => some { s with sys := { s.sys with table := t } }
      | some (some ent, t) =>
        some
          { sys := { s.sys with table := t }
            keys := update s.keys ent (some k)
            live := update s.live ent true }
  | .release ent scheduled =>
    (s.sys.step (.release ent scheduled)).map fun sys =>
      { s with sys := sys, live := update s.live ent false }
  | .work d alloc => (s.sys.step (.work d alloc)).map fun sys => { s with sys := sys }
  | .callback ent => (s.sys.step (.callback ent)).map fun sys => { s with sys := sys }
  | .setNotReady notReady =>
    (s.sys.step (.setNotReady notReady)).map fun sys => { s with sys := sys }

/-- A new table: no entry holds a key. -/
def KeyedSys.initial (t : Htable) (notReady : Bool) : KeyedSys where
  sys := .initial t notReady
  keys := fun _ => none
  live := fun _ => false

/-- The invariant: an entry is valid exactly if it is live, and then it is in the bucket of its
key, or in the chain of that bucket. -/
structure KeyedInv (hash : List Octet → Nat) (s : KeyedSys) : Prop where
  inv : ∃ place cont, HtInv s.sys place cont
  live : ∀ i, i < s.sys.table.htHentries + s.sys.table.htOentries →
    (s.live i = true ↔ (s.sys.table.hentry i).flagValid = true)
  bound : ∀ i, s.live i = true → i < s.sys.table.htHentries + s.sys.table.htOentries
  key : ∀ i, s.live i = true → ∃ k, s.keys i = some k ∧
    (i < s.sys.table.htHentries → bucketStart s.sys.table (hash k) ≤ i ∧
      i < bucketStart s.sys.table (hash k) + s.sys.table.htBucketSize) ∧
    (s.sys.table.htHentries ≤ i → (s.sys.table.hentry i).hentryBucketIndex =
      bucketStart s.sys.table (hash k) + s.sys.table.htBucketSize - 1)

theorem Htable.isOverflow_of_shape (h : t'.shape = t.shape) (i : Nat) :
    t'.IsOverflow i ↔ t.IsOverflow i := by
  obtain ⟨hE, hO, -, -⟩ := Htable.sizes_of_shape h
  unfold Htable.IsOverflow
  rw [hE, hO]

/-- Entry `i` is as valid as it was, and in the same bucket. -/
def Htable.KeepsEntry (t t' : Htable) (i : Nat) : Prop :=
  (t'.hentry i).flagValid = (t.hentry i).flagValid ∧
    ((t.hentry i).flagValid = true →
      (t'.hentry i).hentryBucketIndex = (t.hentry i).hentryBucketIndex)

namespace KeyedInv

variable {sys : HtSys} {s' : KeyedSys} {ent : Nat}

variable (h : KeyedInv hash s)
include h

/-- A new state in which every entry is as it was, or no longer live, or put in the bucket of its
key. -/
theorem of_entries (hinv : ∃ place cont, HtInv s'.sys place cont)
    (hshape : s'.sys.table.shape = s.sys.table.shape)
    (hentry : ∀ i, (s.sys.table.KeepsEntry s'.sys.table i ∧ s'.live i = s.live i ∧
        (s.live i = true → s'.keys i = s.keys i)) ∨
      (s'.live i = false ∧ (s'.sys.table.hentry i).flagValid = false) ∨
      (s'.live i = true ∧ ∃ k, s'.keys i = some k ∧ s.sys.table.Inserts s'.sys.table (hash k) i)) :
    KeyedInv hash s' := by
  obtain ⟨hE, hO, hB, hstart⟩ := Htable.sizes_of_shape hshape
  refine ⟨hinv, fun i hi => ?_, fun i hi => ?_, fun i hi => ?_⟩
  · rcases hentry i with ⟨hkeep, hlive, -⟩ | ⟨hlive, hvalid⟩ | ⟨hlive, k, -, hins⟩
    · rw [hlive, hkeep.1]
      exact h.live i (by rw [← hE, ← hO]; exact hi)
    · rw [hlive, hvalid]
    · exact iff_of_true hlive hins.valid
  · rw [hE, hO]
    rcases hentry i with ⟨-, hlive, -⟩ | ⟨hlive, -⟩ | ⟨-, k, -, hins⟩
    · exact h.bound i (hlive ▸ hi)
    · cases hlive.symm.trans hi
    · exact hins.lt
  simp only [hE, hB, hstart]
  rcases hentry i with ⟨hkeep, hlive, hkey⟩ | ⟨hlive, -⟩ | ⟨-, k, hk, hins⟩
  · rw [hlive] at hi
    rw [hkey hi, hkeep.2 ((h.live i (h.bound i hi)).mp hi)]
    exact h.key i hi
  · cases hlive.symm.trans hi
  · exact ⟨k, hk, hins.main, hins.overflow⟩

theorem of_keepsValid (hinv : ∃ place cont, HtInv sys place cont)
    (hshape : sys.table.shape = s.sys.table.shape) (hkeeps : s.sys.table.KeepsValid sys.table) :
    KeyedInv hash { s with sys := sys } :=
  h.of_entries hinv hshape fun i => .inl ⟨hkeeps i, rfl, fun _ => rfl⟩

theorem release (hinv : ∃ place cont, HtInv sys place cont)
    (hshape : sys.table.shape = s.sys.table.shape) (hrel : s.sys.table.Releases sys.table ent) :
    KeyedInv hash { s with sys := sys, live := update s.live ent false } := by
  refine h.of_entries hinv hshape fun i => ?_
  have hvalid := (hrel i).1
  by_cases hie : i = ent
  · rw [if_pos hie] at hvalid
    exact .inr (.inl ⟨hie ▸ update_self _ _ _, hvalid⟩)
  · rw [if_neg hie] at hvalid
    exact .inl ⟨⟨hvalid, fun _ => (hrel i).2⟩, update_of_ne hie _ _, fun _ => rfl⟩

theorem insert {k : List Octet} (hinv : ∃ place cont, HtInv { s.sys with table := t } place cont)
    (hshape : t.shape = s.sys.table.shape) (hins : s.sys.table.Inserts t (hash k) ent) :
    KeyedInv hash
      { sys := { s.sys with table := t }
        keys := update s.keys ent (some k)
        live := update s.live ent true } := by
  refine h.of_entries hinv hshape fun i => ?_
  by_cases hie : i = ent
  · subst hie
    exact .inr (.inr ⟨update_self _ _ _, k, update_self _ _ _, hins⟩)
  · exact .inl ⟨hins.others i hie, update_of_ne hie _ _,
      fun _ => update_of_ne hie _ _⟩

theorem rests {a : HtStep} (ha : a.Rests) (hs : s.sys.step a = some sys) :
    KeyedInv hash { s with sys := sys } ∧ sys.table.shape = s.sys.table.shape := by
  obtain ⟨place, cont, hi⟩ := h.inv
  obtain ⟨place', cont', hi', hshape, hkeeps⟩ := hi.rests ha hs
  exact ⟨h.of_keepsValid ⟨place', cont', hi'⟩ hshape hkeeps, hshape⟩

theorem step {a : KeyedStep} (hs : s.step hash a = some s') :
    KeyedInv hash s' ∧ s'.sys.table.shape = s.sys.table.shape := by
  obtain ⟨place, cont, hi⟩ := h.inv
  cases a with
  | insert key keySize =>
    simp only [KeyedSys.step] at hs
    split at hs
    · cases hs
      exact ⟨h, rfl⟩
    split at hs
    · cases hs
    · rename_i t hfind
      cases hs
      obtain ⟨place', cont', hi', hshape, hnone, -⟩ := hi.findFree hfind
      refine ⟨h.of_keepsValid ⟨place', cont', hi'⟩ hshape ?_, hshape⟩
      rw [hnone rfl]
      exact .refl _
    · rename_i ent t hfind
      cases hs
      obtain ⟨place', cont', hi', hshape, -, hins⟩ := hi.findFree hfind
      exact ⟨h.insert ⟨place', cont', hi'⟩ hshape (hins ent rfl), hshape⟩
  | release ent scheduled =>
    obtain ⟨sys, hsys, rfl⟩ := Option.map_eq_some_iff.mp hs
    obtain ⟨hlt, hsys⟩ := Option.ite_none_right_eq_some.mp hsys
    obtain ⟨sys', hsys', hi', hrel, hkeep⟩ := hi.release scheduled hlt
    rw [hsys'] at hsys
    cases hsys
    exact ⟨h.release ⟨place, cont, hi'⟩ hkeep.shape hrel, hkeep.shape⟩
  | work d alloc =>
    obtain ⟨sys, hsys, rfl⟩ := Option.map_eq_some_iff.mp hs
    exact h.rests (a := .work d alloc) trivial hsys
  | callback ent =>
    obtain ⟨sys, hsys, rfl⟩ := Option.map_eq_some_iff.mp hs
    exact h.rests (a := .callback ent) trivial hsys
  | setNotReady notReady =>
    cases hs
    exact h.rests (a := .setNotReady notReady) trivial rfl

/-! ## The lookup -/

/-- The lookup returns, and finds an entry that holds the key if there is a live one. `getKey` may
hide the key of an entry, but shows no other key than the one the entry was inserted with. -/
theorem find (htile : s.sys.table.BucketsTile)
    (hget : ∀ i k, s.live i = true → getKey i = some k → s.keys i = some k) (k : List Octet) :
    ∃ r, vrHtableFindHentry s.sys.table getKey k (hash k) = some r ∧
      (r = none → ∀ i, s.live i = true → getKey i ≠ some k) ∧
      ∀ e, r = some e → s.live e = true ∧ getKey e = some k := by
  obtain ⟨place, cont, hi⟩ := h.inv
  have hbpos := hi.sized.bucket_pos
  have htile := htile (hash k)
  generalize hstart : bucketStart s.sys.table (hash k) = start at htile
  have hhead : start + s.sys.table.htBucketSize - 1 < s.sys.table.htHentries := by omega
  have hchain := (hi.owned.chain _ hhead).2
  -- what holds the key is live, as only entries of the table are looked at
  have hlive : ∀ e, e < s.sys.table.htHentries + s.sys.table.htOentries →
      entryHolds s.sys.table getKey k e = true → s.live e = true ∧ getKey e = some k := by
    intro e he hholds
    obtain ⟨hv, hk⟩ := entryHolds_iff.mp hholds
    exact ⟨(h.live e he).mpr hv, hk⟩
  obtain ⟨r, hscan⟩ : ∃ r, findScan s.sys.table getKey k start s.sys.table.htBucketSize 0 =
      some r := by
    rw [findScan_eq_bucketScan]
    apply bucketScan_isSome
    intro j _ hj
    exact hi.mainEntry (by omega)
  unfold vrHtableFindHentry
  simp only [hstart, hscan]
  rw [findScan_eq_bucketScan] at hscan
  cases r with
  | some e =>
    obtain ⟨-, -, hmain, hholds⟩ := bucketScan_some hscan
    have he := (hi.sized.lt_of_mainEntry hmain).2
    refine ⟨some e, rfl, by simp, ?_⟩
    rintro e' ⟨⟩
    exact hlive e (by omega) hholds
  | none =>
    rw [findChain_eq_find? hchain (hi.owned.length_le _)]
    refine ⟨_, rfl, ?_, ?_⟩
    · intro hnone i hlivei hk
      rw [List.find?_eq_none] at hnone
      have hv := (h.live i (h.bound i hlivei)).mp hlivei
      obtain ⟨k', hk', hmain, hover⟩ := h.key i hlivei
      rw [hget i k hlivei hk] at hk'
      cases hk'
      rw [hstart] at hmain hover
      have hholds : entryHolds s.sys.table getKey k i = true := entryHolds_iff.mpr ⟨hv, hk⟩
      by_cases hlt : i < s.sys.table.htHentries
      · -- an entry of the bucket would have been seen by the bucket loop
        obtain ⟨hge, hlt'⟩ := hmain hlt
        have hseen := (bucketScan_none hscan (j := i - start) (by omega) (by omega)).2
        rw [Nat.add_sub_cancel' hge, hholds] at hseen
        cases hseen
      -- an overflow entry that is valid is in the chain its bucket index names
      have hov : s.sys.table.IsOverflow i := ⟨by omega, h.bound i hlivei⟩
      obtain ⟨h', hc⟩ := hi.chain_of_valid hov hv
      have hb := hi.owned.bucket h' i hc
      rw [hover (by omega)] at hb
      subst hb
      exact hnone i hc hholds
    · intro e he
      have hmem := List.mem_of_find?_eq_some he
      exact hlive e (hi.owned.placed.dom_of_mem hmem).2 (List.find?_some he)

theorem getByIndex (he : s.live e = true) :
    vrHtableGetHentryByIndex s.sys.table (s.sys.table.hentry e).hentryIndex = some e := by
  obtain ⟨place, cont, hi⟩ := h.inv
  have hlt := h.bound e he
  unfold vrHtableGetHentryByIndex
  rw [hi.owned.index e hlt, hi.sized.get e hlt]
  exact if_pos ((h.live e hlt).mp he)

end KeyedInv

theorem KeyedInv.findFree_isSome (h : KeyedInv hash s) (htile : s.sys.table.BucketsTile) (n : Nat) :
    vrHtableFindFreeHentry s.sys.table n ≠ none := by
  have htile := htile n
  obtain ⟨place, cont, hi⟩ := h.inv
  obtain ⟨r, hscan⟩ : ∃ r, findFreeScan s.sys.table (bucketStart s.sys.table n)
      s.sys.table.htBucketSize 0 = some r := by
    rw [findFreeScan_eq_bucketScan]
    apply bucketScan_isSome
    intro j _ hj
    exact hi.mainEntry (by omega)
  unfold vrHtableFindFreeHentry
  simp only [hscan]
  cases r with
  | some e => simp
  | none =>
    simp only
    split
    · simp
    · split <;> simp

theorem KeyedInv.insert_isSome (h : KeyedInv hash s) (htile : s.sys.table.BucketsTile)
    (key : Option (List Octet)) (keySize : Nat) :
    (s.step hash (.insert key keySize)).isSome = true := by
  simp only [KeyedSys.step]
  split
  · rfl
  rename_i k _
  have hfree := h.findFree_isSome htile (hash k)
  split
  · contradiction
  · rfl
  · rfl

/-! ## Every run -/

/-- What a caller of the table relies on in one state: insertions return, and a lookup returns an
entry exactly if one has been inserted with that key and not released since, an entry that holds
the key and that its stored index leads back to. -/
structure KeyedSys.Serves (hash : List Octet → Nat) (s : KeyedSys) : Prop where
  insert : ∀ key keySize, (s.step hash (.insert key keySize)).isSome = true
  find : ∀ key keySize k, keyOf s.sys.table key keySize = some k →
    ∃ r, vrHtableFindHentry s.sys.table s.keys k (hash k) = some r ∧
      (r.isSome = true ↔ ∃ i, s.live i = true ∧ s.keys i = some k) ∧
      ∀ e, r = some e → s.keys e = some k ∧
        vrHtableGetHentryByIndex s.sys.table (s.sys.table.hentry e).hentryIndex = some e

theorem KeyedInv.serves (h : KeyedInv hash s) (htile : s.sys.table.BucketsTile) :
    s.Serves hash := by
  refine ⟨h.insert_isSome htile, fun _ _ k _ => ?_⟩
  obtain ⟨r, hr, hnone, hsome⟩ := h.find htile (fun _ _ _ hk => hk) k
  refine ⟨r, hr, ⟨?_, ?_⟩, fun e he => ?_⟩
  · intro hr
    obtain ⟨e, rfl⟩ := Option.isSome_iff_exists.mp hr
    exact ⟨e, hsome e rfl⟩
  · rintro ⟨i, hlive, hk⟩
    cases r with
    | none => exact absurd hk (hnone rfl i hlive)
    | some e => rfl
  · obtain ⟨hlive, hk⟩ := hsome e he
    exact ⟨hk, h.getByIndex hlive⟩

theorem Created.keyedInv (hc : Created t) (hlt : t.htHentries + t.htOentries < 2 ^ 32)
    (hash : List Octet → Nat) (notReady : Bool) : KeyedInv hash (.initial t notReady) := by
  refine ⟨⟨_, _, hc.htInv hlt notReady⟩, ?_, ?_, ?_⟩
  · intro i _
    show false = true ↔ (t.hentry i).flagValid = true
    rw [hc.hentry]
    exact Iff.rfl
  · rintro i ⟨⟩
  · rintro i ⟨⟩

/-- A lookup in a table without valid entries looks at the whole bucket. -/
theorem bucketsTile_of_find (hc : Created t) (getKey : Nat → Option (List Octet)) (k : List Octet)
    (h : ∀ hash, (vrHtableFindHentry t getKey k hash).isSome = true) : t.BucketsTile := by
  intro hash
  have hfind := h hash
  have hbpos := hc.bucket_pos
  unfold vrHtableFindHentry at hfind
  dsimp only at hfind
  split at hfind
  · cases hfind
  · rename_i e hscan
    rw [findScan_eq_bucketScan] at hscan
    have hv := (entryHolds_iff.mp (bucketScan_some hscan).2.2.2).1
    cases (hc.not_valid e).symm.trans hv
  · rename_i hscan
    rw [findScan_eq_bucketScan] at hscan
    -- the last entry of the bucket has been read, so it is one of the table's entries
    have hlast := (bucketScan_none hscan (j := t.htBucketSize - 1) (by omega) (by omega)).1
    unfold Htable.mainEntry at hlast
    split at hlast
    · rename_i hget
      have := lt_of_vrBtableGet hget
      rw [hc.entries] at this
      omega
    · cases hlast

/-- In every state a table reaches, lookups find what has been inserted, for every hash function,
if and only if the buckets that hash values select lie inside the table. -/
theorem vrHtableFindHentry_iff_live {entries oentries entrySize keySize bucketSize : Nat}
    {t : Htable} (hcreate : vrHtableCreate entries oentries entrySize keySize bucketSize = some t)
    (hfit : t.EntriesFit entrySize) :
    t.BucketsTile ↔ ∀ (hash : List Octet → Nat) (notReady : Bool) (as : List KeyedStep)
      (s : KeyedSys), runSteps (KeyedSys.step hash) (.initial t notReady) as = some s →
        s.Serves hash := by
  have hc := (vrHtableCreate_created hcreate).1
  constructor
  · intro htile hash notReady as s hrun
    have hinv : KeyedInv hash s ∧ s.sys.table.shape = t.shape := by
      refine runSteps_invariant (I := fun s => KeyedInv hash s ∧ s.sys.table.shape = t.shape) ?_
        ⟨hc.keyedInv hfit.lt hash notReady, rfl⟩ hrun
      rintro s a s' ⟨hinv, hshape⟩ hs
      obtain ⟨hinv', hshape'⟩ := hinv.step hs
      exact ⟨hinv', hshape'.trans hshape⟩
    apply hinv.1.serves
    obtain ⟨hE, -, hB, hstart⟩ := Htable.sizes_of_shape hinv.2
    intro hash
    rw [hE, hB, hstart]
    exact htile hash
  · intro hserves
    -- a constant hash function, and a lookup before the first insertion
    apply bucketsTile_of_find hc (fun _ => none) [0]
    intro h
    obtain ⟨r, hr, -⟩ := (hserves (fun _ => h) false [] _ rfl).find (some [0]) 1 [0] rfl
    exact Option.isSome_iff_exists.mpr ⟨r, hr⟩

/-- A table with buckets of four, the size callers use. -/
theorem vrHtableFindHentry_iff_live_four :
    ∃ t, vrHtableCreate 8 4 32 8 4 = some t ∧ t.EntriesFit 32 ∧ t.BucketsTile ∧
      ∀ (hash : List Octet → Nat) (notReady : Bool) (as : List KeyedStep) (s : KeyedSys),
        runSteps (KeyedSys.step hash) (.initial t notReady) as = some s → s.Serves hash := by
  obtain ⟨t, ht, hfit, hB⟩ : ∃ t, vrHtableCreate 8 4 32 8 4 = some t ∧ t.EntriesFit 32 ∧
      t.htBucketSize = 2 ^ 2 :=
    ⟨_, rfl, ⟨by decide, ⟨by decide, by decide⟩, ⟨by decide, by decide⟩⟩, rfl⟩
  have hc := (vrHtableCreate_created ht).1
  have htile : t.BucketsTile := by
    have := hfit.lt
    exact bucketsTile_of_two_pow hB hc.dvd hc.hentries_pos (by omega)
  exact ⟨t, ht, hfit, htile, (vrHtableFindHentry_iff_live ht hfit).mp htile⟩

/-- A table of three entries in one bucket of three: the bucket of hash value 1 starts at entry 1,
and the lookup reads entry 3, which does not exist. -/
theorem vrHtableFindHentry_past_table :
    ∃ t, vrHtableCreate 3 0 32 8 3 = some t ∧ t.EntriesFit 32 ∧
      keyOf t (some [0]) 1 = some [0] ∧
      vrHtableFindHentry t (KeyedSys.initial t false).keys [0] 1 = none ∧
      ¬ (KeyedSys.initial t false).Serves fun _ => 1 := by
  obtain ⟨t, ht, hfit, hfind⟩ : ∃ t, vrHtableCreate 3 0 32 8 3 = some t ∧ t.EntriesFit 32 ∧
      vrHtableFindHentry t (fun _ => none) [0] 1 = none :=
    ⟨_, rfl, ⟨by decide, ⟨by decide, by decide⟩, ⟨by decide, by decide⟩⟩, by decide⟩
  refine ⟨t, ht, hfit, rfl, hfind, fun hserves => ?_⟩
  obtain ⟨r, hr, -⟩ := hserves.find (some [0]) 1 [0] rfl
  exact absurd (hr.symm.trans hfind) (by simp)

end VRouter
