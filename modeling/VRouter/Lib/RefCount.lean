import Mathlib.Tactic

/-!
# Reference counted objects

Objects are shared by counting the references to them. `RefOp` is what a program does to the counts:
it takes a reference or gives one up. `Moves ops A B` says that a program that holds the references
`A` and does `ops` holds `B` afterwards, and gives up no reference that it does not hold; it is
closed under sequencing (`Moves.append`), under what else the program holds (`Moves.frame`), and
under loops (`Moves.sum`).

An object may itself hold references, which it lets go when its own count reaches zero. `release`
carries this out, and `Balanced` says that every count is the number of references there are:
`release_balanced` and `execOps_balanced` keep it, whatever is let go on the way.
-/

namespace RefCount

open Function
open scoped BigOperators

variable {P : Type}

/-- Taking a reference, and giving one up. -/
inductive RefOp (P : Type) where
  | get (p : P)
  | put (p : P)
  deriving DecidableEq, Repr

/-- The references an optional pointer stands for. -/
def refOf : Option P → Multiset P
  | none => 0
  | some p => {p}

@[simp] theorem refOf_none : refOf (none : Option P) = 0 := rfl

@[simp] theorem refOf_some (p : P) : refOf (some p) = {p} := rfl

/-- Taking an optional reference. -/
def getOf : Option P → List (RefOp P)
  | none => []
  | some p => [.get p]

/-- Giving up an optional reference. -/
def putOf : Option P → List (RefOp P)
  | none => []
  | some p => [.put p]

/-! ## What a program holds -/

/-- A program that holds `A` and does `ops` holds `B`, and gives up only what it holds. -/
inductive Moves : List (RefOp P) → Multiset P → Multiset P → Prop
  | nil (A : Multiset P) : Moves [] A A
  | get {p : P} {ops : List (RefOp P)} {A B : Multiset P} (h : Moves ops ({p} + A) B) :
      Moves (.get p :: ops) A B
  | put {p : P} {ops : List (RefOp P)} {A B : Multiset P} (h : Moves ops A B) :
      Moves (.put p :: ops) ({p} + A) B

variable {ops ops₁ ops₂ : List (RefOp P)} {A B C : Multiset P} {p : P}

theorem Moves.append (h₁ : Moves ops₁ A B) (h₂ : Moves ops₂ B C) : Moves (ops₁ ++ ops₂) A C := by
  induction h₁ with
  | nil A => exact h₂
  | get _ ih => exact .get (ih h₂)
  | put _ ih => exact .put (ih h₂)

/-- What else the program holds does not matter. -/
theorem Moves.frame (h : Moves ops A B) (E : Multiset P) : Moves ops (A + E) (B + E) := by
  induction h with
  | nil A => exact .nil _
  | get _ ih =>
    apply Moves.get
    rwa [← add_assoc]
  | put _ ih =>
    rw [add_assoc]
    exact .put ih

theorem Moves.frame_left (h : Moves ops A B) (E : Multiset P) : Moves ops (E + A) (E + B) := by
  rw [add_comm E A, add_comm E B]
  exact h.frame E

theorem moves_get (p : P) (A : Multiset P) : Moves [.get p] A ({p} + A) := .get (.nil _)

theorem moves_put (p : P) (A : Multiset P) : Moves [.put p] ({p} + A) A := .put (.nil _)

theorem moves_getOf (q : Option P) (A : Multiset P) : Moves (getOf q) A (refOf q + A) := by
  cases q with
  | none =>
    rw [refOf_none, zero_add]
    exact .nil A
  | some p => exact moves_get p A

theorem moves_putOf (q : Option P) (A : Multiset P) : Moves (putOf q) (refOf q + A) A := by
  cases q with
  | none =>
    rw [refOf_none, zero_add]
    exact .nil A
  | some p => exact moves_put p A

theorem moves_putOf_all (q : Option P) : Moves (putOf q) (refOf q) 0 := by
  rw [← add_zero (refOf q)]
  exact moves_putOf q 0

/-- A loop: what each round holds changes independently of the other rounds. -/
theorem Moves.sum {ι : Type} [DecidableEq ι] (f : ι → List (RefOp P)) (a b : ι → Multiset P)
    (h : ∀ i, Moves (f i) (a i) (b i)) (l : List ι) (hl : l.Nodup) :
    Moves (l.flatMap f) (∑ i ∈ l.toFinset, a i) (∑ i ∈ l.toFinset, b i) := by
  induction l with
  | nil => exact .nil _
  | cons i l ih =>
    have hi : i ∉ l.toFinset := by simpa using (List.nodup_cons.mp hl).1
    rw [List.toFinset_cons, Finset.sum_insert hi, Finset.sum_insert hi]
    exact ((h i).frame _).append ((ih (List.nodup_cons.mp hl).2).frame_left _)

/-- A table of `n` cells of which one changes, with references `C` left over. -/
theorem Moves.cell_add {n i : Nat} {a b : Nat → Multiset P} (h : Moves ops (a i) (b i + C))
    (hi : i < n) (hothers : ∀ j, j ≠ i → a j = b j) :
    Moves ops (∑ j ∈ Finset.range n, a j) (∑ j ∈ Finset.range n, b j + C) := by
  have hmem : i ∈ Finset.range n := Finset.mem_range.mpr hi
  have hsame : ∑ j ∈ (Finset.range n).erase i, a j = ∑ j ∈ (Finset.range n).erase i, b j :=
    Finset.sum_congr rfl fun j hj => hothers j (Finset.ne_of_mem_erase hj)
  rw [← Finset.add_sum_erase _ a hmem, ← Finset.add_sum_erase _ b hmem, hsame, add_right_comm]
  exact h.frame _

/-- A table of `n` cells of which one is written; `refs` are the references a cell holds. -/
theorem Moves.update {γ : Type} (refs : γ → Multiset P) {n i : Nat} {f : Nat → γ} {x : γ}
    (h : Moves ops (refs (f i)) (refs x)) (hi : i < n) :
    Moves ops (∑ j ∈ Finset.range n, refs (f j))
      (∑ j ∈ Finset.range n, refs (Function.update f i x j)) := by
  rw [← add_zero (∑ j ∈ Finset.range n, refs (Function.update f i x j))]
  refine Moves.cell_add ?_ hi fun j hj => ?_
  · rw [update_self, add_zero]
    exact h
  · rw [update_of_ne hj]

theorem moves_gets (ps : List P) (A : Multiset P) :
    Moves (ps.map .get) A ((ps : Multiset P) + A) := by
  induction ps generalizing A with
  | nil => exact (zero_add A).symm ▸ .nil A
  | cons p ps ih =>
    have hcons : (ps : Multiset P) + ({p} + A) = ((p :: ps : List P) : Multiset P) + A := by
      rw [← Multiset.cons_coe, ← Multiset.singleton_add]
      abel
    exact .get (hcons ▸ ih ({p} + A))

theorem moves_puts (ps : List P) (A : Multiset P) :
    Moves (ps.map .put) ((ps : Multiset P) + A) A := by
  induction ps with
  | nil => exact (zero_add A).symm ▸ .nil A
  | cons p ps ih =>
    rw [← Multiset.cons_coe, ← Multiset.singleton_add, add_assoc]
    exact .put ih

/-- The number of references taken and given up. -/
def gets [DecidableEq P] (p : P) (ops : List (RefOp P)) : Nat := ops.count (.get p)

def puts [DecidableEq P] (p : P) (ops : List (RefOp P)) : Nat := ops.count (.put p)

theorem Moves.count [DecidableEq P] (h : Moves ops A B) (p : P) :
    B.count p + puts p ops = A.count p + gets p ops := by
  induction h with
  | nil A => rfl
  | @get q ops A B _ ih =>
    simp only [puts, gets, Multiset.count_add, Multiset.count_singleton, List.count_cons,
      RefOp.get.injEq, beq_iff_eq, reduceCtorEq, if_false] at ih ⊢
    have hswap : (if p = q then 1 else 0) = if q = p then 1 else 0 := by simp only [eq_comm]
    omega
  | @put q ops A B _ ih =>
    simp only [puts, gets, Multiset.count_add, Multiset.count_singleton, List.count_cons,
      RefOp.put.injEq, beq_iff_eq, reduceCtorEq, if_false] at ih ⊢
    have hswap : (if p = q then 1 else 0) = if q = p then 1 else 0 := by simp only [eq_comm]
    omega

/-! ## Objects -/

/-- A counted object, with the references it holds itself. -/
structure Object (P D : Type) where
  users : Nat
  owns : List P
  data : D

section

variable {D : Type} [DecidableEq P] (lets : D → Bool) (dom : Finset P)

/-- Give up the references `ps`. An object whose count reaches zero lets its own references go
before the next one of `ps`, if `lets` says that objects of its kind do. -/
def release : (fuel : Nat) → List P → (P → Object P D) → (P → Object P D)
  | 0, _, h => h
  | _ + 1, [], h => h
  | fuel + 1, p :: ps, h =>
    let users := (h p).users - 1
    if users = 0 ∧ lets (h p).data = true then
      release fuel ((h p).owns ++ ps)
        (update h p { h p with users := users, owns := [] })
    else release fuel ps (update h p { h p with users := users })

/-- The references the objects hold. -/
def owned (h : P → Object P D) : Multiset P := ∑ q ∈ dom, ((h q).owns : Multiset P)

/-- One operation on the counts. An object can let go at most as many references as there are. -/
def execOp (h : P → Object P D) : RefOp P → (P → Object P D)
  | .get p => update h p { h p with users := (h p).users + 1 }
  | .put p => release lets (1 + (owned dom h).card) [p] h

def execOps (h : P → Object P D) (ops : List (RefOp P)) : P → Object P D :=
  ops.foldl (execOp lets dom) h

/-- Every count is the number of references: those held by objects, and `A`. Only the objects of
`dom` hold any, and those that do let them go. -/
structure Balanced (h : P → Object P D) (A : Multiset P) : Prop where
  count : ∀ p, (h p).users = (A + owned dom h).count p
  dom : ∀ q, q ∉ dom → (h q).owns = []
  lets : ∀ q, (h q).owns ≠ [] → lets (h q).data = true

variable {lets dom} {h : P → Object P D} {obj : Object P D}

theorem owned_update (p : P) (obj : Object P D) (hdom : p ∉ dom → (h p).owns = [] ∧ obj.owns = []) :
    owned dom (update h p obj) + ((h p).owns : Multiset P) =
      owned dom h + (obj.owns : Multiset P) := by
  unfold owned
  by_cases hp : p ∈ dom
  · rw [← Finset.add_sum_erase dom _ hp, ← Finset.add_sum_erase dom (fun q => _) hp]
    have herase : ∑ q ∈ dom.erase p, ((update h p obj q).owns : Multiset P) =
        ∑ q ∈ dom.erase p, ((h q).owns : Multiset P) := by
      refine Finset.sum_congr rfl fun q hq => ?_
      rw [update_of_ne (Finset.ne_of_mem_erase hq)]
    rw [herase, update_self]
    abel
  · have hsum : ∑ q ∈ dom, ((update h p obj q).owns : Multiset P) =
        ∑ q ∈ dom, ((h q).owns : Multiset P) := by
      refine Finset.sum_congr rfl fun q hq => ?_
      rw [update_of_ne fun hqp : q = p => hp (hqp ▸ hq)]
    rw [hsum, (hdom hp).1, (hdom hp).2]

/-- Writing to an object keeps the counts right if it accounts for the references it adds and
drops. -/
theorem Balanced.update (hb : Balanced lets dom h A) (hdom : p ∉ dom → obj.owns = [])
    (hlets : obj.owns ≠ [] → lets obj.data = true)
    (hcount : ∀ q, (if q = p then obj.users else (h q).users) +
        ((h p).owns : Multiset P).count q + A.count q =
      (h q).users + (obj.owns : Multiset P).count q + B.count q) :
    Balanced lets dom (Function.update h p obj) B where
  count := by
    intro q
    have howned := congrArg (Multiset.count q)
      (owned_update p obj fun hp => ⟨hb.dom p hp, hdom hp⟩)
    have hq := hcount q
    have hbq := hb.count q
    rw [Multiset.count_add, Multiset.count_add] at howned
    rw [Multiset.count_add] at hbq ⊢
    rw [update_apply]
    split at hq
    · rename_i hqp
      rw [if_pos hqp]
      omega
    · rename_i hqp
      rw [if_neg hqp]
      omega
  dom := by
    intro q hq
    rw [update_apply]
    split
    · rename_i hqp
      exact hdom (hqp ▸ hq)
    · exact hb.dom q hq
  lets := by
    intro q
    rw [update_apply]
    split
    · exact hlets
    · exact hb.lets q

theorem Balanced.get (hb : Balanced lets dom h A) (p : P) :
    Balanced lets dom (execOp lets dom h (.get p)) ({p} + A) := by
  refine hb.update (hb.dom p) (hb.lets p) fun q => ?_
  rw [Multiset.count_add, Multiset.count_singleton]
  show (if q = p then (h p).users + 1 else _) + _ + _ =
    _ + ((h p).owns : Multiset P).count q + _
  split
  · rename_i hqp
    subst hqp
    omega
  · omega

/-- An object takes over the references `ps` and hands out those it held. -/
theorem Balanced.setOwns {ps : List P} (hb : Balanced lets dom h ((ps : Multiset P) + A))
    (hp : p ∈ dom) (hlets : lets (h p).data = true) :
    Balanced lets dom (Function.update h p { h p with owns := ps })
      (((h p).owns : Multiset P) + A) := by
  refine hb.update (fun hn => absurd hp hn) (fun _ => hlets) fun q => ?_
  rw [Multiset.count_add, Multiset.count_add]
  have hq : (if q = p then (h p).users else (h q).users) = (h q).users := by
    split
    · rename_i hqp
      rw [hqp]
    · rfl
  show (if q = p then (h p).users else (h q).users) + _ + _ = _ + (ps : Multiset P).count q + _
  omega

/-- What an object is does not matter to the counts, as long as it still lets go what it holds. -/
theorem Balanced.setData (hb : Balanced lets dom h A) {d : D} (hlets : lets d = lets (h p).data) :
    Balanced lets dom (Function.update h p { h p with data := d }) A := by
  refine hb.update (hb.dom p) (fun hne => hlets.trans (hb.lets p hne)) fun q => ?_
  split
  · rename_i hqp
    subst hqp
    rfl
  · rfl

theorem Balanced.create (hb : Balanced lets dom h A) (hobj : (h p).users = 0 ∧ (h p).owns = [])
    (d : D) : Balanced lets (insert p dom) (Function.update h p ⟨0, [], d⟩) A := by
  have howned : owned (insert p dom) h = owned dom h := by
    unfold owned
    by_cases hp : p ∈ dom
    · rw [Finset.insert_eq_of_mem hp]
    · rw [Finset.sum_insert hp, hobj.2]
      exact zero_add _
  have hbig : Balanced lets (insert p dom) h A :=
    ⟨fun q => howned ▸ hb.count q, fun q hq => hb.dom q fun hd => hq (Finset.mem_insert_of_mem hd),
      hb.lets⟩
  refine hbig.update (fun _ => rfl) (fun hne => absurd rfl hne) fun q => ?_
  rw [hobj.2]
  split
  · rename_i hqp
    rw [hqp, hobj.1]
  · rfl

theorem release_balanced {fuel : Nat} {ps : List P}
    (hb : Balanced lets dom h ((ps : Multiset P) + A))
    (hfuel : ps.length + (owned dom h).card ≤ fuel) :
    Balanced lets dom (release lets fuel ps h) A := by
  induction fuel generalizing ps h with
  | zero =>
    have hps : ps = [] := List.length_eq_zero_iff.mp (by omega)
    subst hps
    exact zero_add A ▸ hb
  | succ fuel ih =>
    cases ps with
    | nil =>
      exact zero_add A ▸ hb
    | cons p ps =>
      rw [List.length_cons] at hfuel
      have hcons : ∀ q, (((p :: ps : List P) : Multiset P) + A).count q =
          (if q = p then 1 else 0) + ((ps : Multiset P) + A).count q := by
        intro q
        rw [← Multiset.cons_coe, Multiset.cons_add, Multiset.count_cons, add_comm]
      -- the reference given up is one of those counted
      have hpos : 0 < (h p).users := by
        rw [hb.count p, Multiset.count_add, hcons, if_pos rfl]
        omega
      unfold release
      simp only
      split
      · have howned := owned_update p { h p with users := (h p).users - 1, owns := [] }
          fun hp => ⟨hb.dom p hp, rfl⟩
        apply ih
        · refine hb.update (fun _ => rfl) (fun hne => absurd rfl hne) fun q => ?_
          have hq := hcons q
          simp only [Multiset.count_add, ← Multiset.coe_add, Multiset.coe_nil,
            Multiset.count_zero] at hq ⊢
          split
          · rename_i hqp
            subst hqp
            rw [if_pos rfl] at hq
            omega
          · rename_i hqp
            rw [if_neg hqp] at hq
            omega
        · have hcard := congrArg Multiset.card howned
          simp only [Multiset.card_add, Multiset.coe_card, List.length_nil] at hcard
          rw [List.length_append]
          omega
      · apply ih
        · refine hb.update (hb.dom p) (hb.lets p) fun q => ?_
          have hq := hcons q
          simp only [Multiset.count_add] at hq ⊢
          split
          · rename_i hqp
            subst hqp
            rw [if_pos rfl] at hq
            omega
          · rename_i hqp
            rw [if_neg hqp] at hq
            omega
        · have howned := owned_update p { h p with users := (h p).users - 1 }
            fun hp => ⟨hb.dom p hp, hb.dom p hp⟩
          rw [add_right_cancel howned]
          omega

theorem Balanced.put (hb : Balanced lets dom h ({p} + A)) :
    Balanced lets dom (execOp lets dom h (.put p)) A :=
  release_balanced hb (le_refl _)

theorem execOps_balanced (hm : Moves ops A B) (hb : Balanced lets dom h A) :
    Balanced lets dom (execOps lets dom h ops) B := by
  induction hm generalizing h with
  | nil A => exact hb
  | get _ ih => exact ih (hb.get _)
  | put _ ih => exact ih hb.put

/-- What a release leaves of an object: the object with another count, and with its references
or without. -/
theorem release_cases (fuel : Nat) (ps : List P) (h : P → Object P D) (q : P) :
    (release lets fuel ps h q).data = (h q).data ∧
      ((release lets fuel ps h q).owns = (h q).owns ∨ (release lets fuel ps h q).owns = []) := by
  induction fuel generalizing ps h with
  | zero => exact ⟨rfl, .inl rfl⟩
  | succ fuel ih =>
    cases ps with
    | nil => exact ⟨rfl, .inl rfl⟩
    | cons p ps =>
      have hupdate : ∀ obj : Object P D, obj.data = (h p).data →
          (obj.owns = (h p).owns ∨ obj.owns = []) →
          (update h p obj q).data = (h q).data ∧
            ((update h p obj q).owns = (h q).owns ∨
              (update h p obj q).owns = []) := by
        intro obj hdata howns
        rw [update_apply]
        split
        · rename_i hqp
          rw [hqp]
          exact ⟨hdata, howns⟩
        · exact ⟨rfl, .inl rfl⟩
      have hnext : ∀ (ps' : List P) (obj : Object P D), obj.data = (h p).data →
          (obj.owns = (h p).owns ∨ obj.owns = []) →
          (release lets fuel ps' (update h p obj) q).data = (h q).data ∧
            ((release lets fuel ps' (update h p obj) q).owns = (h q).owns ∨
              (release lets fuel ps' (update h p obj) q).owns = []) := by
        intro ps' obj hdata howns
        obtain ⟨hd, ho⟩ := ih ps' (update h p obj)
        obtain ⟨hd', ho'⟩ := hupdate obj hdata howns
        refine ⟨hd.trans hd', ?_⟩
        rcases ho with ho | ho
        · rw [ho]
          exact ho'
        · exact .inr ho
      unfold release
      simp only
      split
      · exact hnext _ _ rfl (.inr rfl)
      · exact hnext _ _ rfl (.inl rfl)

/-- The counts change and references are let go, but objects stay what they are and get no
reference. -/
theorem execOps_cases (ops : List (RefOp P)) (h : P → Object P D) (q : P) :
    (execOps lets dom h ops q).data = (h q).data ∧
      ((execOps lets dom h ops q).owns = (h q).owns ∨ (execOps lets dom h ops q).owns = []) := by
  induction ops generalizing h with
  | nil => exact ⟨rfl, .inl rfl⟩
  | cons op ops ih =>
    have hop : (execOp lets dom h op q).data = (h q).data ∧
        ((execOp lets dom h op q).owns = (h q).owns ∨ (execOp lets dom h op q).owns = []) := by
      cases op with
      | get p =>
        show (update h p _ q).data = _ ∧ ((update h p _ q).owns = _ ∨ _)
        rw [update_apply]
        split
        · rename_i hqp
          rw [hqp]
          exact ⟨rfl, .inl rfl⟩
        · exact ⟨rfl, .inl rfl⟩
      | put p => exact release_cases _ _ _ _
    obtain ⟨hd, ho⟩ := ih (execOp lets dom h op)
    refine ⟨hd.trans hop.1, ?_⟩
    rcases ho with ho | ho
    · rw [show execOps lets dom h (op :: ops) q = execOps lets dom (execOp lets dom h op) ops q
        from rfl, ho]
      exact hop.2
    · exact .inr ho

theorem execOps_owns_nil {ops : List (RefOp P)} {q : P} (hq : (h q).owns = []) :
    (execOps lets dom h ops q).owns = [] := by
  rcases (execOps_cases ops h q).2 with ho | ho
  · exact ho.trans hq
  · exact ho

/-- If every object that holds something lets it go in the end, an object that nobody refers to any
more holds nothing. -/
theorem release_idle (fuel : Nat) (ps : List P) (h : P → Object P D)
    (hlets : ∀ p, (h p).owns ≠ [] → lets (h p).data = true) (q : P)
    (hq : (h q).users = 0 → (h q).owns = []) :
    (release lets fuel ps h q).users = 0 → (release lets fuel ps h q).owns = [] := by
  induction fuel generalizing ps h with
  | zero => exact hq
  | succ fuel ih =>
    cases ps with
    | nil => exact hq
    | cons p ps =>
      unfold release
      simp only
      split
      · apply ih
        · intro r
          rw [update_apply]
          split
          · exact fun hne => absurd rfl hne
          · exact hlets r
        · rw [update_apply]
          split
          · exact fun _ => rfl
          · exact hq
      · rename_i hlast
        apply ih
        · intro r
          rw [update_apply]
          split
          · exact hlets p
          · exact hlets r
        rw [update_apply]
        split
        · intro hzero
          by_contra hne
          exact hlast ⟨hzero, hlets p hne⟩
        · exact hq

theorem execOps_idle (ops : List (RefOp P)) (h : P → Object P D)
    (hlets : ∀ p, (h p).owns ≠ [] → lets (h p).data = true) (q : P)
    (hq : (h q).users = 0 → (h q).owns = []) :
    (execOps lets dom h ops q).users = 0 → (execOps lets dom h ops q).owns = [] := by
  induction ops generalizing h with
  | nil => exact hq
  | cons op ops ih =>
    have hop : ∀ p, (execOp lets dom h op p).owns ≠ [] →
        lets (execOp lets dom h op p).data = true := by
      intro p hne
      obtain ⟨hdata, howns⟩ : (execOps lets dom h [op] p).data = _ ∧ _ := execOps_cases [op] h p
      change (execOp lets dom h op p).data = _ at hdata
      rw [hdata]
      rcases howns with ho | ho
      · exact hlets p fun hnil => hne (ho.trans hnil)
      · exact absurd ho hne
    refine ih (execOp lets dom h op) hop ?_
    cases op with
    | get p =>
      show (update h p _ q).users = 0 → (update h p _ q).owns = []
      rw [update_apply]
      split
      · exact fun hzero => absurd hzero (Nat.succ_ne_zero _)
      · exact hq
    | put p => exact release_idle _ _ h hlets q hq

/-- Objects that hold no more than before. -/
theorem owned_count_le {h' : P → Object P D}
    (howns : ∀ q, (h' q).owns = (h q).owns ∨ (h' q).owns = []) (p : P) :
    (owned dom h').count p ≤ (owned dom h).count p := by
  refine Multiset.count_le_of_le p (Finset.sum_le_sum fun q _ => ?_)
  rcases howns q with ho | ho
  · rw [ho]
  · rw [ho]
    exact Multiset.zero_le _

/-- Giving up an object nobody refers to, and that holds nothing, changes nothing. -/
theorem execOp_put_of_zero (hobj : (h p).users = 0 ∧ (h p).owns = []) :
    execOp lets dom h (.put p) = h := by
  have hzero : h p = ⟨0, [], (h p).data⟩ := by
    cases hp : h p with
    | mk users owns data =>
      rw [hp] at hobj
      obtain ⟨rfl, rfl⟩ := hobj
      rfl
  have hsame : update h p ⟨0, [], (h p).data⟩ = h := by
    rw [← hzero]
    exact update_eq_self p h
  have hrest : ∀ (fuel : Nat) (h : P → Object P D), release lets fuel [] h = h := by
    intro fuel h
    cases fuel <;> rfl
  show release lets (1 + (owned dom h).card) [p] h = h
  rw [Nat.add_comm]
  unfold release
  simp only [hobj.1, hobj.2, List.nil_append, ite_self, hrest]
  exact hsame

end

end RefCount
