import VRouter.Nexthop.Users

/-!
# VRouter — nexthops within nexthops

A composite nexthop hands a packet to its components by calling `nh_output` again, and no field of
the packet counts these calls. `nh_composite_add` looks a component up by its id and tests its type,
so a change can list the nexthop itself, or one that has it among its components.
`nexthop_calls_end` is about runs of requests that do not.
-/

namespace VRouter

open RefCount Relation Function

/-- If `r` has no infinite path and no element of `new` leads to `x`, edges from `x` to `new` can be
added. -/
theorem wellFounded_of_new_edges {α : Type} {r r' : α → α → Prop} {x : α} {new : List α}
    (hwf : WellFounded (flip r)) (hedges : ∀ a b, r' a b → r a b ∨ a = x ∧ b ∈ new)
    (hnew : ∀ c ∈ new, ¬ ReflTransGen r c x) : WellFounded (flip r') := by
  -- what does not lead to `x` has only the old paths
  have hfar : ∀ a, ¬ ReflTransGen r a x → Acc (flip r') a := by
    intro a
    induction a using hwf.induction with
    | _ a ih =>
      refine fun hnot => .intro a fun b hb => ?_
      rcases hedges a b hb with hr | ⟨rfl, -⟩
      · exact ih b hr fun hx => hnot (hx.head hr)
      · exact absurd .refl hnot
  refine ⟨fun a => ?_⟩
  induction a using hwf.induction with
  | _ a ih =>
    refine .intro a fun b hb => ?_
    rcases hedges a b hb with hr | ⟨-, hmem⟩
    · exact ih b hr
    · exact hfar b (hnew b hmem)

namespace NexthopStore

variable {s : NexthopStore} {nh c : Nexthop}

/-- `c` is a component of `nh`. -/
def Component (s : NexthopStore) (nh c : Nexthop) : Prop := c ∈ (s.objs nh).owns

/-- `nh_output` returns with at most `fuel` calls within each other, also if every composite nexthop
hands the packet to all its components. -/
def nhOutputEnds (s : NexthopStore) : Nat → Nexthop → Bool
  | 0, _ => false
  | fuel + 1, nh => (s.objs nh).owns.all (s.nhOutputEnds fuel)

theorem nhOutputEnds_mono {n k : Nat} (hnk : n ≤ k) (h : s.nhOutputEnds n nh = true) :
    s.nhOutputEnds k nh = true := by
  induction n generalizing k nh with
  | zero => cases h
  | succ n ih =>
    obtain ⟨k, rfl⟩ : ∃ j, k = j + 1 := ⟨k - 1, by omega⟩
    rw [nhOutputEnds, List.all_eq_true] at h ⊢
    exact fun c hc => ih (by omega) (h c hc)

theorem exists_nhOutputEnds (hwf : WellFounded (flip s.Component)) (nh : Nexthop) :
    ∃ fuel, s.nhOutputEnds fuel nh = true := by
  induction nh using hwf.induction with
  | _ nh ih =>
    -- the longest of the calls on the components
    have hall : ∀ l : List Nexthop, (∀ c ∈ l, s.Component nh c) →
        ∃ fuel, ∀ c ∈ l, s.nhOutputEnds fuel c = true := by
      intro l
      induction l with
      | nil => exact fun _ => ⟨0, by simp⟩
      | cons c l ihl =>
        intro hl
        obtain ⟨n, hn⟩ := ih c (hl c (by simp))
        obtain ⟨k, hk⟩ := ihl fun d hd => hl d (List.mem_cons_of_mem c hd)
        refine ⟨max n k, List.forall_mem_cons.mpr ⟨nhOutputEnds_mono (le_max_left n k) hn, ?_⟩⟩
        exact fun d hd => nhOutputEnds_mono (le_max_right n k) (hk d hd)
    obtain ⟨fuel, hfuel⟩ := hall _ fun _ hc => hc
    exact ⟨fuel + 1, List.all_eq_true.mpr hfuel⟩

end NexthopStore

/-! ## Requests -/

/-- Nobody has got a new component but `nh`, and that only from `new`. -/
def NewComponents (nh : Nexthop) (new : List Nexthop) (objs objs' : NhHeap) : Prop :=
  ∀ q c, c ∈ (objs' q).owns → c ∈ (objs q).owns ∨ q = nh ∧ c ∈ new

section

variable {nh : Nexthop} {new : List Nexthop} {objs objs' : NhHeap} {s s' : NexthopStore}
  {alloc : NexthopAlloc} {req : NexthopReq}

theorem NewComponents.refl : NewComponents nh new objs objs := fun _ _ => .inl

theorem NewComponents.execOps (h : NewComponents nh new objs objs') (created : Finset Nexthop)
    (ops : List (RefOp Nexthop)) :
    NewComponents nh new objs (RefCount.execOps isComposite created objs' ops) := by
  intro q c hc
  rcases (execOps_cases ops objs' q).2 with howns | howns
  · rw [howns] at hc
    exact h q c hc
  · rw [howns] at hc
    cases hc

theorem NewComponents.update (h : NewComponents nh new objs objs') {obj : Object Nexthop NhData}
    (hobj : ∀ c ∈ obj.owns, c ∈ (objs nh).owns ∨ c ∈ new) :
    NewComponents nh new objs (update objs' nh obj) := by
  intro q c hc
  by_cases hq : q = nh
  · rw [hq, update_self] at hc
    rw [hq]
    exact (hobj c hc).imp_right fun hc => ⟨rfl, hc⟩
  · rw [update_of_ne hq] at hc
    exact h q c hc

theorem nhCompositeAdd_newComponents {tbl : NexthopTable} {created : Finset Nexthop}
    (hnew : new = req.nhrNhList.filterMap tbl.get) (h : NewComponents nh new objs objs') :
    NewComponents nh new objs (nhCompositeAdd alloc tbl created req nh objs').2 := by
  have hnil : NewComponents nh new objs (update objs' nh { objs' nh with owns := [] }) :=
    h.update (by simp)
  have hdropped := hnil.execOps created ((objs' nh).owns.map .put)
  unfold nhCompositeAdd
  dsimp only
  split
  · exact hdropped
  split
  · exact hdropped
  split
  · exact hdropped
  split
  · exact (hdropped.execOps created _).execOps created _
  · refine (hdropped.execOps created _).update fun c hc => .inr ?_
    rw [hnew]
    exact ((List.take_sublist _ _).filterMap _).subset hc

theorem vrNexthopCook_newComponents {ret : Except Errno Unit}
    (hnew : new = req.nhrNhList.filterMap s.nexthops.get) (h : NewComponents nh new objs s.objs)
    (hcook : vrNexthopCook alloc req nh s = some (ret, s')) :
    NewComponents nh new objs s'.objs := by
  have hadd : ∀ {objs'}, NewComponents nh new objs objs' →
      NewComponents nh new objs (vrouterAddNexthop nh { s with objs := objs' }).objs := by
    intro objs' h
    unfold vrouterAddNexthop
    split
    · exact h.execOps s.created [.get nh]
    · exact h
  have htype : NewComponents nh new objs (nhTypeAdd alloc req nh s).2 := by
    unfold nhTypeAdd
    split
    case h_8 => exact nhCompositeAdd_newComponents hnew h
    all_goals exact h
  rcases vrNexthopCook_cases hcook with ⟨_, rfl | rfl, rfl⟩ | ⟨e, -, hdel⟩
  · exact hadd h
  · exact hadd htype
  · unfold nhDel at hdel
    split at hdel
    · cases hdel
    · cases hdel
      exact htype.execOps s.created [.put nh]

/-- The nexthop a request creates or changes. -/
def NexthopReq.target (req : NexthopReq) (alloc : NexthopAlloc) (s : NexthopStore) :
    Option Nexthop :=
  (s.nexthops.get req.nhrId).or (alloc.nexthop.map fun ptr => ⟨ptr, req.nhrId, req.nhrType⟩)

theorem vrNexthopAdd_newComponents {ret : Except Errno Unit}
    (h : vrNexthopAdd alloc req s = some (ret, s')) :
    s' = s ∨ ∃ nh, req.target alloc s = some nh ∧
      NewComponents nh (req.nhrNhList.filterMap s.nexthops.get) s.objs s'.objs := by
  unfold vrNexthopAdd at h
  split at h
  · cases h
    exact .inl rfl
  split at h
  · next hnone =>
    split at h
    · cases h
      exact .inl rfl
    next ptr hptr =>
    dsimp only at h
    split at h
    · refine .inr ⟨_, ?_, vrNexthopCook_newComponents ?_ (NewComponents.refl.update ?_) h⟩
      · simp [NexthopReq.target, hnone, hptr]
      · rfl
      · simp
    · cases h
  · next nh hget =>
    split at h
    · cases h
      exact .inl rfl
    · refine .inr ⟨nh, ?_, vrNexthopCook_newComponents ?_ (NewComponents.refl.update ?_) h⟩
      · simp [NexthopReq.target, hget]
      · rfl
      · exact fun c hc => .inl hc

end

/-! ## Runs -/

def addStep (s : NexthopStore) (a : NexthopAlloc × NexthopReq) : Option NexthopStore :=
  (vrNexthopAdd a.1 a.2 s).map Prod.snd

/-- No nexthop that the request lists is, or leads to, the one it is for. -/
def ListsNoParent (s : NexthopStore) (a : NexthopAlloc × NexthopReq) : Prop :=
  ∀ nh, a.2.target a.1 s = some nh → ∀ c ∈ a.2.nhrNhList.filterMap s.nexthops.get,
    ¬ ReflTransGen s.Component c nh

/-- **If no request lists a nexthop that leads to the one it is for, no nexthop leads to itself, and
`nh_output` ends on every nexthop.** -/
theorem nexthop_calls_end {s₀ s : NexthopStore} {as : List (NexthopAlloc × NexthopReq)}
    (hinit : ∀ q, (s₀.objs q).owns = []) (hok : StepsMeet addStep ListsNoParent s₀ as)
    (hrun : runSteps addStep s₀ as = some s) (nh : Nexthop) :
    ¬ TransGen s.Component nh nh ∧ ∃ fuel, s.nhOutputEnds fuel nh = true := by
  have hwf : WellFounded (flip s.Component) := by
    refine runSteps_invariant_of_meet (I := fun s => WellFounded (flip s.Component)) ?_ ?_ hok hrun
    · intro s a s' hwf hok hstep
      obtain ⟨⟨ret, s₁⟩, hadd, rfl⟩ := Option.map_eq_some_iff.mp hstep
      rcases vrNexthopAdd_newComponents hadd with rfl | ⟨nh, htarget, hnew⟩
      · exact hwf
      · exact wellFounded_of_new_edges hwf hnew (hok nh htarget)
    · refine ⟨fun q => .intro q fun c hc => ?_⟩
      have hc : c ∈ (s₀.objs q).owns := hc
      rw [hinit] at hc
      cases hc
  refine ⟨fun hcycle => ?_, NexthopStore.exists_nhOutputEnds hwf nh⟩
  exact hwf.transGen.irrefl.irrefl nh (transGen_swap.mpr hcycle)

/-- Nexthop 1 is made without components, and then `id` is made or changed to have it as one. -/
def nestedRun (id : Nat) : List (NexthopAlloc × NexthopReq) :=
  let flags := nhFlagValid ||| nhFlagCompositeEcmp
  [(⟨some 8192, true, true, .ok ()⟩, ⟨1, .composite, flags, 0, [], 0⟩),
    (⟨some 8448, true, true, .ok ()⟩, ⟨id, .composite, flags, 0, [1], 1⟩)]

theorem nexthop_calls_end_nested :
    ∃ s, runSteps addStep (RefState.init smallSizes).nhs (nestedRun 2) = some s ∧
      ∃ fuel, s.nhOutputEnds fuel ⟨8448, 2, .composite⟩ = true := by
  obtain ⟨s, hrun⟩ : ∃ s, runSteps addStep (RefState.init smallSizes).nhs (nestedRun 2) = some s :=
    Option.isSome_iff_exists.mp (by decide +kernel)
  refine ⟨s, hrun, (nexthop_calls_end (init_owns _) ?_ hrun _).2⟩
  refine ⟨nofun, fun s₁ h₁ => ⟨?_, fun s₂ _ => trivial⟩⟩
  intro nh htarget c hc hpath
  cases h₁
  -- nexthop 1 is listed for nexthop 2, and has no component
  have hc : c = ⟨8192, 1, .composite⟩ := List.mem_singleton.mp hc
  subst hc
  rcases hpath.cases_head with rfl | ⟨d, hd, -⟩
  · cases htarget
  · exact List.not_mem_nil hd

/-- **A composite nexthop can be changed to be its own component, and then `nh_output` does not
end.** -/
theorem nexthop_calls_endless :
    ∃ s, runSteps addStep (RefState.init smallSizes).nhs (nestedRun 1) = some s ∧
      ∀ fuel, s.nhOutputEnds fuel ⟨8192, 1, .composite⟩ = false := by
  obtain ⟨s, hrun, hself⟩ := (Option.any_eq_true _ _).mp
    (show (runSteps addStep (RefState.init smallSizes).nhs (nestedRun 1)).any (fun s =>
      (s.objs ⟨8192, 1, .composite⟩).owns = [⟨8192, 1, .composite⟩]) by decide +kernel)
  refine ⟨s, hrun, fun fuel => ?_⟩
  induction fuel with
  | zero => rfl
  | succ fuel ih => simp [NexthopStore.nhOutputEnds, of_decide_eq_true hself, ih]

end VRouter
