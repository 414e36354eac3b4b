import Mathlib.Tactic

/-!
# Runs of a system that takes one step after another

A system is a function `step : σ → α → Option σ`: the state after an action, or `none` if the
action cannot be taken. `runSteps` takes a list of actions in order. `StepsMeet ok` says that each
of them meets a condition in the state it is taken in, which is how an assumption about the
surroundings of a system is stated.

* `runSteps_invariant` — what every step preserves holds after every run;
* `runSteps_invariant_of_meet` — the same for steps that meet a condition;
* `runSteps_append` — a run is a run of its first part, then of the rest;
* `runTrace_balance` — what has come in along a run has gone out or is still there.
-/

variable {σ α : Type} {step : σ → α → Option σ} {s s' : σ} {as bs : List α}

/-- The state after taking the actions in order, if all of them can be taken. -/
def runSteps (step : σ → α → Option σ) : σ → List α → Option σ
  | s, [] => some s
  | s, a :: as => (step s a).bind fun s' => runSteps step s' as

/-- Every action meets `ok` in the state it is taken in. -/
def StepsMeet (step : σ → α → Option σ) (ok : σ → α → Prop) : σ → List α → Prop
  | _, [] => True
  | s, a :: as => ok s a ∧ ∀ s', step s a = some s' → StepsMeet step ok s' as

@[simp] theorem runSteps_nil : runSteps step s [] = some s := rfl

variable {ok : σ → α → Prop} {I : σ → Prop} {s₁ : σ} {a : α}

theorem runSteps_cons : runSteps step s (a :: as) = some s' ↔
      ∃ s₁, step s a = some s₁ ∧ runSteps step s₁ as = some s' :=
  Option.bind_eq_some_iff

theorem runSteps_append :
    runSteps step s (as ++ bs) = (runSteps step s as).bind fun s' => runSteps step s' bs := by
  induction as generalizing s with
  | nil => rfl
  | cons a as ih =>
    show (step s a).bind _ = ((step s a).bind _).bind _
    rw [Option.bind_assoc]
    congr
    funext s₁
    exact ih

theorem runSteps_trans (h : runSteps step s as = some s₁) (h' : runSteps step s₁ bs = some s') :
    runSteps step s (as ++ bs) = some s' := by
  rw [runSteps_append, h]
  exact h'

theorem runSteps_singleton (h : step s a = some s') : runSteps step s [a] = some s' :=
  runSteps_cons.mpr ⟨s', h, rfl⟩

/-- What every step that meets `ok` preserves holds after every run of such steps. -/
theorem runSteps_invariant_of_meet (hstep : ∀ s a s', I s → ok s a → step s a = some s' → I s')
    (hinit : I s) (hok : StepsMeet step ok s as) (hrun : runSteps step s as = some s') : I s' := by
  induction as generalizing s with
  | nil =>
    cases hrun
    exact hinit
  | cons a as ih =>
    obtain ⟨s₁, hs, hrun⟩ := runSteps_cons.mp hrun
    exact ih (hstep s a s₁ hinit hok.1 hs) (hok.2 s₁ hs) hrun

theorem stepsMeet_cons (hstep : step s a = some s₁) (hok : ok s a) (hrest : StepsMeet step ok s₁ as)
    : StepsMeet step ok s (a :: as) := by
  refine ⟨hok, fun s' hs' => ?_⟩
  rw [hstep] at hs'
  cases hs'
  exact hrest

theorem stepsMeet_of_forall {ok : α → Prop} (h : ∀ a ∈ as, ok a) :
    StepsMeet step (fun _ a => ok a) s as := by
  induction as generalizing s with
  | nil => trivial
  | cons a as ih =>
    refine ⟨h a (by simp), fun s' _ => ih fun b hb => h b ?_⟩
    exact List.mem_cons_of_mem a hb

theorem runSteps_invariant (hstep : ∀ s a s', I s → step s a = some s' → I s') (hinit : I s)
    (hrun : runSteps step s as = some s') : I s' :=
  runSteps_invariant_of_meet (fun s a s' h _ => hstep s a s' h) hinit
    (@stepsMeet_of_forall _ _ step s as (fun _ => True) fun _ _ => trivial) hrun

/-- What every move of an abstract system preserves holds after every run of a system whose steps,
seen through `abs`, are sequences of moves. -/
theorem runSteps_invariant_of_refines {τ : Type} (abs : σ → τ) (Move : τ → τ → Prop) {I : τ → Prop}
    (hrefines : ∀ s a s', I (abs s) → ok s a → step s a = some s' →
      Relation.ReflTransGen Move (abs s) (abs s')) (hmove : ∀ v v', I v → Move v v' → I v')
    (hinit : I (abs s)) (hok : StepsMeet step ok s as) (hrun : runSteps step s as = some s') :
    I (abs s') := by
  refine runSteps_invariant_of_meet (I := fun s => I (abs s)) ?_ hinit hok hrun
  intro s a s' hI ha hs
  exact (hrefines s a s' hI ha hs).rec hI fun _ hm ih => hmove _ _ ih hm

/-! ## What steps record -/

section Trace

variable {ε δ : Type} {event : σ → α → List ε}

/-- What the steps of a run record, in order. -/
def runTrace (step : σ → α → Option σ) (event : σ → α → List ε) : σ → List α → List ε
  | _, [] => []
  | s, a :: as =>
    event s a ++
      match step s a with
      | none => []
      | some s' => runTrace step event s' as

theorem runTrace_cons (h : step s a = some s₁) :
    runTrace step event s (a :: as) = event s a ++ runTrace step event s₁ as := by
  show event s a ++ _ = _
  rw [h]

theorem runTrace_forall {p : ε → Prop} (h : ∀ a ∈ as, ∀ s, ∀ x ∈ event s a, p x) :
    ∀ x ∈ runTrace step event s as, p x := by
  induction as generalizing s with
  | nil => exact fun x hx => (nomatch hx)
  | cons a as ih =>
    intro x hx
    rcases List.mem_append.mp hx with hx | hx
    · exact h a List.mem_cons_self s x hx
    · split at hx
      · cases hx
      · exact ih (fun b hb => h b (List.mem_cons_of_mem a hb)) x hx

/-- What a step takes in comes after what is there, and what it gives out is the oldest of it; then
so for a run. -/
theorem runTrace_balance (held : σ → List ε) (f : δ → ε) {put : σ → α → List ε}
    {out : σ → α → List δ} (hstep : ∀ s a s', I s → ok s a → step s a = some s' →
      I s' ∧ held s ++ put s a = (out s a).map f ++ held s') (hinit : I s)
    (hok : StepsMeet step ok s as) (hrun : runSteps step s as = some s') :
    held s ++ runTrace step put s as = (runTrace step out s as).map f ++ held s' := by
  induction as generalizing s with
  | nil =>
    cases hrun
    exact List.append_nil _
  | cons a as ih =>
    obtain ⟨s₁, hs, hrun⟩ := runSteps_cons.mp hrun
    obtain ⟨hinv, hbalance⟩ := hstep s a s₁ hinit hok.1 hs
    rw [runTrace_cons hs, runTrace_cons hs, List.map_append, ← List.append_assoc, hbalance,
      List.append_assoc, ih hinv (hok.2 s₁ hs) hrun, List.append_assoc]

end Trace
