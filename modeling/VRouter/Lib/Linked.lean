import Mathlib.Tactic

/-!
# Singly linked lists through a `next` function

A pointer structure seen as a function `next : α → Option α`, with `none` for the null pointer.
`Linked next p l` says that following `next` from the pointer `p` visits exactly the nodes `l`
and then ends. A linked list is finite by definition, and `Linked.nodup` adds that no node is
visited twice: a structure with a cycle has no `l` at all.

* `Linked.congr` — writes to nodes outside the list leave it alone;
* `Linked.push` — linking a new node in front;
* `Linked.unlink` — taking a node out behind its predecessor.
-/

variable {α : Type} {next next' : α → Option α} {p : Option α} {a e : α} {l l' m : List α}

/-- Following `next` from `p` visits the nodes `l` in order, and ends there. -/
def Linked (next : α → Option α) : Option α → List α → Prop
  | p, [] => p = none
  | p, a :: l => p = some a ∧ Linked next (next a) l

namespace Linked

open Function

@[simp] theorem cons_iff : Linked next p (a :: l) ↔ p = some a ∧ Linked next (next a) l := Iff.rfl

/-- The pointer leads to the first node of the list. -/
theorem eq_head? (h : Linked next p l) : p = l.head? := by
  cases l with
  | nil => exact h
  | cons a l => exact h.1

theorem unique (h : Linked next p l) (h' : Linked next p l') : l = l' := by
  induction l generalizing p l' with
  | nil =>
    cases l' with
    | nil => rfl
    | cons b l' =>
      rw [h] at h'
      exact absurd h'.1 (by simp)
  | cons a l ih =>
    cases l' with
    | nil =>
      rw [h'] at h
      exact absurd h.1 (by simp)
    | cons b l' =>
      obtain ⟨rfl, ht⟩ := h
      obtain ⟨hab, ht'⟩ := h'
      cases hab
      rw [ih ht ht']

/-- Every suffix of a linked list is what its first node leads to. -/
theorem suffix (h : Linked next p (m ++ a :: l)) : Linked next (some a) (a :: l) := by
  induction m generalizing p with
  | nil =>
    obtain ⟨hp, hl⟩ := h
    exact ⟨rfl, hl⟩
  | cons b m ih => exact ih h.2

/-- A linked list visits no node twice: two visits would have the same rest. -/
theorem nodup (h : Linked next p l) : l.Nodup := by
  induction l generalizing p with
  | nil => exact List.nodup_nil
  | cons a l ih =>
    apply List.nodup_cons.mpr
    refine ⟨fun hmem => ?_, ih h.2⟩
    obtain ⟨s, t, rfl⟩ := List.append_of_mem hmem
    -- the second visit of `a` starts the list `a :: t`, the first one `a :: (s ++ a :: t)`
    have hsecond : Linked next (some a) (a :: t) := suffix h.2
    have hfirst : Linked next (some a) (a :: (s ++ a :: t)) := ⟨rfl, h.2⟩
    have hlen := congrArg List.length (hfirst.unique hsecond)
    simp at hlen
    omega

theorem congr (hn : ∀ b ∈ l, next' b = next b) (h : Linked next p l) : Linked next' p l := by
  induction l generalizing p with
  | nil => exact h
  | cons a l ih =>
    refine ⟨h.1, ?_⟩
    rw [hn a (by simp)]
    exact ih (fun b hb => hn b (by simp [hb])) h.2

variable [DecidableEq α]

theorem update_of_notMem {q : Option α} (he : e ∉ l) (h : Linked next p l) :
    Linked (update next e q) p l := by
  apply h.congr
  intro b hb
  apply update_of_ne
  rintro rfl
  exact he hb

theorem push (he : e ∉ l) (h : Linked next p l) :
    Linked (update next e p) (some e) (e :: l) := by
  refine ⟨rfl, ?_⟩
  rw [update_self]
  exact h.update_of_notMem he

theorem unlink (h : Linked next p (m ++ a :: e :: l)) :
    Linked (update next a (next e)) p (m ++ a :: l) := by
  have hnd := h.nodup
  induction m generalizing p with
  | nil =>
    obtain ⟨hp, hae, hl⟩ := h
    refine ⟨hp, ?_⟩
    rw [update_self]
    apply hl.update_of_notMem
    simp only [List.nil_append, List.nodup_cons, List.mem_cons, not_or] at hnd
    exact hnd.1.2
  | cons b m ih =>
    obtain ⟨hp, hl⟩ := h
    refine ⟨hp, ?_⟩
    have hba : b ≠ a := by
      rintro rfl
      simp at hnd
    rw [update_of_ne hba]
    exact ih hl (List.nodup_cons.mp hnd).2

end Linked
