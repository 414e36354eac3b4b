import Mathlib.Tactic

/-!
# Lists read page by page

A reader asks for a list in pages: each page holds at most as many items as it has room for, and
the next page is asked for by the key of the last item that has been seen. `Resumes` says what a
page function has to do, and `Resumes.pages_eq` that the pages put together are then the list,
without gaps and repetitions, however the pages are cut. `Buffer` is a page that is being filled.
-/

namespace Paging

variable {α κ : Type}

/-- The items of a sequence of pages, given by the room each of them has, and whether the last
one came to the end of the list. `page marker room` is one page. -/
def pages (key : α → κ) (page : Option κ → Nat → List α × Bool) :
    List Nat → Option κ → List α × Bool
  | [], _ => ([], false)
  | room :: rooms, marker =>
    let items := (page marker room).1
    let rest := pages key page rooms ((items.getLast?.map key).or marker)
    (items ++ rest.1, if rooms = [] then (page marker room).2 else rest.2)

/-- `page` reads the list `L`: from the start without a marker, and behind the item whose key it
is given. -/
structure Resumes (L : List α) (key : α → κ) (page : Option κ → Nat → List α × Bool) : Prop where
  start : ∀ room, page none room = (L.take room, decide (L.length ≤ room))
  resume : ∀ L₁ x L₂, L = L₁ ++ x :: L₂ → ∀ room,
    page (some (key x)) room = (L₂.take room, decide (L₂.length ≤ room))

section

variable {L : List α} {key : α → κ} {page : Option κ → Nat → List α × Bool}

/-- A page whose marker is the last item of `L₁`. -/
theorem Resumes.page_eq (h : Resumes L key page) {L₁ L₂ : List α} (hL : L = L₁ ++ L₂) (room : Nat) :
    page (L₁.getLast?.map key) room = (L₂.take room, decide (L₂.length ≤ room)) := by
  rcases List.eq_nil_or_concat L₁ with rfl | ⟨L₀, x, rfl⟩
  · subst hL
    exact h.start room
  rw [List.concat_eq_append] at hL ⊢
  rw [List.getLast?_append]
  refine h.resume L₀ x L₂ ?_ room
  rw [hL, List.append_assoc]
  rfl

/-- The pages from a marker on. Induction on the pages: what has been read moves from `L₂` to
`L₁`. -/
theorem Resumes.pages_from (h : Resumes L key page) (rooms : List Nat) {L₁ L₂ : List α}
    (hL : L = L₁ ++ L₂) :
    pages key page rooms (L₁.getLast?.map key) =
      (L₂.take rooms.sum, decide (rooms ≠ [] ∧ L₂.length ≤ rooms.sum)) := by
  induction rooms generalizing L₁ L₂ with
  | nil => simp [pages]
  | cons room rooms ih =>
    have hnext : L = (L₁ ++ L₂.take room) ++ L₂.drop room := by
      rw [List.append_assoc, List.take_append_drop, hL]
    have hmarker : ((L₂.take room).getLast?.map key).or (L₁.getLast?.map key) =
        (L₁ ++ L₂.take room).getLast?.map key := by
      rw [List.getLast?_append]
      cases (L₂.take room).getLast? <;> rfl
    rw [pages, h.page_eq hL]
    simp only [hmarker, ih hnext, List.sum_cons, List.take_add, List.length_drop]
    refine Prod.ext rfl ?_
    by_cases hrooms : rooms = []
    · subst hrooms
      simp
    · rw [if_neg hrooms]
      refine decide_eq_decide.mpr ⟨fun ⟨_, hle⟩ => ⟨List.cons_ne_nil _ _, by omega⟩,
        fun ⟨_, hle⟩ => ⟨hrooms, by omega⟩⟩

/-- **Pages.** The pages of a dump are its list, cut off where the room of the pages ends, and the
last one comes to the end exactly if there was room for the whole list. -/
theorem Resumes.pages_eq (h : Resumes L key page) (rooms : List Nat) :
    pages key page rooms none =
      (L.take rooms.sum, decide (rooms ≠ [] ∧ L.length ≤ rooms.sum)) :=
  h.pages_from rooms (List.nil_append L).symm

end

/-! ## Filling a page -/

/-- A page that is being filled: how many more items it has room for, whether an item had to be
left out, and the items. -/
structure Buffer (α : Type) where
  room : Nat
  full : Bool
  items : List α

/-- One more item; `true` if there is no room for it. -/
def Buffer.put (b : Buffer α) (x : α) : Bool × Buffer α :=
  if b.room = 0 then (true, { b with full := true })
  else (false, { b with room := b.room - 1, items := b.items ++ [x] })

/-- Items are put into a page until one does not fit. -/
def Buffer.putAll : Buffer α → List α → Buffer α
  | b, [] => b
  | b, x :: l =>
    match b.put x with
    | (true, b) => b
    | (false, b) => b.putAll l

theorem Buffer.putAll_eq (b : Buffer α) (l : List α) :
    (b.putAll l).items = b.items ++ l.take b.room ∧
      (b.putAll l).full = (b.full || decide (b.room < l.length)) := by
  induction l generalizing b with
  | nil => simp [putAll]
  | cons x l ih =>
    unfold putAll put
    by_cases hroom : b.room = 0
    · simp [hroom]
    obtain ⟨n, hn⟩ := Nat.exists_eq_succ_of_ne_zero hroom
    simp only [if_neg hroom]
    obtain ⟨hitems, hfull⟩ := ih { b with room := b.room - 1, items := b.items ++ [x] }
    rw [hitems, hfull, hn]
    simp

end Paging
