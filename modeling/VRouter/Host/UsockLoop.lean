import VRouter.Lib.Run

/-!
# VRouter — the sockets of a DPDK socket loop

The loop reads and writes the children of a socket; on the way a child may be closed and freed. A
response that cannot be written closes the child from inside the request that is answered, and the
reader goes on using it (`socket_used_after_close`). No other step uses a freed socket
(`sockets_used_alive`).
-/

namespace VRouter

open Function

/-- `USOCK_MAX_CHILD_FDS`. -/
def usockMaxChildFds : Nat := 64

/-- A socket with its children; `live` has the `usock_child_index` of every child that is allocated,
with its receive buffer. `badUse` tells that a freed child has been read or written. -/
structure UsockLoop where
  children : Nat → Option Nat := fun _ => none
  live : Nat → Option Nat := fun _ => none
  cfds : Nat := 0
  limited : Bool := false
  closed : Bool := false
  badUse : Bool := false

/-- What reading a child comes to; of a whole message, which of its responses can be written. -/
inductive UsockRead
  | failed
  | more
  | message (responses : List Bool)

/-- A connection for which child `x` is allocated, the events of the child in slot `i`, and the end
of the loop, which closes the parent. -/
inductive UsockEvent
  | accept (x : Nat)
  | pollIn (i : Nat) (r : UsockRead)
  | pollOut (i : Nat) (ok : Bool)
  | pollHup (i : Nat)
  | close

namespace UsockLoop

/-- Child `x` is read or written. -/
def use (s : UsockLoop) (x : Nat) : UsockLoop :=
  { s with badUse := s.badUse || (s.live x).isNone }

/-- `usock_bind_usockets`. -/
def usockBindUsockets (s : UsockLoop) (x : Nat) : UsockLoop :=
  let s := { s with
    cfds := s.cfds + 1
    limited := s.limited || s.cfds + 1 == usockMaxChildFds }
  match (List.range' 1 usockMaxChildFds).find? fun i => (s.children i).isNone with
  | some i =>
    { s with children := update s.children i (some x), live := update s.live x (some i) }
  | none => { s with live := update s.live x (some 0) }

/-- `usock_close` of a child, with `usock_unbind`. -/
def usockClose (s : UsockLoop) (x : Nat) : UsockLoop :=
  match s.live x with
  | some i =>
    { s with
      children := update s.children i none
      live := update s.live x none
      cfds := s.cfds - 1 }
  | none => { s with badUse := true }

/-- What is done to the child in slot `i`, if there is one. -/
def onChild (s : UsockLoop) (i : Nat) (f : UsockLoop → Nat → UsockLoop) : UsockLoop :=
  (s.children i).elim s (f s)

/-- One turn of the loop in `usock_close`; every child it closes lowers `usock_cfds`. -/
def closeSlot (s : UsockLoop) (i : Nat) : UsockLoop :=
  if i < s.cfds then s.onChild i usockClose else s

/-- `usock_close` of the parent. -/
def closeParent (s : UsockLoop) : UsockLoop :=
  { (List.range s.cfds).foldl closeSlot s with closed := true }

/-- `dpdk_nl_process_response`: after the first failure the responses are only freed. -/
def dpdkNlProcessResponse (s : UsockLoop) (x : Nat) : List Bool → UsockLoop
  | [] => s
  | true :: rest => (s.use x).dpdkNlProcessResponse x rest
  | false :: _ => (s.use x).usockClose x

/-- `vr_usocket_read`; a whole message is followed by `usock_read_init`. -/
def vrUsocketRead (s : UsockLoop) (x : Nat) : UsockRead → UsockLoop
  | .failed => (s.use x).usockClose x
  | .more => s.use x
  | .message responses => ((s.use x).dpdkNlProcessResponse x responses).use x

/-- `usock_write`. -/
def usockWrite (s : UsockLoop) (x : Nat) (ok : Bool) : UsockLoop :=
  if ok then s.use x else (s.use x).usockClose x

/-- One event of `vr_usocket_io`. -/
def step (s : UsockLoop) (a : UsockEvent) : Option UsockLoop :=
  if s.closed then none
  else
    match a with
    | .accept x =>
      if (s.live x).isSome then none else some (if s.limited then s else s.usockBindUsockets x)
    | .pollIn i r => some (s.onChild i (·.vrUsocketRead · r))
    | .pollOut i ok => some (s.onChild i (·.usockWrite · ok))
    | .pollHup i => some (s.onChild i usockClose)
    | .close => some s.closeParent

/-- The children in the array are alive, and so was every one that was used. -/
structure Alive (s : UsockLoop) : Prop where
  child : ∀ i x, s.children i = some x → s.live x = some i
  good : s.badUse = false

variable {s s' : UsockLoop} {i x : Nat}

theorem use_of_live (hx : s.live x = some i) : s.use x = s := by
  unfold use
  rw [hx, Option.isNone_some, Bool.or_false]

namespace Alive

variable (h : s.Alive)

include h

theorem usockClose (hx : s.live x = some i) : (s.usockClose x).Alive := by
  unfold UsockLoop.usockClose
  rw [hx]
  refine ⟨fun j y hy => ?_, h.good⟩
  simp only [update_apply, Option.ite_none_left_eq_some] at hy ⊢
  have hlive := h.child j y hy.2
  refine ⟨?_, hlive⟩
  -- `x` is in one slot only
  rintro rfl
  exact hy.1 (Option.some.inj (hlive.symm.trans hx))

theorem usockBindUsockets (hx : s.live x = none) : (s.usockBindUsockets x).Alive := by
  have hne : ∀ j y, s.children j = some y → y ≠ x := by
    rintro j y hy rfl
    cases (h.child j y hy).symm.trans hx
  unfold UsockLoop.usockBindUsockets
  dsimp only
  split
  · refine ⟨fun j y hy => ?_, h.good⟩
    simp only [update_apply] at hy ⊢
    split at hy
    · cases hy
      rw [if_pos rfl, ‹j = _›]
    · rw [if_neg (hne j y hy), h.child j y hy]
  · exact ⟨fun j y hy => (update_of_ne (hne j y hy) _ _).trans (h.child j y hy), h.good⟩

theorem onChild {f : UsockLoop → Nat → UsockLoop}
    (hf : ∀ x, s.live x = some i → (f s x).Alive) : (s.onChild i f).Alive := by
  unfold UsockLoop.onChild
  cases hx : s.children i with
  | none => exact h
  | some x => exact hf x (h.child i x hx)

theorem closeParent : s.closeParent.Alive := by
  have hloop : ∀ is : List Nat, (is.foldl closeSlot s).Alive := by
    intro is
    induction is generalizing s with
    | nil => exact h
    | cons i is ih =>
      apply ih
      unfold closeSlot
      split
      · exact h.onChild fun x hx => h.usockClose hx
      · exact h
  exact ⟨(hloop _).child, (hloop _).good⟩

theorem vrUsocketRead {r : UsockRead}
    (hok : ∀ responses, r = .message responses → false ∉ responses) (hx : s.live x = some i) :
    (s.vrUsocketRead x r).Alive := by
  cases r with
  | failed =>
    rw [UsockLoop.vrUsocketRead, use_of_live hx]
    exact h.usockClose hx
  | more =>
    rw [UsockLoop.vrUsocketRead, use_of_live hx]
    exact h
  | message responses =>
    have hnone : s.dpdkNlProcessResponse x responses = s := by
      have hmem := hok responses rfl
      clear hok
      induction responses with
      | nil => rfl
      | cons r rest ih =>
        rw [List.mem_cons, not_or] at hmem
        cases r with
        | false => exact absurd rfl hmem.1
        | true =>
          rw [UsockLoop.dpdkNlProcessResponse, use_of_live hx]
          exact ih hmem.2
    rw [UsockLoop.vrUsocketRead, use_of_live hx, hnone, use_of_live hx]
    exact h

end Alive

end UsockLoop

/-- No response fails to be written while its request is processed. -/
def UsockEvent.Answered : UsockEvent → Prop
  | pollIn _ (.message responses) => false ∉ responses
  | _ => True

theorem UsockLoop.step_alive {s s' : UsockLoop} (a : UsockEvent) (h : s.Alive) (hok : a.Answered)
    (hstep : s.step a = some s') : s'.Alive := by
  unfold step at hstep
  split at hstep
  · cases hstep
  cases a with
  | accept x =>
    dsimp only at hstep
    split at hstep
    · cases hstep
    next hfree =>
      cases hstep
      split
      · exact h
      · exact h.usockBindUsockets (Option.not_isSome_iff_eq_none.mp hfree)
  | pollIn i r =>
    cases hstep
    refine h.onChild fun x hx => h.vrUsocketRead ?_ hx
    rintro responses rfl
    exact hok
  | pollOut i ok =>
    cases hstep
    refine h.onChild fun x hx => ?_
    unfold usockWrite
    rw [use_of_live hx]
    split
    · exact h
    · exact h.usockClose hx
  | pollHup i =>
    cases hstep
    exact h.onChild fun x hx => h.usockClose hx
  | close =>
    cases hstep
    exact h.closeParent

/-- **No socket is used after it has been freed, if every response can be written or waits while its
request is processed.** -/
theorem sockets_used_alive {s : UsockLoop} {as : List UsockEvent} (hok : ∀ a ∈ as, a.Answered)
    (hrun : runSteps UsockLoop.step {} as = some s) : s.badUse = false :=
  (runSteps_invariant_of_meet (fun _ a _ => UsockLoop.step_alive a) ⟨by simp, rfl⟩
    (stepsMeet_of_forall hok) hrun).good

theorem sockets_used_alive_two : ∃ s, runSteps UsockLoop.step {}
      [.accept 7, .pollIn 1 (.message [true]), .pollHup 1, .close] = some s ∧ s.badUse = false := by
  refine ⟨_, rfl, @sockets_used_alive _
    [.accept 7, .pollIn 1 (.message [true]), .pollHup 1, .close] ?_ rfl⟩
  simp [UsockEvent.Answered]

/-- **A response that cannot be written: its connection is freed, then set up for reading.** -/
theorem socket_used_after_close : (runSteps UsockLoop.step {}
    [.accept 7, .pollIn 1 (.message [false])]).map (·.badUse) = some true := by
  decide +kernel

end VRouter
