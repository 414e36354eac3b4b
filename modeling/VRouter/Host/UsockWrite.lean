import VRouter.Lib.Run

/-!
# VRouter — writing the responses of a netlink connection

A response is written at once, from the buffer an incomplete write has left, or from the backlog.
Without a backlog they leave in the order they were submitted (`responses_in_order`); the loop that
empties the backlog takes the link inside a message for the message (`backlog_sends_stray`). Of a
response that is not written at once only the buffer is remembered, and nobody frees it
(`response_not_freed`).
-/

namespace VRouter

/-- A response begins with its netlink header. -/
structure NlResponse where
  first : UInt8
  rest : List UInt8

def NlResponse.bytes (m : NlResponse) : List UInt8 := m.first :: m.rest

/-- What a call of `write` does; `wrote n` stands for at most `n + 1` bytes. -/
inductive WriteOutcome
  | wrote (n : Nat)
  | interrupted (again : WriteOutcome)
  | wouldBlock
  | failed

namespace WriteOutcome

def Fails : WriteOutcome → Prop
  | failed => True
  | interrupted again => again.Fails
  | _ => False

/-- All of `len` bytes are written. -/
def Completes (len : Nat) : WriteOutcome → Prop
  | wrote n => len ≤ n + 1
  | interrupted again => again.Completes len
  | _ => False

end WriteOutcome

/-- The part of `struct vr_usocket` that writing uses; `pollOut` is the entry in the poll array of
the parent. `sent`, `submitted` and `freed` record what has happened; `badFree` tells that an
address was freed that the allocator never gave out. -/
structure UsockTx where
  txBuf : Option (List UInt8) := none
  writeLen : Nat := 0
  writeOffset : Nat := 0
  nlResponses : List NlResponse := []
  pollOut : Bool := false
  closed : Bool := false
  sent : List UInt8 := []
  submitted : List NlResponse := []
  freed : List NlResponse := []
  badFree : Bool := false

namespace UsockTx

/-- `__usock_write`, with the value it returns. -/
def usockWriteCore (s : UsockTx) (o : WriteOutcome) : UsockTx × Int :=
  match s.txBuf with
  | none => (s, 0)
  | some buf =>
    if s.writeLen = 0 then (s, 0)
    else
      match o with
      | .wrote n =>
        let ret := min (n + 1) (s.writeLen - s.writeOffset)
        let s := { s with
          sent := s.sent ++ (buf.drop s.writeOffset).take ret
          writeOffset := s.writeOffset + ret }
        if s.writeOffset = s.writeLen then ({ s with pollOut := false, txBuf := none }, ret)
        else ({ s with pollOut := true }, ret)
      | .interrupted again => s.usockWriteCore again
      | .wouldBlock => ({ s with pollOut := true }, 0)
      | .failed => ({ s with txBuf := none }, -1)

/-- The fields that are set before a buffer is written. -/
def setBuf (s : UsockTx) (buf : List UInt8) : UsockTx :=
  { s with txBuf := some buf, writeLen := buf.length, writeOffset := 0 }

/-- `usock_netlink_write_responses`. The link that `vr_queue_dequeue` returns is cast to the
message, whose last field it is. The buffer is then the next link, less the size of the headers, and
the length is what lies behind the message: `stray` are the bytes there. A null link cannot be read,
and the cast pointer cannot be freed. -/
def usockNetlinkWriteResponses (s : UsockTx) (o : WriteOutcome) (stray : List UInt8) : UsockTx :=
  match s.nlResponses with
  | [] => s
  | _ :: queue =>
    let (s, ret) := ({ s with nlResponses := queue }.setBuf stray).usockWriteCore
      (if queue.isEmpty then .failed else o)
    if ret < 0 ∨ ret = s.writeLen then { s with badFree := true } else s

/-- `vr_usocket_message_write`. -/
def vrUsocketMessageWrite (s : UsockTx) (m : NlResponse) (o : WriteOutcome) : UsockTx × Int :=
  if s.txBuf.isSome ∨ s.nlResponses ≠ [] then ({ s with nlResponses := s.nlResponses ++ [m] }, 0)
  else
    let (s, ret) := (s.setBuf m.bytes).usockWriteCore o
    (if ret = m.bytes.length then { s with freed := s.freed ++ [m] } else s, ret)

/-- `usock_write`, for a connection that can be written to. -/
def usockWrite (s : UsockTx) (o next : WriteOutcome) (stray : List UInt8) : UsockTx :=
  let (s, ret) := s.usockWriteCore o
  if ret < 0 then { s with closed := true }
  else if s.writeOffset = s.writeLen then
    s.usockNetlinkWriteResponses next stray
  else s

end UsockTx

/-- A response is submitted by `dpdk_nl_process_response`, which closes the connection if it cannot
be written, the connection can be written to, or it is closed. -/
inductive UsockTxStep
  | submit (m : NlResponse) (o : WriteOutcome)
  | writable (o next : WriteOutcome) (stray : List UInt8)
  | close

def UsockTx.step (s : UsockTx) (a : UsockTxStep) : Option UsockTx :=
  if s.closed ∨ s.badFree then none
  else
    match a with
    | .submit m o =>
      let (s, ret) := { s with submitted := s.submitted ++ [m] }.vrUsocketMessageWrite m o
      some { s with closed := decide (ret < 0) }
    | .writable o next stray => some (s.usockWrite o next stray)
    | .close => some { s with closed := true }

/-- No write fails, and a response is submitted only when none waits. -/
def UsockTx.Alone (s : UsockTx) : UsockTxStep → Prop
  | .submit _ o => s.txBuf = none ∧ ¬ o.Fails
  | .writable o _ _ => ¬ o.Fails
  | .close => True

/-- Every response is written at once. -/
def UsockTxStep.Completes : UsockTxStep → Prop
  | submit m o => o.Completes m.bytes.length
  | _ => True

namespace UsockTx

variable {s s' : UsockTx} {o : WriteOutcome} {buf : List UInt8}

theorem usockWriteCore_completes {m : NlResponse} (hbuf : s.txBuf = some m.bytes)
    (hlen : s.writeLen = m.bytes.length) (hoff : s.writeOffset = 0)
    (hok : o.Completes m.bytes.length) : s.usockWriteCore o = ({ s with
      sent := s.sent ++ m.bytes
      writeOffset := m.bytes.length
      pollOut := false
      txBuf := none }, (m.bytes.length : Int)) := by
  have hpos : s.writeLen ≠ 0 := by simp [hlen, NlResponse.bytes]
  induction o with
  | wrote n =>
    simp only [usockWriteCore, hbuf, if_neg hpos]
    simp only [hoff, hlen, Nat.sub_zero, Nat.min_eq_right hok, Nat.zero_add, if_true,
      List.drop_zero, List.take_length]
  | interrupted again ih =>
    rw [usockWriteCore]
    simp only [hbuf, if_neg hpos]
    exact ih hok
  | wouldBlock => exact hok.elim
  | failed => exact hok.elim

/-- Every byte is sent or waits, in the order of submission, and the connection is polled for output
while one waits. -/
structure TxInv (s : UsockTx) : Prop where
  order : s.sent ++ s.txBuf.elim [] (·.drop s.writeOffset) = s.submitted.flatMap (·.bytes)
  empty : s.nlResponses = []
  waits : ∀ buf, s.txBuf = some buf →
    s.writeLen = buf.length ∧ s.writeOffset < buf.length ∧ s.pollOut = true

theorem usockWriteCore_inv (hbuf : s.txBuf = some buf) (hlen : s.writeLen = buf.length)
    (hoff : s.writeOffset < buf.length) (hempty : s.nlResponses = []) (hok : ¬ o.Fails)
    (horder : s.sent ++ buf.drop s.writeOffset = s.submitted.flatMap (·.bytes)) :
    (s.usockWriteCore o).1.TxInv ∧ 0 ≤ (s.usockWriteCore o).2 := by
  have hpos : s.writeLen ≠ 0 := by omega
  induction o with
  | wrote n =>
    simp only [usockWriteCore, hbuf, if_neg hpos]
    split
    · -- the last bytes
      refine ⟨⟨?_, hempty, nofun⟩, Int.natCast_nonneg _⟩
      rw [List.take_of_length_le (by rw [List.length_drop]; omega), Option.elim_none,
        List.append_nil]
      exact horder
    · refine ⟨⟨?_, hempty, ?_⟩, Int.natCast_nonneg _⟩
      · rw [Option.elim_some, ← List.drop_drop, List.append_assoc, List.take_append_drop]
        exact horder
      · rintro _ ⟨⟩
        exact ⟨hlen, by show s.writeOffset + _ < _; omega, rfl⟩
  | interrupted again ih =>
    rw [usockWriteCore]
    simp only [hbuf, if_neg hpos]
    exact ih hok
  | wouldBlock =>
    simp only [usockWriteCore, hbuf, if_neg hpos]
    refine ⟨⟨horder, hempty, ?_⟩, by simp⟩
    rintro _ ⟨⟩
    exact ⟨hlen, hoff, rfl⟩
  | failed => exact absurd trivial hok

theorem step_inv (a : UsockTxStep) (hi : s.TxInv) (hok : s.Alone a) (h : s.step a = some s') :
    s'.TxInv := by
  unfold step at h
  split at h
  · cases h
  cases a with
  | submit m o =>
    obtain ⟨hnone, hok⟩ := hok
    have hwait : ¬ (s.txBuf.isSome ∨ s.nlResponses ≠ []) := by simp [hnone, hi.empty]
    have horder := hi.order
    rw [hnone, Option.elim_none, List.append_nil] at horder
    obtain ⟨hinv, -⟩ := usockWriteCore_inv
      (s := { s with submitted := s.submitted ++ [m] }.setBuf m.bytes) rfl rfl (Nat.succ_pos _)
      hi.empty hok (by simp [setBuf, horder])
    simp only [vrUsocketMessageWrite, if_neg hwait] at h
    cases h
    split <;> exact ⟨hinv.order, hinv.empty, hinv.waits⟩
  | writable o next stray =>
    cases h
    have hcore : (s.usockWriteCore o).1.TxInv ∧ 0 ≤ (s.usockWriteCore o).2 := by
      cases hbuf : s.txBuf with
      | none => simpa [usockWriteCore, hbuf] using hi
      | some buf =>
        obtain ⟨hlen, hoff, -⟩ := hi.waits buf hbuf
        have horder := hi.order
        rw [hbuf] at horder
        exact usockWriteCore_inv hbuf hlen hoff hi.empty hok horder
    -- there is no backlog to go on with
    simp only [usockWrite, usockNetlinkWriteResponses, hcore.1.empty,
      if_neg (Int.not_lt.mpr hcore.2), ite_self]
    exact hcore.1
  | close =>
    cases h
    exact ⟨hi.order, hi.empty, hi.waits⟩

/-- While every response is written at once, nothing waits. -/
structure AllWritten (s : UsockTx) : Prop where
  idle : s.txBuf = none
  empty : s.nlResponses = []
  sent : s.sent = s.submitted.flatMap (·.bytes)
  freed : s.freed = s.submitted

theorem step_allWritten (a : UsockTxStep) (hi : s.AllWritten) (hok : a.Completes)
    (h : s.step a = some s') : s'.AllWritten := by
  obtain ⟨hidle, hempty, hsent, hfreed⟩ := hi
  unfold step at h
  split at h
  · cases h
  cases a with
  | submit m o =>
    have hwait : ¬ (s.txBuf.isSome ∨ s.nlResponses ≠ []) := by simp [hidle, hempty]
    simp only [vrUsocketMessageWrite, if_neg hwait] at h
    rw [usockWriteCore_completes rfl rfl rfl hok, if_pos rfl] at h
    cases h
    exact ⟨rfl, hempty, by simp [setBuf, hsent], congrArg (· ++ [m]) hfreed⟩
  | writable o next stray =>
    simp only [usockWrite, usockWriteCore, hidle, hempty, usockNetlinkWriteResponses] at h
    cases h
    simpa using ⟨hidle, hempty, hsent, hfreed⟩
  | close =>
    cases h
    exact ⟨hidle, hempty, hsent, hfreed⟩

end UsockTx

/-- **What has been sent is the beginning of the responses in the order of submission, and an open
connection with bytes left is polled for output, if each response is submitted when none waits.** -/
theorem responses_in_order {s : UsockTx} {as : List UsockTxStep}
    (hok : StepsMeet UsockTx.step UsockTx.Alone {} as)
    (hrun : runSteps UsockTx.step {} as = some s) :
    s.sent <+: s.submitted.flatMap (·.bytes) ∧
      (s.sent ≠ s.submitted.flatMap (·.bytes) → s.closed = false → s.pollOut = true) := by
  have hi : s.TxInv := runSteps_invariant_of_meet (fun _ a _ => UsockTx.step_inv a)
    ⟨rfl, rfl, by simp⟩ hok hrun
  refine ⟨⟨_, hi.order⟩, fun hne _ => ?_⟩
  have horder := hi.order
  cases hbuf : s.txBuf with
  | none => exact absurd (by simpa [hbuf] using horder) hne
  | some buf => exact (hi.waits buf hbuf).2.2

theorem responses_in_order_two : ∃ s, runSteps UsockTx.step {}
      [.submit ⟨1, [2]⟩ (.interrupted (.wrote 0))] = some s ∧ s.sent = [1] ∧ s.pollOut = true := by
  refine ⟨_, rfl, rfl, (@responses_in_order _ [.submit ⟨1, [2]⟩ (.interrupted (.wrote 0))]
    ⟨⟨rfl, id⟩, fun _ _ => trivial⟩ rfl).2 ?_ rfl⟩
  decide

/-- **Two responses wait behind a first one: what is sent in place of the second is not theirs.** -/
theorem backlog_sends_stray : (runSteps UsockTx.step {}
      [.submit ⟨1, []⟩ .wouldBlock, .submit ⟨2, []⟩ .wouldBlock, .submit ⟨3, []⟩ .wouldBlock,
        .writable (.wrote 0) (.wrote 0) (List.replicate 24 9)]).map
      (fun s => (s.sent, s.submitted.flatMap (·.bytes))) = some ([1, 9], [1, 2, 3]) := by
  decide +kernel

/-- **Every response is freed once, when all its bytes are written, if every response is written at
once.** -/
theorem responses_freed {s : UsockTx} {as : List UsockTxStep} (hok : ∀ a ∈ as, a.Completes)
    (hrun : runSteps UsockTx.step {} as = some s) :
    s.freed = s.submitted ∧ s.sent = s.submitted.flatMap (·.bytes) := by
  have hi : s.AllWritten := runSteps_invariant_of_meet (fun _ a _ => UsockTx.step_allWritten a)
    ⟨rfl, rfl, rfl, rfl⟩ (stepsMeet_of_forall hok) hrun
  exact ⟨hi.freed, hi.sent⟩

theorem responses_freed_two : ∃ s, runSteps UsockTx.step {}
    [.submit ⟨1, [2]⟩ (.interrupted (.wrote 1)), .close] = some s ∧ s.freed = s.submitted := by
  refine ⟨_, rfl,
    (@responses_freed _ [.submit ⟨1, [2]⟩ (.interrupted (.wrote 1)), .close] ?_ rfl).1⟩
  simp [UsockTxStep.Completes, WriteOutcome.Completes, NlResponse.bytes]

/-- **The response is written in two parts and the connection is closed: it is never freed.** -/
theorem response_not_freed : ∃ s, runSteps UsockTx.step {}
      [.submit ⟨1, [2]⟩ (.wrote 0), .writable (.wrote 0) .wouldBlock [], .close] = some s ∧
    s.sent = [1, 2] ∧ s.closed = true ∧ s.freed = [] :=
  ⟨_, rfl, rfl, rfl, rfl⟩

end VRouter
