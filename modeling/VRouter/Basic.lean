import VRouter.Lib.LongestMatch

/-!
# VRouter — what the tables share

Error codes, address families and the nexthop table as the other tables see it. `vrouter_get`
ignores its router id, so the model has one router and no `rid` arguments.
-/

namespace VRouter

/-- The error codes the modelled functions return (negated in the source). -/
inductive Errno where
  | EPERM | ENOENT | EBADF | ENOMEM | EFAULT | EBUSY | EEXIST | ENODEV | EINVAL | ENOSPC
  deriving DecidableEq, Repr

/-- `AF_INET` and `AF_INET6`; the source tests `family == AF_INET6` and takes everything else
for IPv4. -/
inductive Family where
  | inet
  | inet6
  deriving DecidableEq, Repr

/-- `nh_type`. -/
inductive NhType where
  | dead | rcv | encap | tunnel | resolve | discard | composite | vrfTranslate | l2Rcv
  deriving DecidableEq, Repr

/-- A `struct vr_nexthop`, with its address as identity: two nexthops are the same object
exactly when the records are equal. -/
structure Nexthop where
  nhPtr : Nat
  nhId : Nat
  nhType : NhType
  deriving DecidableEq, Repr

/-- `NH_DISCARD_ID`. -/
def nhDiscardId : Nat := 0

/-- The installed nexthops by index (`__vrouter_get_nexthop`). `vrouter_add_nexthop` stores a
nexthop at its own `nh_id`, and `nh_allocate_discard` installs `ip4_default_nh` at
`NH_DISCARD_ID` when the module starts. -/
structure NexthopTable where
  get : Nat → Option Nexthop
  ip4DefaultNh : Nexthop
  nhId_of_get : ∀ i nh, get i = some nh → nh.nhId = i
  get_discard : get nhDiscardId = some ip4DefaultNh

theorem NexthopTable.get_nhId (tbl : NexthopTable) {i : Nat} {nh : Nexthop}
    (h : tbl.get i = some nh) : tbl.get nh.nhId = some nh := by
  rw [tbl.nhId_of_get i nh h]
  exact h

end VRouter
