import VRouter.Lib.Traverse

/-!
# VRouter — the index table of `vr_index_table.c`

A table of pointers by index: the bits of an index are cut into strides, and each stride is an
array of pointers to the arrays of the next one. The arrays of the last stride hold the caller's
pointers. Arrays are allocated on the way down by `vr_itable_set`, and freed on the way back up by
`vr_itable_del` once all their pointers are null.

A `void *` of the source is an `Option` here, `none` being the null pointer; what it points to
depends on the strides that are left (`Strides`). `vr_zalloc` is an oracle: `alloc i` says whether
the array wanted for stride `i` can be had.
-/

namespace VRouter

open Traverse

/-! ## Data model -/

/-- An element of `stride_len` and `stride_shift`. -/
structure StrideInfo where
  strideLen : Nat
  strideShift : Nat
  strideLen_pos : 0 < strideLen

/-- What a pointer points to when the strides `ss` are left: the caller's data after the last one,
and before it an array of pointers for the next stride. -/
def Strides (α : Type) : List StrideInfo → Type
  | [] => α
  | s :: ss => Fin s.strideLen → Option (Strides α ss)

/-- `struct vr_itbl`; `stride_cnt` is the length of the list. -/
structure VrItbl (α : Type) where
  indexLen : Nat
  strides : List StrideInfo
  data : Option (Strides α strides)

/-- `(index >> stride_shift[i]) & (stride_len[i] - 1)`. -/
def StrideInfo.id (s : StrideInfo) (index : Nat) : Fin s.strideLen :=
  ⟨(index >>> s.strideShift) &&& (s.strideLen - 1),
    lt_of_le_of_lt Nat.and_le_right (Nat.sub_lt s.strideLen_pos Nat.one_pos)⟩

/-! ## Creating a table -/

/-- The loop of `vr_itable_create` over the bits of each stride. `pageShift` is
`get_page_shift`, and `tot` the bits taken by the strides before. -/
def itableStrides (pageShift indexLen : Nat) :
    (tot : Nat) → List Nat → Option (List StrideInfo × Nat)
  | tot, [] => some ([], tot)
  | tot, bits :: rest =>
    if pageShift < bits then none
    else if indexLen < tot + bits then none
    else
      (itableStrides pageShift indexLen (tot + bits) rest).map fun (ss, total) =>
        (⟨1 <<< bits, indexLen - (tot + bits), by rw [Nat.one_shiftLeft]; exact Nat.two_pow_pos _⟩
          :: ss, total)

/-- `vr_itable_create`, for allocations that succeed. -/
def vrItableCreate (α : Type) (pageShift indexLen : Nat) (strideBits : List Nat) :
    Option (VrItbl α) :=
  if 32 < indexLen then none
  else if strideBits.length < 2 then none
  else
    (itableStrides pageShift indexLen 0 strideBits).bind fun (ss, total) =>
      if total ≠ indexLen then none else some ⟨indexLen, ss, none⟩

section

variable {α β : Type}

/-- `ptr[id]`. -/
def Strides.at {s : StrideInfo} {ss : List StrideInfo} (ptr : Strides α (s :: ss))
    (id : Fin s.strideLen) : Option (Strides α ss) := ptr id

/-- `ptr[id] = child`. -/
def Strides.store {s : StrideInfo} {ss : List StrideInfo} (ptr : Strides α (s :: ss))
    (id : Fin s.strideLen) (child : Option (Strides α ss)) : Strides α (s :: ss) :=
  fun j => if j = id then child else ptr j

/-- A new array of null pointers. -/
def Strides.null (α : Type) (s : StrideInfo) (ss : List StrideInfo) : Strides α (s :: ss) :=
  fun _ => none

/-- `vr_stride_empty`. -/
def vrStrideEmpty {s : StrideInfo} {ss : List StrideInfo} (ptr : Strides α (s :: ss)) : Bool :=
  (List.finRange s.strideLen).all fun i => (ptr.at i).isNone

/-! ## Access by index -/

/-- The loop of `vr_itable_get` from one stride on. -/
def itableGet : (ss : List StrideInfo) → Option (Strides α ss) → (index : Nat) → Option α
  | [], ptr, _ => ptr
  | _ :: _, none, _ => none
  | s :: ss, some ptr, index => itableGet ss (ptr.at (s.id index)) index

/-- `vr_itable_get`. -/
def vrItableGet (t : VrItbl α) (index : Nat) : Option α := itableGet t.strides t.data index

/-- The loop of `vr_itable_set` from stride `i` on: the pointer it leaves behind, and the old data
or, where an array could not be allocated, `VR_ITABLE_ERR_PTR`. Arrays allocated before stay. -/
def itableSet (alloc : Nat → Bool) : (ss : List StrideInfo) → (i : Nat) →
    Option (Strides α ss) → (index : Nat) → (data : Option α) →
    Except Unit (Option α) × Option (Strides α ss)
  | [], _, ptr, _, data => (.ok ptr, data)
  | s :: ss, i, ptr, index, data =>
    let visit (ptr : Strides α (s :: ss)) :
        Except Unit (Option α) × Option (Strides α (s :: ss)) :=
      let (ret, child) := itableSet alloc ss (i + 1) (ptr.at (s.id index)) index data
      (ret, some (ptr.store (s.id index) child))
    match ptr with
    | some ptr => visit ptr
    | none => if alloc i then visit (.null α s ss) else (.error (), none)

/-- `vr_itable_set`. An index with more bits than the table has is reported and its upper bits
are ignored. -/
def vrItableSet (t : VrItbl α) (alloc : Nat → Bool) (index : Nat) (data : Option α) :
    Except Unit (Option α) × VrItbl α :=
  let (ret, ptr) := itableSet alloc t.strides 0 t.data index data
  (ret, { t with data := ptr })

/-- `__vr_itable_del` from one stride on: the old data and the pointer it leaves behind, which is
null if the array was freed (or, after the last stride, the data deleted). -/
def itableDel : (ss : List StrideInfo) → Option (Strides α ss) → (index : Nat) →
    Option α × Option (Strides α ss)
  | [], ptr, _ => (ptr, none)
  | _ :: _, none, _ => (none, none)
  | s :: ss, some ptr, index =>
    let (old, child) := itableDel ss (ptr.at (s.id index)) index
    let ptr' := ptr.store (s.id index) child
    -- the array is only looked at again if something below it went away
    if (ptr.at (s.id index)).isSome && child.isNone && vrStrideEmpty ptr' then (old, none)
    else (old, some ptr')

/-- `vr_itable_del`. -/
def vrItableDel (t : VrItbl α) (index : Nat) : Option α × VrItbl α :=
  let (old, ptr) := itableDel t.strides t.data index
  (old, { t with data := ptr })

/-! ## Traversal -/

/-- One element of the last stride in `__vr_itable_dump`. -/
def itableVisit (func : Nat → α → β → Int × β) (marker index : Nat) :
    Option α → Int × β → Int × β
  | none, r => r
  | some data, r => if marker ≤ index then func index data r.2 else r

/-- `__vr_itable_dump`. A callback that returns a number that is not positive ends the traversal;
`index` has the bits of the strides before. -/
def itableDump (func : Nat → α → β → Int × β) (marker : Nat) :
    (ss : List StrideInfo) → Option (Strides α ss) → (index : Nat) → β → Int × β
  | [], _, _, b => (1, b)
  | _ :: _, none, _, b => (1, b)
  | [s], some ptr, index, b =>
    traverse (fun j => itableVisit func marker (index ||| (j.val <<< s.strideShift))
      (ptr.at j))
      (List.finRange s.strideLen) (1, b)
  | s :: s' :: ss, some ptr, index, b =>
    traverse (fun i r =>
        if (ptr.at i).isSome then
          itableDump func marker (s' :: ss) (ptr.at i) (index ||| (i.val <<< s.strideShift)) r.2
        else r)
      (List.finRange s.strideLen) (1, b)

/-- `vr_itable_trav`. -/
def vrItableTrav (t : VrItbl α) (func : Nat → α → β → Int × β) (marker : Nat) (udata : β) :
    Int × β :=
  itableDump func marker t.strides t.data 0 udata

end

end VRouter
