import VRouter.Basic

/-!
# VRouter — the fat flow configuration of an interface

`vif_fat_flow_add` of `vr_interface.c` gives an interface the protocol and port pairs of a request.
The pairs are kept twice: as a list per protocol class (`vif_fat_flow_config`), and as a bitmap over
all ports with 64 rows of 1024 bits that are allocated on demand (`vif_fat_flow_ports`). A request
is applied as a difference: ports of the old list that are named again are struck out of a copy of
it by writing 0 over them, the others are added to the bitmap, and what is left in the copy is
deleted from the bitmap.

Pointers are 8 bytes. A request that runs out of memory returns an error, or writes through a null
pointer; no state is modelled after that. Rows are freed later (`vr_defer`), but they are unlinked
at once if the memory for the deferral can be had, which is what matters here.
-/

namespace VRouter

/-! ## Data model -/

/-- `VIF_FAT_FLOW_NOPROTO_INDEX` and so on. -/
inductive FatFlowProto where
  | noproto | tcp | udp | sctp
  deriving DecidableEq, Repr

/-- `VIF_FAT_FLOW_NUM_BITMAPS`. -/
def vifFatFlowNumBitmaps : Nat := 64

/-- `VIF_FAT_FLOW_BITMAP_SIZE`. -/
def vifFatFlowBitmapSize : Nat := 1024

/-- A row of `VIF_FAT_FLOW_BITMAP_BYTES` bytes. -/
abbrev FatFlowBitmap := Fin 128 → BitVec 8

/-- The rows of one protocol class: a pointer to an array of pointers to bitmaps. -/
abbrev FatFlowRows := Option (Fin 64 → Option FatFlowBitmap)

/-- The fields of `struct vr_interface` for fat flows. -/
structure FatFlowVif where
  vifFatFlowPorts : FatFlowProto → FatFlowRows
  vifFatFlowConfig : FatFlowProto → Option (List Nat)
  vifFatFlowConfigSize : FatFlowProto → Nat

/-- A new interface. -/
def FatFlowVif.new : FatFlowVif := ⟨fun _ => none, fun _ => none, fun _ => 0⟩

/-- How a request can fail: by an error code, or by a write through a null pointer. -/
inductive FatFlowError where
  | errno (e : Errno)
  | fault
  deriving DecidableEq, Repr

/-- Outcomes of the allocations of one request: the lists by class, the array of rows and the
bitmap by position in the request, and the two deferrals of a delete by class and position in the
old list. -/
structure FatFlowAlloc where
  config : FatFlowProto → Bool
  rows : Nat → Bool
  bitmap : Nat → Bool
  deferBitmap : FatFlowProto → Nat → Bool
  deferRows : FatFlowProto → Nat → Bool

/-- `vif_fat_flow_get_proto_index`, on `VR_IP_PROTO_TCP`, `VR_IP_PROTO_UDP` and
`VR_IP_PROTO_SCTP`. -/
def vifFatFlowGetProtoIndex (proto : Nat) : FatFlowProto :=
  if proto = 6 then .tcp else if proto = 17 then .udp else if proto = 132 then .sctp else .noproto

/-- `VIF_FAT_FLOW_PROTOCOL` of an element of a request. -/
def vifFatFlowProtocol (pp : Nat) : Nat := (pp >>> 16) &&& 0xFF

/-- `VIF_FAT_FLOW_PORT` of an element of a request. -/
def vifFatFlowPort (pp : Nat) : Nat := pp &&& 0xFFFF

/-- The class of an element of a request. -/
def fatFlowClass (pp : Nat) : FatFlowProto := vifFatFlowGetProtoIndex (vifFatFlowProtocol pp)

/-- The port stored for an element: the protocol itself where the protocol has no ports. -/
def fatFlowPort (pp : Nat) : Nat :=
  if fatFlowClass pp = .noproto then vifFatFlowProtocol pp else vifFatFlowPort pp

/-! ## The bitmap -/

/-- Row of a port; ports have 16 bits. -/
def portRow (port : Nat) : Fin 64 := Fin.ofNat 64 (port / vifFatFlowBitmapSize)

/-- Byte of a port within its row. -/
def portWord (port : Nat) : Fin 128 := Fin.ofNat 128 (port % vifFatFlowBitmapSize / 8)

/-- Bit of a port within its byte. -/
def portBit (port : Nat) : Nat := port % vifFatFlowBitmapSize % 8

/-- `vif_fat_flow_port_is_set`, on the rows of the class. -/
def fatFlowIsSet (rows : FatFlowRows) (port : Nat) : Bool :=
  match rows with
  | none => false
  | some memRow =>
    match memRow (portRow port) with
    | none => false
    | some memColumn => memColumn (portWord port) &&& (1#8 <<< portBit port) ≠ 0

/-- `vif_fat_flow_port_is_set`. -/
def vifFatFlowPortIsSet (vif : FatFlowVif) (protoIndex : FatFlowProto) (port : Nat) : Bool :=
  fatFlowIsSet (vif.vifFatFlowPorts protoIndex) port

def setRow (memRow : Fin 64 → Option FatFlowBitmap) (row : Fin 64)
    (column : Option FatFlowBitmap) : Fin 64 → Option FatFlowBitmap :=
  fun r => if r = row then column else memRow r

def setWord (memColumn : FatFlowBitmap) (word : Fin 128) (x : BitVec 8) : FatFlowBitmap :=
  fun w => if w = word then x else memColumn w

/-- `__vif_fat_flow_add`, on the rows of the class. The check after the first allocation looks at
the wrong pointer, so that the source goes on with a null pointer; so it does when only the bitmap
cannot be allocated and the array of rows was there before. -/
def fatFlowAddPort (allocRows allocBitmap : Bool) (rows : FatFlowRows) (port : Nat) :
    Except FatFlowError FatFlowRows :=
  let addBit (memRow : Fin 64 → Option FatFlowBitmap) (memColumn : FatFlowBitmap) : FatFlowRows :=
    some (setRow memRow (portRow port) (some (setWord memColumn (portWord port)
      (memColumn (portWord port) ||| (1#8 <<< portBit port)))))
  match rows with
  | none =>
    if !allocRows then .error .fault
    else if !allocBitmap then .error (.errno .ENOMEM)
    else .ok (addBit (fun _ => none) fun _ => 0)
  | some memRow =>
    match memRow (portRow port) with
    | some memColumn => .ok (addBit memRow memColumn)
    | none => if !allocBitmap then .error .fault else .ok (addBit memRow fun _ => 0)

/-- `memcmp(mem_column, vif_fat_flow_mem_zero, sizeof(vif_fat_flow_mem_zero)) == 0`. -/
def bitmapZero (memColumn : FatFlowBitmap) : Bool :=
  (List.finRange 128).all fun w => memColumn w = 0

/-- `memcmp(mem_row, vif_fat_flow_mem_zero, VIF_FAT_FLOW_NUM_BITMAPS) == 0`: the first 64 bytes of
the array, which are its first 8 pointers. -/
def rowsZero (memRow : Fin 64 → Option FatFlowBitmap) : Bool :=
  (List.finRange 64).all fun r => vifFatFlowNumBitmaps / 8 ≤ r.val || (memRow r).isNone

/-- `__vif_fat_flow_try_free`. -/
def fatFlowTryFree (deferBitmap deferRows : Bool) (memRow : Fin 64 → Option FatFlowBitmap)
    (row : Fin 64) (memColumn : FatFlowBitmap) : FatFlowRows :=
  if bitmapZero memColumn then
    if !deferBitmap then some memRow
    else if rowsZero (setRow memRow row none) && deferRows then none
    else some (setRow memRow row none)
  else some memRow

/-- `__vif_fat_flow_delete`, on the rows of the class. -/
def fatFlowDeletePort (deferBitmap deferRows : Bool) (rows : FatFlowRows) (port : Nat) :
    FatFlowRows :=
  match rows with
  | none => none
  | some memRow =>
    match memRow (portRow port) with
    | none => some memRow
    | some memColumn =>
      let column := setWord memColumn (portWord port)
        (memColumn (portWord port) &&& ~~~(1#8 <<< portBit port))
      fatFlowTryFree deferBitmap deferRows (setRow memRow (portRow port) (some column))
        (portRow port) column

/-! ## A request -/

/-- Sizes after the loop that counts the elements of a request by class. -/
def fatFlowCount (req : List Nat) : FatFlowProto → Nat :=
  req.foldl (fun size pp c => if c = fatFlowClass pp then (size c + 1) % 2 ^ 16 else size c)
    fun _ => 0

/-- The loop over the old list: the first entry equal to `port` is struck out. -/
def strikeOut (port : Nat) : List Nat → Option (List Nat)
  | [] => none
  | p :: ps => if p = port then some (0 :: ps) else (strikeOut port ps).map (p :: ·)

/-- An interface in the middle of a request, with the copy of its old lists. -/
structure FatFlowUpdate where
  vif : FatFlowVif
  old : FatFlowProto → List Nat

/-- One element of a request in the loop that adds ports: it is stored in the list of its class,
and unless it can be struck out of the old list it is added to the bitmap. -/
def fatFlowAddOne (alloc : FatFlowAlloc) (i : Nat) (u : FatFlowUpdate) (pp : Nat) :
    Except FatFlowError FatFlowUpdate :=
  let c := fatFlowClass pp
  let port := fatFlowPort pp
  let stored : FatFlowVif :=
    match u.vif.vifFatFlowConfig c with
    | none => u.vif
    | some list =>
      { u.vif with
        vifFatFlowConfig := fun d =>
          if d = c then some (list.set (u.vif.vifFatFlowConfigSize c) port)
          else u.vif.vifFatFlowConfig d
        vifFatFlowConfigSize := fun d =>
          if d = c then (u.vif.vifFatFlowConfigSize c + 1) % 2 ^ 16
          else u.vif.vifFatFlowConfigSize d }
  match strikeOut port (u.old c) with
  | some struck => .ok { vif := stored, old := fun d => if d = c then struck else u.old d }
  | none =>
    match fatFlowAddPort (alloc.rows i) (alloc.bitmap i) (stored.vifFatFlowPorts c) port with
    | .error e => .error e
    | .ok rows =>
      .ok { u with
        vif := { stored with
          vifFatFlowPorts := fun d => if d = c then rows else stored.vifFatFlowPorts d } }

/-- The loop of `vif_fat_flow_add` that adds ports. -/
def fatFlowAddLoop (alloc : FatFlowAlloc) :
    (i : Nat) → List Nat → FatFlowUpdate → Except FatFlowError FatFlowUpdate
  | _, [], u => .ok u
  | i, pp :: req, u =>
    match fatFlowAddOne alloc i u pp with
    | .error e => .error e
    | .ok u => fatFlowAddLoop alloc (i + 1) req u

/-- The loop of `vif_fat_flow_add` that deletes what is left of the old list of one class. -/
def fatFlowDeleteLoop (deferBitmap deferRows : Nat → Bool) :
    (j : Nat) → List Nat → FatFlowRows → FatFlowRows
  | _, [], rows => rows
  | j, port :: old, rows =>
    fatFlowDeleteLoop deferBitmap deferRows (j + 1) old
      (if port ≠ 0 then fatFlowDeletePort (deferBitmap j) (deferRows j) rows port else rows)

/-- The lists of a request cannot be allocated. -/
def fatFlowNoMemory (alloc : FatFlowAlloc) (size : FatFlowProto → Nat) : Bool :=
  [.noproto, .tcp, .udp, .sctp].any fun c => size c ≠ 0 && !alloc.config c

/-- The interface with new lists of the size counted and a copy of its old ones. The sizes are
reset, and serve as indices into the new lists. -/
def fatFlowStart (req : List Nat) (vif : FatFlowVif) : FatFlowUpdate where
  vif :=
    { vif with
      vifFatFlowConfig := fun c =>
        if fatFlowCount req c = 0 then none else some (List.replicate (fatFlowCount req c) 0)
      vifFatFlowConfigSize := fun _ => 0 }
  old c := ((vif.vifFatFlowConfig c).getD []).take (vif.vifFatFlowConfigSize c)

/-- The interface once what is left of the old lists is deleted. -/
def fatFlowFinish (alloc : FatFlowAlloc) (u : FatFlowUpdate) : FatFlowVif :=
  { u.vif with
    vifFatFlowPorts := fun c =>
      fatFlowDeleteLoop (alloc.deferBitmap c) (alloc.deferRows c) 0 (u.old c)
        (u.vif.vifFatFlowPorts c) }

/-- `vif_fat_flow_add`, for a request with the elements `req`. -/
def vifFatFlowAdd (alloc : FatFlowAlloc) (req : List Nat) (vif : FatFlowVif) :
    Except FatFlowError FatFlowVif :=
  if req = [] ∧ ∀ c ∈ [FatFlowProto.noproto, .tcp, .udp, .sctp], vif.vifFatFlowConfigSize c = 0 then
    .ok vif
  else if fatFlowNoMemory alloc (fatFlowCount req) then .error (.errno .ENOMEM)
  else (fatFlowAddLoop alloc 0 req (fatFlowStart req vif)).map (fatFlowFinish alloc)

/-! ## Looking ports up -/

/-- `fat_flow_port_mask_t`. -/
inductive FatFlowPortMask where
  | none | source | destination | all
  deriving DecidableEq, Repr

/-- `vif_fat_flow_lookup`, on ports in host byte order. -/
def vifFatFlowLookup (vif : FatFlowVif) (proto sport dport : Nat) : FatFlowPortMask :=
  let protoIndex := vifFatFlowGetProtoIndex proto
  match vif.vifFatFlowConfig protoIndex with
  | .none => .none
  | .some _ =>
    let hSport := if protoIndex = .noproto then proto else sport
    let hDport := if protoIndex = .noproto then proto else dport
    let sportSet := vifFatFlowPortIsSet vif protoIndex hSport
    let dportSet := vifFatFlowPortIsSet vif protoIndex hDport
    if sportSet && dportSet then
      if protoIndex = .noproto then .all
      else if hDport ≤ hSport then .source
      else .destination
    else if sportSet then .destination
    else if dportSet then .source
    else .none

end VRouter
