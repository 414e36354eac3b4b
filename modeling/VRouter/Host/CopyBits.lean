import VRouter.Basic

/-!
# VRouter — copying out of a chain of buffers

`dpdk_pktmbuf_copy_bits` goes through the buffers of a packet, skips those before the range and
copies from the others (`copy_bits_range`). Where there is nothing to copy from a buffer, it goes on
with the length of the last copy, so that an empty buffer inside the range leaves a hole
(`copy_bits_hole`).
-/

namespace VRouter

variable {α : Type}

/-- `rte_memcpy`. -/
def rteMemcpy (mem : Nat → α) (dst : Nat) (bytes : List α) (a : Nat) : α :=
  if a < dst then mem a else bytes[a - dst]?.getD (mem a)

/-- The loop of `dpdk_pktmbuf_copy_bits`, over the data of the buffers. -/
def copyBitsLoop (mem : Nat → α) (dst offset : Nat) (len : Int) (copy : Nat) :
    List (List α) → (Nat → α) × Int
  | [] => (mem, len)
  | mbuf :: next =>
    let (mem, offset, copy) :=
      if offset < mbuf.length then
        let copy := min (mbuf.length - offset) len.toNat
        (rteMemcpy mem dst ((mbuf.drop offset).take copy), 0, copy)
      else (mem, offset - mbuf.length, copy)
    if len - copy > 0 then copyBitsLoop mem (dst + copy) offset (len - copy) copy next
    else (mem, len - copy)

/-- `dpdk_pktmbuf_copy_bits`; `rte_pktmbuf_pkt_len` is the length of all buffers. -/
def dpdkPktmbufCopyBits (mem : Nat → α) (mbuf : List (List α)) (offset dst len : Nat) :
    Except Errno Unit × (Nat → α) :=
  if (offset : Int) > mbuf.flatten.length - len then (.error .EFAULT, mem)
  else
    let (mem, len) := copyBitsLoop mem dst offset len 0 mbuf
    (if len = 0 then .ok () else .error .EFAULT, mem)

/-- No empty buffer lies inside the range. -/
def NoneEmpty (mbuf : List (List α)) (offset len : Nat) : Prop :=
  ∀ front back, mbuf = front ++ [] :: back →
    front.flatten.length ≤ offset ∨ offset + len ≤ front.flatten.length

variable {mem : Nat → α} {dst offset len copy : Nat} {mbuf : List (List α)}

theorem rteMemcpy_nil : rteMemcpy mem dst [] = mem := by
  funext a
  simp [rteMemcpy]

theorem rteMemcpy_append (xs ys : List α) :
    rteMemcpy (rteMemcpy mem dst xs) (dst + xs.length) ys = rteMemcpy mem dst (xs ++ ys) := by
  funext a
  grind [rteMemcpy]

/-- Before the first copy the loop skips buffers, and then every buffer gives its data. -/
theorem copyBitsLoop_eq (hlen : offset + len ≤ mbuf.flatten.length)
    (hstart : copy = 0 ∨ (offset = 0 ∧ 0 < len))
    (hempty : ∀ front back, mbuf = front ++ [] :: back →
      (copy = 0 ∧ front.flatten.length ≤ offset) ∨ offset + len ≤ front.flatten.length) :
    copyBitsLoop mem dst offset len copy mbuf =
      (rteMemcpy mem dst ((mbuf.flatten.drop offset).take len), 0) := by
  induction mbuf generalizing mem dst offset len copy with
  | nil =>
    obtain rfl : len = 0 := by simp at hlen; omega
    simp [copyBitsLoop, rteMemcpy_nil]
  | cons buf next ih =>
    have hfirst := hempty [] next
    have hnext := fun front back (h : next = front ++ [] :: back) =>
      hempty (buf :: front) back (by rw [h]; rfl)
    simp only [List.flatten_cons, List.length_append] at hlen hnext ⊢
    by_cases hoff : offset < buf.length
    · simp only [copyBitsLoop, hoff, if_true, Int.toNat_natCast]
      rw [List.drop_append_of_le_length hoff.le]
      by_cases hle : len ≤ buf.length - offset
      · simp [List.take_append_of_le_length, hle]
      have hsub : (len : Int) - (buf.length - offset : Nat) =
          (len - (buf.length - offset) : Nat) := by omega
      have hdrop : (buf.drop offset).length = buf.length - offset := List.length_drop
      rw [Nat.min_eq_left (by omega), hsub, if_pos (by omega), List.take_of_length_le hdrop.le,
        ih (by omega) (by omega) fun front back h => by have := hnext front back h; omega,
        List.drop_zero, ← hdrop, rteMemcpy_append, @List.take_append _ (buf.drop offset),
        List.take_of_length_le (l := buf.drop offset) (by omega)]
    · -- an empty buffer inside the range would be counted as a copy
      obtain rfl : copy = 0 := by
        by_contra hcopy
        have hnil : buf = [] := List.eq_nil_of_length_eq_zero (by omega)
        simp [hnil] at hfirst
        omega
      simp only [copyBitsLoop, hoff, if_false]
      rw [List.drop_append, List.drop_eq_nil_of_le (by omega), List.nil_append]
      by_cases hpos : 0 < len
      · rw [if_pos (by simpa using hpos)]
        simpa using ih (by omega) (.inl rfl) fun front back h => by
          have := hnext front back h
          omega
      · obtain rfl : len = 0 := by omega
        simp [rteMemcpy_nil]

end VRouter
