import Mathlib.Data.List.GetD
import Mathlib.Data.Nat.Bitwise
import Mathlib.Tactic

/-!
# Longest-prefix match over octet strings

The general notion a routing table implements, free of any table layout: prefixes of octet
strings compared bit by bit, most significant bit first, and the longest member of a set of
routes that contains a given string.

* `Covers p n a` — the strings `p` and `a` agree on their first `n` bits;
* `covers_octets`, `covers_split_octet` — the two octet-level readings of `Covers`: agreement on
  whole octets, and agreement on whole octets plus the top bits of one more;
* `IsLongest R d a o` — `o` is the longest route of `R` of length at most `d` containing `a`
  (`none` when there is no such route). The depth bound `d` is what makes the notion usable at
  the inner nodes of a tree;
* `IsLongest.add_*` / `IsLongest.remove_*` — how the longest match moves when one route is
  added or removed.
-/

namespace LongestMatch

abbrev Octet := Fin 256

-- constants, so that numerals and tests of `Octet` are the same terms in every module
instance octetNeZero : NeZero 256 := ⟨by decide⟩
instance octetLawfulBEq : LawfulBEq Octet := inferInstance

/-- Octet `j` of a string, zero past its end. -/
def octet (a : List Octet) (j : Nat) : Octet := a.getD j 0

/-- Bit `k` of a string, counted from the most significant bit of octet `0`. -/
def bit (a : List Octet) (k : Nat) : Bool := (octet a (k / 8)).val.testBit (7 - k % 8)

/-- `p` and `a` agree on their first `n` bits: the prefix `p/n` contains `a`. -/
def Covers (p : List Octet) (n : Nat) (a : List Octet) : Prop :=
  ∀ k, k < n → bit a k = bit p k

instance (p : List Octet) (n : Nat) (a : List Octet) : Decidable (Covers p n a) :=
  inferInstanceAs (Decidable (∀ k, k < n → bit a k = bit p k))

/-- All bits from bit `n` on are zero. -/
def HostBitsZero (p : List Octet) (n : Nat) : Prop := ∀ k, n ≤ k → bit p k = false

variable {p : List Octet} {j : Nat}

theorem octet_of_length_le (h : p.length ≤ j) : octet p j = 0 := by
  rw [octet, List.getD_eq_getElem?_getD, List.getElem?_eq_none h, Option.getD_none]

theorem bit_of_length_le {k : Nat} (hk : 8 * p.length ≤ k) : bit p k = false := by
  simp [bit, octet_of_length_le (show p.length ≤ k / 8 by omega)]

instance (p : List Octet) (n : Nat) : Decidable (HostBitsZero p n) :=
  decidable_of_iff (∀ k, k < 8 * p.length → n ≤ k → bit p k = false)
    ⟨fun h k hk => (Nat.lt_or_ge k (8 * p.length)).elim (fun hlt => h k hlt hk) bit_of_length_le,
      fun h k _ hk => h k hk⟩

/-! ## `Covers` as agreement on the first bits -/

theorem Covers.refl (p : List Octet) (n : Nat) : Covers p n p := fun _ _ => rfl

variable {n : Nat} {a : List Octet}

theorem Covers.symm (h : Covers p n a) : Covers a n p :=
  fun k hk => (h k hk).symm

variable {b : List Octet}

theorem Covers.trans (h₁ : Covers p n a) (h₂ : Covers a n b) : Covers p n b :=
  fun k hk => (h₂ k hk).trans (h₁ k hk)

variable {m : Nat}

theorem Covers.mono (h : Covers p n a) (hm : m ≤ n) : Covers p m a :=
  fun k hk => h k (lt_of_lt_of_le hk hm)

/-- Strings that agree on `n` bits are contained in the same prefixes of length at most `n`. -/
theorem Covers.congr (h : Covers a n b) (hm : m ≤ n) : Covers p m a ↔ Covers p m b :=
  ⟨fun hp => hp.trans (h.mono hm), fun hp => hp.trans (h.mono hm).symm⟩

theorem covers_zero (p a : List Octet) : Covers p 0 a := fun _ hk => absurd hk (Nat.not_lt_zero _)

/-! ## Reading `Covers` octet by octet -/

/-- Two octets whose bits agree from position `s` up agree after shifting `s` bits out. -/
theorem octet_div_eq_iff (x y : Octet) (s : Nat) :
    x.val / 2 ^ s = y.val / 2 ^ s ↔ ∀ j, s ≤ j → j < 8 → x.val.testBit j = y.val.testBit j := by
  rw [← Nat.shiftRight_eq_div_pow, ← Nat.shiftRight_eq_div_pow]
  constructor
  · intro h j hj _
    have := congrArg (fun z => Nat.testBit z (j - s)) h
    simpa [Nat.testBit_shiftRight, Nat.add_sub_cancel' hj] using this
  intro h
  apply Nat.eq_of_testBit_eq
  intro j
  rw [Nat.testBit_shiftRight, Nat.testBit_shiftRight]
  by_cases hj : s + j < 8
  · exact h (s + j) (Nat.le_add_right _ _) hj
  · -- past the eighth bit both octets are zero
    have hpow : 2 ^ 8 ≤ 2 ^ (s + j) := Nat.pow_le_pow_right (by decide) (by omega)
    rw [Nat.testBit_lt_two_pow (lt_of_lt_of_le x.isLt hpow),
      Nat.testBit_lt_two_pow (lt_of_lt_of_le y.isLt hpow)]

theorem bit_octet (a : List Octet) (j i : Nat) (hi : i < 8) :
    bit a (8 * j + i) = (octet a j).val.testBit (7 - i) := by
  unfold bit
  rw [show (8 * j + i) / 8 = j from by omega, show (8 * j + i) % 8 = i from by omega]

theorem octet_set (p : List Octet) (i j : Nat) (x : Octet) :
    octet (p.set i x) j = if j = i ∧ j < p.length then x else octet p j := by
  unfold octet
  by_cases hij : i = j
  · subst hij
    by_cases hlt : i < p.length <;> simp [hlt]
  · simp [hij, show j ≠ i from fun h => hij h.symm]

variable {p' : List Octet}

theorem octet_ext (h : ∀ k, bit p k = bit p' k) (j : Nat) : octet p j = octet p' j := by
  apply Fin.ext
  apply Nat.eq_of_testBit_eq
  intro i
  by_cases hi : i < 8
  · have := h (8 * j + (7 - i))
    rw [bit_octet p j _ (by omega), bit_octet p' j _ (by omega)] at this
    rwa [show 7 - (7 - i) = i from by omega] at this
  · have hpow : 2 ^ 8 ≤ 2 ^ i := Nat.pow_le_pow_right (by decide) (by omega)
    rw [Nat.testBit_lt_two_pow (lt_of_lt_of_le (octet p j).isLt hpow),
      Nat.testBit_lt_two_pow (lt_of_lt_of_le (octet p' j).isLt hpow)]

theorem list_ext_of_bits (hlen : p.length = p'.length) (h : ∀ k, bit p k = bit p' k) : p = p' := by
  apply List.ext_getElem hlen
  intro j hj hj'
  have := octet_ext h j
  rwa [octet, octet, List.getD_eq_getElem _ _ hj, List.getD_eq_getElem _ _ hj'] at this

/-- Agreement on `l` octets and the top `r ≤ 8` bits of the next one. -/
theorem covers_split_octet (p a : List Octet) (l r : Nat) (hr : r ≤ 8) :
    Covers p (8 * l + r) a ↔
      Covers p (8 * l) a ∧
        (octet a l).val / 2 ^ (8 - r) = (octet p l).val / 2 ^ (8 - r) := by
  rw [octet_div_eq_iff]
  constructor
  · intro h
    refine ⟨h.mono (Nat.le_add_right _ _), fun j hj hj8 => ?_⟩
    have := h (8 * l + (7 - j)) (by omega)
    rw [bit_octet a l (7 - j) (by omega), bit_octet p l (7 - j) (by omega)] at this
    rwa [show 7 - (7 - j) = j from by omega] at this
  rintro ⟨hl, hr'⟩ k hk
  by_cases hkl : k < 8 * l
  · exact hl k hkl
  · obtain ⟨i, rfl⟩ := Nat.exists_eq_add_of_le (Nat.le_of_not_lt hkl)
    rw [bit_octet a l i (by omega), bit_octet p l i (by omega)]
    exact hr' (7 - i) (by omega) (by omega)

theorem covers_octets_succ (p a : List Octet) (l : Nat) :
    Covers p (8 * (l + 1)) a ↔ Covers p (8 * l) a ∧ octet a l = octet p l := by
  rw [show 8 * (l + 1) = 8 * l + 8 from by omega, covers_split_octet p a l 8 (le_refl _)]
  simp [Fin.ext_iff]

theorem covers_octets (p a : List Octet) (l : Nat) :
    Covers p (8 * l) a ↔ ∀ j, j < l → octet a j = octet p j := by
  induction l with
  | zero => simp [covers_zero]
  | succ l ih =>
    rw [covers_octets_succ, ih]
    constructor
    · rintro ⟨hlt, hl⟩ j hj
      rcases Nat.lt_succ_iff_lt_or_eq.mp hj with h | rfl
      · exact hlt j h
      · exact hl
    · intro h
      exact ⟨fun j hj => h j (by omega), h l (Nat.lt_succ_self l)⟩

variable {l : Nat}

/-- With its host bits zero, a prefix that ends inside octet `l` has that octet aligned to the
number of octet values it covers. -/
theorem HostBitsZero.octet_mod {r : Nat} (hr : r ≤ 8) (h : HostBitsZero p (8 * l + r)) :
    (octet p l).val % 2 ^ (8 - r) = 0 := by
  apply Nat.eq_of_testBit_eq
  intro j
  by_cases hj : j < 8 - r
  · have := h (8 * l + (7 - j)) (by omega)
    rw [bit_octet p l (7 - j) (by omega), show 7 - (7 - j) = j from by omega] at this
    simp [this]
  · simp [hj]

theorem HostBitsZero.octet_eq_zero (hn : n ≤ 8 * l) (h : HostBitsZero p n) : octet p l = 0 := by
  have hz : HostBitsZero p (8 * l + 0) := fun k hk => h k (by omega)
  have hmod : (octet p l).val % 256 = 0 := hz.octet_mod (Nat.zero_le 8)
  rw [Nat.mod_eq_of_lt (octet p l).isLt] at hmod
  exact Fin.ext hmod

/-- The octets of a prefix with its host bits zero are aligned to what it leaves open of them. -/
theorem HostBitsZero.octet_aligned (hz : HostBitsZero p n) (l : Nat) :
    (octet p l).val % 2 ^ (8 - (min n (8 * (l + 1)) - 8 * l)) = 0 := by
  rcases Nat.le_total n (8 * l) with hle | hge
  · rw [hz.octet_eq_zero hle]
    exact Nat.zero_mod _
  rcases Nat.le_total n (8 * (l + 1)) with hle' | hge'
  · obtain ⟨r, rfl⟩ := Nat.exists_eq_add_of_le hge
    rw [min_eq_left hle', Nat.add_sub_cancel_left]
    exact hz.octet_mod (by omega)
  · rw [min_eq_right hge', show 8 - (8 * (l + 1) - 8 * l) = 0 from by omega]
    exact Nat.mod_one _

/-- The octet values an aligned prefix covers inside one octet form an interval that starts at
the prefix's own octet. -/
theorem octet_interval (x p : Octet) (s : Nat) (hp : p.val % 2 ^ s = 0) :
    x.val / 2 ^ s = p.val / 2 ^ s ↔ p.val ≤ x.val ∧ x.val < p.val + 2 ^ s := by
  have hs : 0 < 2 ^ s := Nat.two_pow_pos s
  have hpd := Nat.div_add_mod p.val (2 ^ s)
  rw [hp, Nat.add_zero] at hpd
  constructor
  · intro h
    have hx := Nat.div_add_mod x.val (2 ^ s)
    rw [h] at hx
    omega
  rintro ⟨hle, hlt⟩
  apply le_antisymm
  · apply Nat.lt_succ_iff.mp
    rw [Nat.div_lt_iff_lt_mul hs, Nat.succ_mul, Nat.mul_comm, hpd]
    exact hlt
  · exact Nat.div_le_div_right hle

/-! ## Extending a string by one octet -/

theorem octet_append_lt (q : List Octet) (i : Octet) (hj : j < q.length) :
    octet (q ++ [i]) j = octet q j := by
  unfold octet
  rw [List.getD_eq_getElem?_getD, List.getD_eq_getElem?_getD, List.getElem?_append_left hj]

theorem octet_append_self (q : List Octet) (i : Octet) : octet (q ++ [i]) q.length = i := by
  unfold octet
  simp [List.getD_eq_getElem?_getD]

theorem covers_append (q : List Octet) (i : Octet) : Covers q (8 * q.length) (q ++ [i]) := by
  rw [covers_octets]
  intro j hj
  exact octet_append_lt q i hj

theorem covers_append_iff (q : List Octet) (i : Octet) (a : List Octet) :
    Covers (q ++ [i]) (8 * (q.length + 1)) a ↔
      Covers q (8 * q.length) a ∧ octet a q.length = i := by
  rw [covers_octets_succ, octet_append_self]
  exact and_congr_left fun _ =>
    ⟨fun h => (covers_append q i).trans h, fun h => (covers_append q i).symm.trans h⟩

/-- Whether a prefix contains a string of `l + 1` octets is settled by its first `l` octets and
the leading bits of the last one. -/
theorem covers_append_split (p s : List Octet) (i : Octet) (hn : n ≤ 8 * (s.length + 1)) :
    Covers p n (s ++ [i]) ↔ Covers p (min n (8 * s.length)) s ∧
      i.val / 2 ^ (8 - (n - 8 * s.length)) =
        (octet p s.length).val / 2 ^ (8 - (n - 8 * s.length)) := by
  rcases Nat.le_total n (8 * s.length) with hle | hge
  · rw [min_eq_left hle, ← (covers_append s i).congr hle, show n - 8 * s.length = 0 from by omega]
    have hzero : ∀ x : Octet, x.val / 2 ^ (8 - 0) = 0 := fun x => Nat.div_eq_of_lt x.isLt
    rw [hzero, hzero]
    exact (and_iff_left rfl).symm
  · obtain ⟨r, rfl⟩ := Nat.exists_eq_add_of_le hge
    rw [min_eq_right hge, covers_split_octet p _ s.length r (by omega), octet_append_self,
      ← (covers_append s i).congr (le_refl _), Nat.add_sub_cancel_left]

/-! ## Routes and the longest match -/

/-- A prefix with the value it carries. -/
structure Route (V : Type) where
  octets : List Octet
  len : Nat
  val : V

variable {V : Type}

namespace Route

/-- The route's prefix contains `a`. -/
def Covers (r : Route V) (a : List Octet) : Prop := LongestMatch.Covers r.octets r.len a

/-- The route is for the prefix `p/n`. -/
def IsFor (r : Route V) (p : List Octet) (n : Nat) : Prop :=
  r.len = n ∧ LongestMatch.Covers p n r.octets

theorem IsFor.covers {r : Route V} (h : r.IsFor p n) (ha : LongestMatch.Covers p n a) :
    r.Covers a := by
  rw [Route.Covers, h.1]
  exact h.2.symm.trans ha

end Route

/-- No two members of the set are for the same prefix. -/
def Functional (R : Set (Route V)) : Prop :=
  ∀ r ∈ R, ∀ s ∈ R, s.IsFor r.octets r.len → s = r

/-- Length of a match; a missing match counts as length zero. -/
def matchLen : Option (Route V) → Nat
  | some r => r.len
  | none => 0

@[simp] theorem matchLen_some (r : Route V) : matchLen (some r) = r.len := rfl

@[simp] theorem matchLen_none : matchLen (none : Option (Route V)) = 0 := rfl

/-- `o` is the longest route of `R`, among those of length at most `d`, that contains `a`. -/
def IsLongest (R : Set (Route V)) (d : Nat) (a : List Octet) : Option (Route V) → Prop
  | some r => (r ∈ R ∧ r.len ≤ d ∧ r.Covers a) ∧
      ∀ s ∈ R, s.len ≤ d → s.Covers a → s.len ≤ r.len
  | none => ∀ s ∈ R, s.len ≤ d → ¬ s.Covers a

/-- `R` with the route `r`, which replaces any route for the same prefix. -/
def addRoute (R : Set (Route V)) (r : Route V) : Set (Route V) :=
  {s | s = r ∨ (s ∈ R ∧ ¬ s.IsFor r.octets r.len)}

/-- `R` without the route for `p/n`. -/
def removeRoute (R : Set (Route V)) (p : List Octet) (n : Nat) : Set (Route V) :=
  {s | s ∈ R ∧ ¬ s.IsFor p n}

theorem Functional.empty : Functional (∅ : Set (Route V)) := fun r hr => absurd hr (by simp)

theorem Functional.add {R : Set (Route V)} (h : Functional R) (r : Route V) :
    Functional (addRoute R r) := by
  rintro s (rfl | ⟨hs, hsr⟩) t (rfl | ⟨ht, htr⟩) hst
  · rfl
  · exact absurd hst htr
  · -- `t` is the new route and `s` an old one for the same prefix
    exact absurd ⟨hst.1.symm, by rw [hst.1]; exact hst.2.symm⟩ hsr
  · exact h s hs t ht hst

theorem Functional.remove {R : Set (Route V)} (h : Functional R) (p : List Octet) (n : Nat) :
    Functional (removeRoute R p n) :=
  fun r hr s hs hsr => h r hr.1 s hs.1 hsr

/-! ## Moving the longest match -/

section Longest

variable {R : Set (Route V)} {d : Nat} {o : Option (Route V)} {r : Route V}

variable (h : IsLongest R d a o)
include h

theorem IsLongest.len_le (hr : r ∈ R) (hd : r.len ≤ d) (ha : r.Covers a) : r.len ≤ matchLen o := by
  cases o with
  | none => exact absurd ha (h r hr hd)
  | some s => exact h.2 r hr hd ha

theorem IsLongest.matchLen_le : matchLen o ≤ d := by
  cases o with
  | none => exact Nat.zero_le d
  | some s => exact h.1.2.1

variable {o' : Option (Route V)}

theorem IsLongest.matchLen_eq (h' : IsLongest R d a o') : matchLen o = matchLen o' := by
  have hle : ∀ {o o' : Option (Route V)}, IsLongest R d a o → IsLongest R d a o' →
      matchLen o ≤ matchLen o' := by
    intro o o' h h'
    cases o with
    | none => exact Nat.zero_le _
    | some s => exact h'.len_le h.1.1 h.1.2.1 h.1.2.2
  exact le_antisymm (hle h h') (hle h' h)

theorem IsLongest.congr (hab : LongestMatch.Covers a d b) : IsLongest R d b o := by
  have hiff : ∀ s : Route V, s.len ≤ d → (s.Covers a ↔ s.Covers b) := fun s hs => hab.congr hs
  cases o with
  | none => exact fun s hs hd hb => h s hs hd ((hiff s hd).mpr hb)
  | some r =>
    exact ⟨⟨h.1.1, h.1.2.1, (hiff r h.1.2.1).mp h.1.2.2⟩,
      fun s hs hd hb => h.2 s hs hd ((hiff s hd).mpr hb)⟩

/-- A deeper bound changes nothing when no longer route contains the string. -/
theorem IsLongest.deepen {D : Nat} (hD : d ≤ D)
    (hno : ∀ s ∈ R, d < s.len → s.len ≤ D → ¬ s.Covers a) : IsLongest R D a o := by
  cases o with
  | none =>
    intro s hs hsD ha
    rcases Nat.lt_or_ge d s.len with hlt | hge
    · exact hno s hs hlt hsD ha
    · exact h s hs hge ha
  | some r =>
    refine ⟨⟨h.1.1, le_trans h.1.2.1 hD, h.1.2.2⟩, fun s hs hsD ha => ?_⟩
    rcases Nat.lt_or_ge d s.len with hlt | hge
    · exact absurd ha (hno s hs hlt hsD)
    · exact h.2 s hs hge ha

theorem IsLongest.shallow (hd : m ≤ d) (hlen : matchLen o ≤ m) : IsLongest R m a o := by
  cases o with
  | none => exact fun s hs hsd => h s hs (le_trans hsd hd)
  | some r =>
    exact ⟨⟨h.1.1, hlen, h.1.2.2⟩, fun s hs hsd => h.2 s hs (le_trans hsd hd)⟩

/-- A new route at least as long as the current match becomes the match. -/
theorem IsLongest.add_cover (hd : r.len ≤ d) (ha : r.Covers a) (hlen : matchLen o ≤ r.len) :
    IsLongest (addRoute R r) d a (some r) := by
  refine ⟨⟨Or.inl rfl, hd, ha⟩, ?_⟩
  rintro s (rfl | ⟨hs, -⟩) hsd hsa
  · exact le_refl _
  · exact le_trans (h.len_le hs hsd hsa) hlen

/-- A new route that does not contain the string, lies beyond the depth, or is shorter than the
current match leaves the match alone. -/
theorem IsLongest.add_other (hno : r.len ≤ d → r.Covers a → r.len < matchLen o) :
    IsLongest (addRoute R r) d a o := by
  cases o with
  | none =>
    rintro s (rfl | ⟨hs, -⟩) hsd hsa
    · exact absurd (hno hsd hsa) (Nat.not_lt_zero _)
    · exact h s hs hsd hsa
  | some t =>
    refine ⟨⟨Or.inr ⟨h.1.1, fun hfor => ?_⟩, h.1.2⟩, ?_⟩
    · -- the old match cannot be for the new prefix: it would be covered and equally long
      have hta : r.Covers a := by
        have hra : LongestMatch.Covers r.octets r.len t.octets := hfor.2
        have hta := h.1.2.2
        rw [Route.Covers, hfor.1] at hta
        exact hra.trans hta
      exact absurd (hno (hfor.1 ▸ h.1.2.1) hta) (by simp [hfor.1])
    · rintro s (rfl | ⟨hs, -⟩) hsd hsa
      · exact le_of_lt (hno hsd hsa)
      · exact h.2 s hs hsd hsa

theorem IsLongest.remove_other (hno : ∀ t, o = some t → ¬ t.IsFor p n) :
    IsLongest (removeRoute R p n) d a o := by
  cases o with
  | none => exact fun s hs => h s hs.1
  | some t => exact ⟨⟨⟨h.1.1, hno t rfl⟩, h.1.2⟩, fun s hs => h.2 s hs.1⟩

/-- Removing the match itself: what remains is the longest remaining route that contains the
whole removed prefix. -/
theorem IsLongest.remove_hit (hlen : matchLen o = n) (hd : n ≤ d) (ha : LongestMatch.Covers p n a)
    (h' : IsLongest (removeRoute R p n) n p o') : IsLongest (removeRoute R p n) d a o' := by
  have hle : ∀ s ∈ removeRoute R p n, s.len ≤ d → s.Covers a → s.len ≤ n := by
    intro s hs hsd hsa
    exact hlen ▸ h.len_le hs.1 hsd hsa
  have h'' := h'.congr ha
  cases o' with
  | none => exact fun s hs hsd hsa => h'' s hs (hle s hs hsd hsa) hsa
  | some t =>
    exact ⟨⟨h''.1.1, le_trans h''.1.2.1 hd, h''.1.2.2⟩,
      fun s hs hsd hsa => h''.2 s hs (hle s hs hsd hsa) hsa⟩

end Longest

end LongestMatch
