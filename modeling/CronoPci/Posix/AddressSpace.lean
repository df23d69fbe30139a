import Mathlib.Data.List.Pairwise
import Mathlib.Order.Interval.Finset.Nat
import Mathlib.Tactic.ByContra

/-!
# The memory of a process: regions, pages and bytes

`mmap` takes the kernel's choice of address as an argument: a region is mapped
only at a non-zero address, with a non-zero length, and where it overlaps no
region mapped already. `munmap` is called with the address and length of one
mapping and removes it.

Memory comes in pages of `ps` bytes, page `k` being `[k * ps, (k + 1) * ps)`. A
plain little-endian memory holds at each address the byte of the latest write
that covers it, and the initial byte where no write does.
-/

namespace Posix

/-! ## Regions -/

/-- A mapped region `[start, start + len)` and what is mapped there. -/
structure Mapping (ρ : Type) where
  start : Nat
  len : Nat
  source : ρ
  deriving DecidableEq

namespace Mapping

variable {ρ : Type}

/-- Two regions without a common address. -/
def Disjoint (m m' : Mapping ρ) : Prop :=
  m.start + m.len ≤ m'.start ∨ m'.start + m'.len ≤ m.start

instance (m m' : Mapping ρ) : Decidable (m.Disjoint m') :=
  inferInstanceAs (Decidable (_ ∨ _))

/-- The bytes `[a, a + w)` lie in the region. -/
def Covers (m : Mapping ρ) (a w : Nat) : Prop :=
  m.start ≤ a ∧ a + w ≤ m.start + m.len

instance (m : Mapping ρ) (a w : Nat) : Decidable (m.Covers a w) :=
  inferInstanceAs (Decidable (_ ∧ _))

theorem Disjoint.symm {m m' : Mapping ρ} (h : m.Disjoint m') : m'.Disjoint m := Or.symm h

/-- Address and length, as `munmap` takes them. -/
def extent (m : Mapping ρ) : Nat × Nat := (m.start, m.len)

instance : Std.Symm (@Disjoint ρ) := ⟨fun _ _ => Disjoint.symm⟩

/-- Disjoint regions that are not empty start at different addresses. -/
theorem Disjoint.start_ne {m m' : Mapping ρ} (h : m.Disjoint m') (hm : 0 < m.len)
    (hm' : 0 < m'.len) : m.start ≠ m'.start := by
  unfold Disjoint at h
  omega

/-- Disjoint regions do not both cover a non-empty range. -/
theorem Disjoint.not_covers {m m' : Mapping ρ} (h : m.Disjoint m') {a w : Nat} (hw : 0 < w)
    (hm : m.Covers a w) : ¬m'.Covers a w := by
  rintro ⟨h1, h2⟩
  obtain ⟨h3, h4⟩ := hm
  unfold Disjoint at h
  omega

end Mapping

/-- The mapped regions, and the successful `munmap` calls so far (address and
length), the latest first. -/
structure AddressSpace (ρ : Type) where
  maps : List (Mapping ρ)
  unmaps : List (Nat × Nat)
  pos : ∀ m ∈ maps, 0 < m.start ∧ 0 < m.len
  disjoint : maps.Pairwise Mapping.Disjoint

namespace AddressSpace

variable {ρ : Type} {s s' : AddressSpace ρ} {m m' : Mapping ρ}

/-- `mmap` at the kernel's choice of region; `none` is `MAP_FAILED`. -/
def mmap (s : AddressSpace ρ) (m : Mapping ρ) : Option (AddressSpace ρ) :=
  if h : (0 < m.start ∧ 0 < m.len) ∧ ∀ m' ∈ s.maps, m.Disjoint m' then
    some
      { s with
        maps := m :: s.maps
        pos := by
          intro m' hm'
          rcases List.mem_cons.1 hm' with rfl | hm'
          · exact h.1
          · exact s.pos m' hm'
        disjoint := List.pairwise_cons.2 ⟨h.2, s.disjoint⟩ }
  else none

/-- A successful `munmap` of `[start, start + len)`. -/
def munmap (s : AddressSpace ρ) (start len : Nat) : AddressSpace ρ where
  maps := s.maps.filter fun m => !(m.start == start && m.len == len)
  unmaps := (start, len) :: s.unmaps
  pos m hm := s.pos m (List.mem_filter.1 hm).1
  disjoint := s.disjoint.filter _

theorem mmap_eq_some (h : s.mmap m = some s') :
    (0 < m.start ∧ 0 < m.len) ∧ (∀ m' ∈ s.maps, m.Disjoint m') ∧
      s'.maps = m :: s.maps ∧ s'.unmaps = s.unmaps := by
  unfold mmap at h
  split at h
  · next hm =>
    cases h
    exact ⟨hm.1, hm.2, rfl, rfl⟩
  · cases h

theorem mem_munmap {start len : Nat} :
    m ∈ (s.munmap start len).maps ↔ m ∈ s.maps ∧ ¬(m.start = start ∧ m.len = len) := by
  simp only [munmap, List.mem_filter, Bool.not_eq_true', Bool.and_eq_false_iff, beq_eq_false_iff_ne,
    not_and_or, ne_eq]

/-- Successful `munmap` calls on the regions of a list, one after the other. -/
def munmapAll (s : AddressSpace ρ) (ms : List (Mapping ρ)) : AddressSpace ρ :=
  ms.foldl (fun s m => s.munmap m.start m.len) s

theorem unmaps_munmapAll {ms : List (Mapping ρ)} :
    (s.munmapAll ms).unmaps = (ms.map Mapping.extent).reverse ++ s.unmaps := by
  induction ms generalizing s with
  | nil => rfl
  | cons m' ms ih =>
    rw [List.map_cons, List.reverse_cons, List.append_assoc]
    exact ih

theorem mem_munmapAll_iff {ms : List (Mapping ρ)} : m ∈ (s.munmapAll ms).maps ↔
    m ∈ s.maps ∧ ∀ m' ∈ ms, ¬(m.start = m'.start ∧ m.len = m'.len) := by
  induction ms generalizing s with
  | nil => simp [munmapAll]
  | cons m' ms ih =>
    rw [List.forall_mem_cons, ← and_assoc, ← mem_munmap]
    exact ih

/-- Two mappings that cover a common non-empty range are the same one. -/
theorem eq_of_covers (hm : m ∈ s.maps) (hm' : m' ∈ s.maps) {a w : Nat} (hw : 0 < w)
    (h : m.Covers a w) (h' : m'.Covers a w) : m = m' := by
  by_contra hne
  have hd : m.Disjoint m' := s.disjoint.forall hm hm' hne
  exact hd.not_covers hw h h'

/-- Mapped regions are told apart by their addresses. -/
theorem eq_of_start (hm : m ∈ s.maps) (hm' : m' ∈ s.maps) (h : m.start = m'.start) : m = m' := by
  by_contra hne
  have hd : m.Disjoint m' := s.disjoint.forall hm hm' hne
  exact hd.start_ne (s.pos m hm).2 (s.pos m' hm').2 h

/-- Unmapping mapped regions removes these and no others. -/
theorem mem_munmapAll {ms : List (Mapping ρ)} (hms : ∀ m ∈ ms, m ∈ s.maps) :
    m ∈ (s.munmapAll ms).maps ↔ m ∈ s.maps ∧ m ∉ ms := by
  rw [mem_munmapAll_iff]
  refine and_congr_right fun hm => ?_
  constructor
  · intro h hmem
    exact h m hmem ⟨rfl, rfl⟩
  · intro h m' hm' he
    rw [eq_of_start hm (hms m' hm') he.1] at h
    exact h hm'

end AddressSpace

/-! ## Pages that a range of addresses touches -/

/-- The numbers of the pages that bytes of `[a, a + n)` lie in. -/
def pagesTouched (ps a n : Nat) : Finset Nat := (Finset.range n).image fun i => (a + i) / ps

theorem pagesTouched_eq {ps a n : Nat} (hps : 0 < ps) (hn : 0 < n) :
    pagesTouched ps a n = Finset.Icc (a / ps) ((a + n - 1) / ps) := by
  ext k
  simp only [pagesTouched, Finset.mem_image, Finset.mem_range, Finset.mem_Icc]
  constructor
  · rintro ⟨i, hi, rfl⟩
    exact ⟨Nat.div_le_div_right (by omega), Nat.div_le_div_right (by omega)⟩
  · rintro ⟨hle, hge⟩
    have hlast : k * ps ≤ a + n - 1 := (Nat.le_div_iff_mul_le hps).1 hge
    rcases Nat.le_total (k * ps) a with hka | hka
    · have hk : k ≤ a / ps := (Nat.le_div_iff_mul_le hps).2 hka
      exact ⟨0, hn, by rw [Nat.add_zero]; omega⟩
    · refine ⟨k * ps - a, by omega, ?_⟩
      rw [Nat.add_sub_of_le hka, Nat.mul_div_cancel _ hps]

/-- Their number depends on the offset in the first page and the length. -/
theorem card_pagesTouched {ps a n : Nat} (hps : 0 < ps) (hn : 0 < n) :
    (pagesTouched ps a n).card = (a % ps + (n - 1)) / ps + 1 := by
  have hsplit : a + n - 1 = a % ps + (n - 1) + a / ps * ps := by
    have := Nat.mod_add_div' a ps
    omega
  rw [pagesTouched_eq hps hn, Nat.card_Icc, hsplit, Nat.add_mul_div_right _ _ hps]
  generalize (a % ps + (n - 1)) / ps = pages
  generalize a / ps = first
  omega

/-! ## Bytes -/

/-- A write of the `width` low bytes of `value`. -/
structure ByteWrite where
  addr : Nat
  width : Nat
  value : Nat
  deriving DecidableEq

namespace ByteWrite

def Covers (t : ByteWrite) (i : Nat) : Prop := t.addr ≤ i ∧ i < t.addr + t.width

instance (t : ByteWrite) (i : Nat) : Decidable (t.Covers i) := inferInstanceAs (Decidable (_ ∧ _))

/-- The byte that the write puts at `i`. -/
def byte (t : ByteWrite) (i : Nat) : UInt8 := UInt8.ofNat (t.value / 2 ^ (8 * (i - t.addr)))

end ByteWrite

/-- The memory after the writes of a log, the latest first. -/
def latest (init : Nat → UInt8) (log : List ByteWrite) (i : Nat) : UInt8 :=
  match log.find? fun t => decide (t.Covers i) with
  | some t => t.byte i
  | none => init i

theorem latest_cons (init : Nat → UInt8) (t : ByteWrite) (log : List ByteWrite) (i : Nat) :
    latest init (t :: log) i = if t.Covers i then t.byte i else latest init log i := by
  unfold latest
  by_cases h : t.Covers i <;> simp [h]

end Posix
