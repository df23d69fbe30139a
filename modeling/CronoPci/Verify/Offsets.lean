import CronoPci.Verify.Access

/-!
# Which offsets the accessors accept

A call that nothing else stops succeeds exactly when the size that it checks fits
the entry and the bytes that it accesses are mapped (`Accessor.succeeds_iff`).
The write accessors check the size of the value and the read accessors that of
the pointer to it, so a read and the write of the same width disagree on the
last offsets of every BAR, unless the width is that of a pointer.
-/

namespace CronoPci

open Posix Trans

/-- A part of a mapped range is mapped. -/
theorem World.Mapped.sub {w : World} {a n o k : Nat} (h : w.Mapped ⟨a, n⟩) (hle : o + k ≤ n) :
    w.Mapped ⟨a + o, k⟩ := by
  intro i hi
  obtain ⟨m, hm, hcovers⟩ := h (o + i) (Nat.lt_of_lt_of_le (Nat.add_lt_add_left hi o) hle)
  rw [← Nat.add_assoc] at hcovers
  exact ⟨m, hm, hcovers⟩

namespace Accessor

/-- The call returns `CRONO_SUCCESS`. -/
def Succeeds (c : Accessor) (p : Addr) (dwOffset : UInt32) (w : World) : Prop :=
  ∃ touched w', c.call p dwOffset w = .ok (cronoSuccess, touched, w')

/-- A read into a variable and a write of the same width through the same entry. -/
inductive Siblings : Accessor → Accessor → Prop
  | addr8 (v val : BitVec 8) : Siblings (.readAddr8 (some v)) (.writeAddr8 val)
  | addr16 (v val : BitVec 16) : Siblings (.readAddr16 (some v)) (.writeAddr16 val)
  | addr32 (v val : BitVec 32) : Siblings (.readAddr32 (some v)) (.writeAddr32 val)
  | addr64 (v val : BitVec 64) : Siblings (.readAddr64 (some v)) (.writeAddr64 val)
  | addr (v val : BitVec 32) (barIndex : UInt32) :
      Siblings (.readAddr (some v) barIndex) (.writeAddr val barIndex)

/-- The read and the write accept the offset together, which is when their bytes
fit the entry. -/
def SameOffsets (r c : Accessor) (p : Addr) (dwOffset : UInt32) (desc : BarDesc) (w : World) :
    Prop :=
  (r.Succeeds p dwOffset w ↔ c.Succeeds p dwOffset w) ∧
    (c.Succeeds p dwOffset w ↔ dwOffset.toNat + c.width ≤ desc.length.toNat) ∧
      (r.Succeeds p dwOffset w ↔ dwOffset.toNat + r.width ≤ desc.length.toNat)

namespace Siblings

variable {r c : Accessor}

theorem index_eq (h : Siblings r c) : r.index = c.index := by
  cases h <;> rfl

theorem width_eq (h : Siblings r c) : r.width = c.width := by
  cases h <;> rfl

/-- Neither call has `NULL` for its value. -/
theorem not_null (h : Siblings r c) :
    ¬r.RejectsVal ∧ ¬r.StoresNull ∧ ¬c.RejectsVal ∧ ¬c.StoresNull := by
  cases h <;> simp [RejectsVal, StoresNull]

theorem checkedSize_write (h : Siblings r c) : c.checkedSize.toNat = c.width := by
  cases h <;> rfl

/-- The read checks the size of the pointer, `sizeof(val)`. -/
theorem checkedSize_read (h : Siblings r c) : r.checkedSize.toNat = 8 := by
  cases h <;> rfl

theorem width_le (h : Siblings r c) : c.width ≤ 8 := by
  rw [← h.checkedSize_write]
  exact c.checkedSize_le

end Siblings

/-- A call that nothing else stops succeeds when the size checked fits the entry
and the bytes are mapped. -/
theorem succeeds_iff (c : Accessor) {p : Addr} (dwOffset : UInt32) {d : KernelDevice} {w : World}
    {j : Fin 6} (hd : w.device? p = some d) (hid : d.dwDeviceId ≠ 0) (hval : ¬c.RejectsVal)
    (hstores : ¬c.StoresNull) (hj : c.index = j) :
    c.Succeeds p dwOffset w ↔
      dwOffset.toNat + c.checkedSize.toNat ≤ (d.bars.barDescs.get j).length.toNat ∧
        w.Mapped ⟨(d.bars.barDescs.get j).userAddress + dwOffset.toNat, c.width⟩ := by
  have hr := c.call_result dwOffset hd
  have hcheck : ExceedsRange dwOffset c.checkedSize (d.bars.barDescs.get j) ↔ _ :=
    exceedsRange_iff c.checkedSize_le
  unfold Succeeds
  generalize c.call p dwOffset w = res at hr
  cases hr with
  | invalid hid' => exact absurd hid' hid
  | noVal _ hval' => exact absurd hval' hval
  | index _ _ hidx => omega
  | @exceeds k _ _ hk hrange =>
    obtain rfl : k = j := Fin.ext (hk.symm.trans hj)
    rw [hcheck] at hrange
    refine iff_of_false ?_ fun h => by omega
    rintro ⟨touched, w', he⟩
    cases he
  | @unmapped k _ _ hk _ hmap =>
    obtain rfl : k = j := Fin.ext (hk.symm.trans hj)
    refine iff_of_false ?_ fun h => hmap h.2
    rintro ⟨touched, w', he⟩
    cases he
  | nullVal _ _ _ _ hstores' => exact absurd hstores' hstores
  | @done k mem _ _ hk hrange hmap =>
    obtain rfl : k = j := Fin.ext (hk.symm.trans hj)
    rw [hcheck] at hrange
    exact iff_of_true ⟨_, _, rfl⟩ ⟨by omega, hmap⟩

end Accessor

/-- A read and the write of the same width agree on an offset exactly when their
bytes do not fit the entry, or eight bytes fit it and theirs are mapped. -/
theorem same_offsets_iff {r c : Accessor} {p : Addr} {d : KernelDevice} {w : World} {j : Fin 6}
    (hd : w.device? p = some d) (hid : d.dwDeviceId ≠ 0) (hsib : Accessor.Siblings r c)
    (hj : c.index = j) (dwOffset : UInt32) :
    Accessor.SameOffsets r c p dwOffset (d.bars.barDescs.get j) w ↔
      ((d.bars.barDescs.get j).length.toNat < dwOffset.toNat + c.width ∨
        dwOffset.toNat + 8 ≤ (d.bars.barDescs.get j).length.toNat ∧
          w.Mapped ⟨(d.bars.barDescs.get j).userAddress + dwOffset.toNat, c.width⟩) := by
  obtain ⟨hval, hstores, hval', hstores'⟩ := hsib.not_null
  have hread := r.succeeds_iff dwOffset hd hid hval hstores (hsib.index_eq.trans hj)
  have hwrite := c.succeeds_iff dwOffset hd hid hval' hstores' hj
  have hle := hsib.width_le
  rw [hsib.checkedSize_read, hsib.width_eq] at hread
  rw [hsib.checkedSize_write] at hwrite
  unfold Accessor.SameOffsets
  rw [hread, hwrite, hsib.width_eq]
  constructor
  · rintro ⟨hsame, hfits, -⟩
    by_cases hlt : (d.bars.barDescs.get j).length.toNat < dwOffset.toNat + c.width
    · exact Or.inl hlt
    · exact Or.inr (hsame.2 (hfits.2 (Nat.le_of_not_lt hlt)))
  · rintro (hlt | ⟨height, hmap⟩)
    · refine ⟨iff_of_false ?_ ?_, iff_of_false ?_ ?_, iff_of_false ?_ ?_⟩ <;> omega
    · refine ⟨iff_of_true ⟨?_, hmap⟩ ⟨?_, hmap⟩, iff_of_true ⟨?_, hmap⟩ ?_,
        iff_of_true ⟨?_, hmap⟩ ?_⟩ <;> omega

/-- A device opened with a BAR of 4096 bytes. -/
theorem exists_bar_of_4096 : ∃ s, Session.Reachable World.boot s ∧
    ∃ d, s.world.device? 16 = some d ∧ d.dwDeviceId ≠ 0 ∧
      (d.bars.barDescs.get 0).length = 4096 ∧
        s.world.Mapped ⟨(d.bars.barDescs.get 0).userAddress, 4096⟩ := by
  obtain ⟨s, hs, hsome, hd⟩ : ∃ s, Session.Reachable World.boot s ∧
      (s.world.device? 16).isSome ∧ ∀ d ∈ s.world.device? 16, d.dwDeviceId ≠ 0 ∧
        (d.bars.barDescs.get 0).length = 4096 ∧
          ∃ m ∈ s.world.space.maps, m.Covers (d.bars.barDescs.get 0).userAddress 4096 :=
    exists_reach_of_run [.opensBar 1 16] (by decide)
  obtain ⟨d, he⟩ := Option.isSome_iff_exists.1 hsome
  obtain ⟨hid, hlen, m, hm, hcovers⟩ := hd d he
  exact ⟨s, hs, d, he, hid, hlen, World.mapped_of_covers hm hcovers⟩

/-- An access of four bytes at the last offset at which eight bytes fit the BAR. -/
theorem same_offsets_at_4088 : ∃ s, Session.Reachable World.boot s ∧
    ∃ d, s.world.device? 16 = some d ∧ Accessor.SameOffsets (.readAddr32 (some 0))
      (.writeAddr32 7) 16 4088 (d.bars.barDescs.get 0) s.world := by
  obtain ⟨s, hs, d, hd, hid, hlen, hmap⟩ := exists_bar_of_4096
  refine ⟨s, hs, d, hd, (same_offsets_iff hd hid (.addr32 0 7) rfl 4088).2 (Or.inr ⟨?_, ?_⟩)⟩
  · rw [hlen]
    decide
  · exact hmap.sub (o := 4088) (k := 4) (by decide)

/-- The last four bytes of a BAR of 4096 bytes can be written and not read. -/
theorem last_word_not_read : ∃ s, Session.Reachable World.boot s ∧
    ∃ d, s.world.device? 16 = some d ∧ (d.bars.barDescs.get 0).length = 4096 ∧
      (Accessor.writeAddr32 7).Succeeds 16 4092 s.world ∧
        ¬(Accessor.readAddr32 (some 0)).Succeeds 16 4092 s.world := by
  obtain ⟨s, hs, d, hd, hid, hlen, hmap⟩ := exists_bar_of_4096
  have hwrite := (Accessor.writeAddr32 7).succeeds_iff 4092 (j := 0) hd hid not_false not_false rfl
  have hread := (Accessor.readAddr32 (some 0)).succeeds_iff 4092 (j := 0) hd hid
    (by simp [Accessor.RejectsVal]) not_false rfl
  rw [hlen] at hwrite hread
  refine ⟨s, hs, d, hd, hlen, hwrite.2 ⟨by decide, ?_⟩, ?_⟩
  · exact hmap.sub (o := 4092) (k := 4) (by decide)
  · intro h
    exact absurd (hread.1 h).1 (by decide)

end CronoPci
