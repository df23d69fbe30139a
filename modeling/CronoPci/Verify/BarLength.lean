import CronoPci.Verify.BarNumbers

/-!
# The length of a BAR

The size of a BAR is a 64-bit number and its length in the table a 32-bit one,
which is also what is mapped and what the range checks compare with. The table
is exact when every BAR is smaller than 4 GiB. A larger one is described, mapped
and accessible modulo 4 GiB.
-/

namespace CronoPci

open Posix

/-- The number of bytes from the start to the end of a BAR. -/
def ResourceRow.size (row : ResourceRow) : Nat := row.endAddr.toNat - row.startAddr.toNat + 1

/-- The 32-bit length is the size exactly when the size fits. -/
theorem toNat_length_eq_size_iff {row : ResourceRow} (h : row.startAddr ≤ row.endAddr) :
    row.length.toNat = row.size ↔ row.size < 2 ^ 32 := by
  have hlength : row.length.toNat = row.size % 2 ^ 32 := by
    have hlt := row.endAddr.toNat_lt
    rw [ResourceRow.length, UInt64.toNat_toUInt32, UInt64.toNat_add, UInt64.toNat_sub_of_le _ _ h,
      show (1 : UInt64).toNat = 1 from rfl]
    unfold ResourceRow.size
    omega
  rw [hlength]
  omega

/-- Entry `j` describes all bytes of the BAR `r`, which are mapped, and a 32-bit
write on the entry is accepted wherever it fits. -/
structure DescribesAll (dir : List Char) (p : Addr) (w : World) (d : KernelDevice)
    (r : Fin 6 × ResourceRow) (j : Fin 6) : Prop where
  filled : (j : Nat) < d.bars.barCount
  number : (d.bars.barDescs.get j).barNum = r.1
  length : (d.bars.barDescs.get j).length.toNat = r.2.size
  mapped : ⟨(d.bars.barDescs.get j).userAddress, r.2.size, resourceFile dir r.1⟩ ∈ w.space.maps
  accepts : d.dwDeviceId ≠ 0 → ∀ (dwOffset : UInt32) (val : BitVec 32),
    dwOffset.toNat + 4 ≤ r.2.size →
      ∃ touched w', writeAddr p dwOffset val (.ofNat j) w = .ok (cronoSuccess, touched, w')

/-- The entry of a BAR smaller than 4 GiB. -/
theorem Filled.describesAll {sys : BarSys} {p : Addr} {d : KernelDevice} {w w' : World}
    {dir : List Char} {descs : List BarDesc} {bars : BarTable}
    (h : Filled sys d w dir descs bars) (hd' : w'.device? p = some { d with bars })
    (hspace : w'.space = (mapRows sys dir sys.rows w.space).2) {j : Fin 6}
    {r : Fin 6 × ResourceRow} (hr : sys.present[j.1]? = some r)
    (hsize : r.2.length.toNat = r.2.size) : DescribesAll dir p w' { d with bars } r j := by
  have hlt : (j : Nat) < bars.barCount := h.lt_of_present hr
  obtain ⟨⟨r', hr', hnum, hlen⟩, hmem⟩ := h.entry hlt
  rw [hr, Option.some.injEq] at hr'
  subst hr'
  rw [← hspace] at hmem
  have hmapping : (bars.barDescs.get j).mapping dir =
      ⟨(bars.barDescs.get j).userAddress, r.2.size, resourceFile dir r.1⟩ := by
    rw [BarDesc.mapping, hnum, hlen, hsize]
  refine ⟨hlt, hnum, by rw [hlen, hsize], hmapping ▸ hmem, ?_⟩
  intro hid dwOffset val hfits
  have hindex : (Accessor.writeAddr val (.ofNat j)).index = j := by
    simp only [Accessor.index, UInt32.toNat_ofNat']
    omega
  have hrange : ¬ExceedsRange dwOffset (Accessor.writeAddr val (.ofNat j)).checkedSize
      (bars.barDescs.get j) := by
    rw [exceedsRange_iff (Accessor.checkedSize_le _), hlen, hsize]
    simpa [Accessor.checkedSize] using hfits
  obtain ⟨w'', hcall⟩ := Accessor.call_done (c := .writeAddr val (.ofNat j)) (d := { d with bars })
    hd' hid not_false not_false hindex hrange hmem
    (Accessor.covers _ (m := (bars.barDescs.get j).mapping dir) hrange rfl rfl)
  exact ⟨_, w'', hcall⟩

/-- After a call that fills the table, every BAR has an entry that describes all
of it exactly when every BAR is smaller than 4 GiB. -/
theorem bar_length_iff {sys : BarSys} {p : Addr} {d : KernelDevice} {w w' : World}
    (hd : w.device? p = some d) (hcount : d.bars.barCount = 0)
    (hfill : fillDeviceBarDescriptions sys p w = .ok (cronoSuccess, w')) :
    ∃ dir d', DirectoryIs sys d.pciSlot dir ∧ w'.device? p = some d' ∧
      ((∀ r ∈ sys.present, r.2.startAddr ≤ r.2.endAddr → ∃ j, DescribesAll dir p w' d' r j) ↔
        ∀ r ∈ sys.present, r.2.startAddr ≤ r.2.endAddr → r.2.size < 2 ^ 32) := by
  obtain ⟨dir, descs, bars, hfilled, hd', hspace⟩ := fill_success hd hcount hfill
  refine ⟨dir, _, hfilled.directory, hd', ?_, ?_⟩
  · intro hall r hr hle
    obtain ⟨j, hj⟩ := hall r hr hle
    rw [← hj.length]
    exact UInt32.toNat_lt _
  · intro hall r hr hle
    obtain ⟨i, hi⟩ := List.mem_iff_getElem?.1 hr
    have hlt := hfilled.lt_of_present hi
    have hle6 := bars.le
    have hsize := (toNat_length_eq_size_iff hle).2 (hall r hr hle)
    obtain ⟨j, hj⟩ : ∃ j : Fin 6, sys.present[j.1]? = some r := ⟨⟨i, by omega⟩, hi⟩
    exact ⟨j, hfilled.describesAll hd' hspace hj hsize⟩

/-- The two BARs of 4096 and 256 bytes. -/
theorem bar_length_two : ∃ dir w' d', fillDeviceBarDescriptions .two 16 .oneDevice =
      .ok (cronoSuccess, w') ∧ w'.device? 16 = some d' ∧
    ∀ r ∈ BarSys.two.present, r.2.startAddr ≤ r.2.endAddr → ∃ j, DescribesAll dir 16 w' d' r j := by
  obtain ⟨w', hfill⟩ : ∃ w', fillDeviceBarDescriptions .two 16 .oneDevice =
    .ok (cronoSuccess, w') := ⟨_, rfl⟩
  obtain ⟨dir, d', -, hd', hiff⟩ := bar_length_iff rfl rfl hfill
  exact ⟨dir, w', d', hfill, hd', hiff.2 (by decide)⟩

/-- A BAR of 4 GiB and 4096 bytes. -/
def BarSys.large : BarSys := .small "100000000 200000fff 200".toList fun _ => 4096

/-- Of the large BAR 4096 bytes are mapped, and a write at 4096 is refused. -/
theorem bar_length_wraps : ∃ w', fillDeviceBarDescriptions .large 16 .oneDevice =
      .ok (cronoSuccess, w') ∧
    BarSys.large.present = [(0, ⟨0x100000000, 0x200000fff, 0x200⟩)] ∧
    ResourceRow.size ⟨0x100000000, 0x200000fff, 0x200⟩ = 2 ^ 32 + 4096 ∧
    w'.space.maps = [⟨4096, 4096, resourceFile "/sys/devices/pci0000:00".toList 0⟩] ∧
    (writeAddr 16 4096 0 0 w').map (fun r => r.1) = .ok (0 - enomem) ∧
    ∀ dir d' j, ¬DescribesAll dir 16 w' d' (0, ⟨0x100000000, 0x200000fff, 0x200⟩) j := by
  refine ⟨_, rfl, by decide, by decide, rfl, rfl, ?_⟩
  intro dir d' j h
  have hlt := UInt32.toNat_lt (d'.bars.barDescs.get j).length
  rw [h.length] at hlt
  exact absurd hlt (by decide)

end CronoPci
