import CronoPci.Verify.Access

/-!
# BAR numbers and table positions

The table of BARs has no gaps, so the entry at a position is the BAR of that
number only where every BAR below exists. The accessors of BAR 0 use the first
entry, and `CRONO_KERNEL_ReadAddr` and `CRONO_KERNEL_WriteAddr` the entry at the
index given, whatever its number.
-/

namespace CronoPci

open Posix Trans

/-- The lines of the BARs that exist, in order. -/
def BarSys.present (sys : BarSys) : List (Fin 6 × ResourceRow) :=
  sys.rows.filter fun r => ¬r.2.Absent

/-- No BAR comes after a missing one, but for BARs of less than four bytes,
which the accessors by index cannot reach. -/
def BarSys.Aligned (sys : BarSys) : Prop :=
  ∀ j : Fin 6, ∀ r ∈ sys.present[j.1]?, r.1 = j ∨ 0 < j.1 ∧ r.2.length.toNat < 4

instance (sys : BarSys) : Decidable sys.Aligned :=
  inferInstanceAs (Decidable (∀ j : Fin 6, ∀ r ∈ sys.present[j.1]?,
    r.1 = j ∨ 0 < j.1 ∧ r.2.length.toNat < 4))

/-- The bytes lie in a region of BAR number `n` of the device in `dir`. -/
def InBar (dir : List Char) (n : Nat) (w : World) (t : Touch) : Prop :=
  ∃ m ∈ w.space.maps, m.source = resourceFile dir n ∧ m.Covers t.addr t.width

/-- A call for BAR number `n`, which is 0 for the accessors of the first entry
and the index given for the others, touches only BAR `n`, and fails where there
is none. -/
def BarIdentity (sys : BarSys) (dir : List Char) (p : Addr) (w : World) : Prop :=
  ∀ (c : Accessor) (dwOffset : UInt32) (ret : Code) (touched : List Touch) (w' : World),
    c.index < 6 → c.call p dwOffset w = .ok (ret, touched, w') →
      (∀ t ∈ touched, InBar dir c.index w t) ∧
        ((∀ r ∈ sys.present, (r.1 : Nat) ≠ c.index) → ret ≠ cronoSuccess)

section Filled

variable {sys : BarSys} {d : KernelDevice} {w : World} {dir : List Char} {descs : List BarDesc}
  {bars : BarTable}

/-- The entry at a position has the data of the BAR found there. -/
theorem Filled.entry_row (h : Filled sys d w dir descs bars) {j : Fin 6}
    (hj : (j : Nat) < bars.barCount) :
    ∃ r, sys.present[j.1]? = some r ∧ bars.barDescs.get j =
      ⟨r.1, 0, (bars.barDescs.get j).userAddress, r.2.startAddr, r.2.length⟩ := by
  have hget : descs[j.1]? = some (bars.barDescs.get j) := by
    rw [← h.filled, BarTable.filled_getElem?, if_pos hj]
  have hrows := congrArg (fun l => l[j.1]?) (mapRows_rows h.mapped)
  simp only [List.getElem?_map, hget, Option.map_some] at hrows
  obtain ⟨r, hr, he⟩ := Option.map_eq_some_iff.1 hrows.symm
  simp only [Prod.mk.injEq] at he
  obtain ⟨hnum, hflags, hphys, hlen⟩ := he
  refine ⟨r, hr, ?_⟩
  rw [hnum, hflags, hphys, hlen]

/-- The region of an entry is mapped. -/
theorem Filled.entry_mapped (h : Filled sys d w dir descs bars) {j : Fin 6}
    (hj : (j : Nat) < bars.barCount) :
    (bars.barDescs.get j).mapping dir ∈ (mapRows sys dir sys.rows w.space).2.maps := by
  have hget : descs[j.1]? = some (bars.barDescs.get j) := by
    rw [← h.filled, BarTable.filled_getElem?, if_pos hj]
  rw [h.maps_eq, List.mem_append, List.mem_reverse, List.mem_map]
  exact Or.inl ⟨_, List.mem_of_getElem? hget, rfl⟩

/-- The entry at a position, the BAR found there and the region mapped. -/
theorem Filled.entry (h : Filled sys d w dir descs bars) {j : Fin 6}
    (hj : (j : Nat) < bars.barCount) :
    (∃ r, sys.present[j.1]? = some r ∧ (bars.barDescs.get j).barNum = r.1 ∧
      (bars.barDescs.get j).length = r.2.length) ∧
    (bars.barDescs.get j).mapping dir ∈ (mapRows sys dir sys.rows w.space).2.maps := by
  obtain ⟨r, hr, he⟩ := h.entry_row hj
  exact ⟨⟨r, hr, congrArg BarDesc.barNum he, congrArg BarDesc.length he⟩, h.entry_mapped hj⟩

/-- There is an entry for each BAR found. -/
theorem Filled.barCount_eq (h : Filled sys d w dir descs bars) :
    bars.barCount = sys.present.length := by
  have hlen := congrArg List.length (mapRows_rows h.mapped)
  rwa [List.length_map, List.length_map, ← h.filled, BarTable.length_filled] at hlen

/-- Every BAR found has its entry. -/
theorem Filled.lt_of_present (h : Filled sys d w dir descs bars) {j : Nat}
    {r : Fin 6 × ResourceRow} (hr : sys.present[j]? = some r) : j < bars.barCount := by
  rw [h.barCount_eq]
  exact (List.getElem?_eq_some_iff.1 hr).1

end Filled

/-- A call that no check stops, on a filled entry, accesses its region. -/
theorem Accessor.call_done {c : Accessor} {p : Addr} {dwOffset : UInt32} {d : KernelDevice}
    {w : World} {j : Fin 6} {m : Mapping MapSource} (hd : w.device? p = some d)
    (hid : d.dwDeviceId ≠ 0) (hval : ¬c.RejectsVal) (hstores : ¬c.StoresNull) (hj : c.index = j)
    (hrange : ¬ExceedsRange dwOffset c.checkedSize (d.bars.barDescs.get j)) (hm : m ∈ w.space.maps)
    (hcovers : m.Covers ((d.bars.barDescs.get j).userAddress + dwOffset.toNat) c.width) :
    ∃ w', c.call p dwOffset w = .ok (cronoSuccess,
      [⟨(d.bars.barDescs.get j).userAddress + dwOffset.toNat, c.width⟩], w') := by
  have hr := c.call_result dwOffset hd
  generalize c.call p dwOffset w = r at hr
  cases hr with
  | invalid hid' => exact absurd hid' hid
  | noVal _ hval' => exact absurd hval' hval
  | index _ _ hidx => omega
  | @exceeds k _ _ hk hrange' =>
    obtain rfl : k = j := Fin.ext (hk.symm.trans hj)
    exact absurd hrange' hrange
  | @unmapped k _ _ hk _ hmap =>
    obtain rfl : k = j := Fin.ext (hk.symm.trans hj)
    exact absurd (World.mapped_of_covers hm hcovers) hmap
  | nullVal _ _ _ _ hstores' => exact absurd hstores' hstores
  | @done k _ _ _ hk =>
    obtain rfl : k = j := Fin.ext (hk.symm.trans hj)
    exact ⟨_, rfl⟩

section Identity

variable {sys : BarSys} {p : Addr} {d : KernelDevice} {w w' : World} {dir : List Char}
  {descs : List BarDesc} {bars : BarTable}

/-- Accessors that keep to their BARs show which BAR stands at a position. -/
theorem Filled.aligned (h : Filled sys d w dir descs bars)
    (hd' : w'.device? p = some { d with bars })
    (hspace : w'.space = (mapRows sys dir sys.rows w.space).2)
    (hident : BarIdentity sys dir p w') (hid : d.dwDeviceId ≠ 0) : sys.Aligned := by
  intro j r hr
  have hlt : (j : Nat) < bars.barCount := h.lt_of_present hr
  obtain ⟨⟨r', hr', hnum, hlen⟩, hmem⟩ := h.entry hlt
  rw [Option.mem_def.1 hr, Option.some.injEq] at hr'
  subst hr'
  rw [← hspace] at hmem
  -- an accessor that reaches the entry touches its region, which is that of one BAR
  have hreach (c : Accessor) (hval : ¬c.RejectsVal) (hstores : ¬c.StoresNull)
      (hj : c.index = j) (hsize : c.checkedSize.toNat ≤ r.2.length.toNat) : r.1 = j := by
    have hrange : ¬ExceedsRange 0 c.checkedSize (bars.barDescs.get j) := by
      rw [exceedsRange_iff c.checkedSize_le, hlen]
      simpa using hsize
    have hcovers := c.covers (m := (bars.barDescs.get j).mapping dir) hrange rfl rfl
    obtain ⟨w'', hcall⟩ := c.call_done (d := { d with bars }) (j := j) hd' hid hval hstores hj
      hrange hmem hcovers
    obtain ⟨m, hm, hsource, hm'⟩ := (hident c 0 _ _ _ (by omega) hcall).1 _
      (List.mem_singleton_self _)
    have heq := AddressSpace.eq_of_covers hm hmem c.width_pos hm' hcovers
    rw [heq] at hsource
    exact Fin.ext (hnum.symm.trans ((resourceFile_inj hsource).trans hj))
  by_cases hj : j = 0
  · refine Or.inl (hreach (.writeAddr8 0) not_false not_false (by rw [hj]; rfl) ?_)
    have hpos := (w'.space.pos _ hmem).2
    simp only [BarDesc.mapping, hlen] at hpos
    have hone : (Accessor.writeAddr8 0).checkedSize.toNat = 1 := rfl
    omega
  · by_cases hshort : r.2.length.toNat < 4
    · exact Or.inr ⟨Fin.pos_iff_ne_zero.2 hj, hshort⟩
    · refine Or.inl (hreach (.writeAddr 0 (.ofNat j)) not_false not_false ?_ ?_)
      · simp only [Accessor.index, UInt32.toNat_ofNat']
        omega
      · simpa [Accessor.checkedSize] using Nat.le_of_not_lt hshort

/-- Where numbers match positions, an accessor touches the BAR it is called for. -/
theorem Filled.barIdentity (h : Filled sys d w dir descs bars)
    (hd' : w'.device? p = some { d with bars })
    (hspace : w'.space = (mapRows sys dir sys.rows w.space).2)
    (halign : d.dwDeviceId ≠ 0 → sys.Aligned) : BarIdentity sys dir p w' := by
  intro c dwOffset ret touched w'' hidx hcall
  have hr := c.call_result dwOffset hd'
  rw [hcall] at hr
  cases hr with
  | invalid | noVal | exceeds =>
    exact ⟨fun t ht => absurd ht List.not_mem_nil, fun _ => by decide⟩
  | @done j mem hid hval hj hrange hmap hstores =>
    have hlt : (j : Nat) < bars.barCount := by
      by_contra hge
      apply hrange
      rw [show bars.barDescs.get j = .zero from h.tail j (by omega)]
      exact c.exceedsRange_zero dwOffset
    obtain ⟨⟨r, hr, hnum, hlen⟩, hmem⟩ := h.entry hlt
    rw [← hspace] at hmem
    have hsame : (r.1 : Nat) = j := by
      rcases halign hid j r hr with hsame | ⟨hpos, hshort⟩
      · rw [hsame]
      · have hsize := c.checkedSize_of_index (by omega)
        rw [exceedsRange_iff c.checkedSize_le] at hrange
        simp only [hlen] at hrange
        omega
    constructor
    · intro t ht
      rw [List.mem_singleton.1 ht]
      refine ⟨_, hmem, ?_, c.covers hrange rfl rfl⟩
      simp only [BarDesc.mapping, hnum, hsame, hj]
    · intro habsent
      exact absurd (hsame.trans hj.symm) (habsent r (List.mem_of_getElem? hr))

end Identity

/-- After a call that fills the table of a device, the accessors keep to the
BARs they are called for exactly when the numbers of the BARs match their
positions, or the device's id is 0 and they refuse every call. -/
theorem bar_identity_iff {sys : BarSys} {p : Addr} {d : KernelDevice} {w w' : World}
    (hd : w.device? p = some d) (hcount : d.bars.barCount = 0)
    (hfill : fillDeviceBarDescriptions sys p w = .ok (cronoSuccess, w')) :
    ∃ dir, DirectoryIs sys d.pciSlot dir ∧
      (BarIdentity sys dir p w' ↔ (d.dwDeviceId ≠ 0 → sys.Aligned)) := by
  obtain ⟨dir, descs, bars, hfilled, hd', hspace⟩ := fill_success hd hcount hfill
  refine ⟨dir, hfilled.directory, ?_⟩
  constructor
  · exact hfilled.aligned hd' hspace
  · exact hfilled.barIdentity hd' hspace

/-- A device with BARs 0 and 1. -/
def BarSys.two : BarSys :=
  .small "1000 1fff 200 3000 30ff 200".toList fun ibar => 4096 * (ibar + 1)

theorem bar_identity_two : ∃ dir w', fillDeviceBarDescriptions .two 16 .oneDevice =
    .ok (cronoSuccess, w') ∧ BarIdentity .two dir 16 w' := by
  have hok : (fillDeviceBarDescriptions .two 16 .oneDevice).map (fun r => r.1) =
      .ok cronoSuccess := by decide
  cases hfill : fillDeviceBarDescriptions .two 16 .oneDevice with
  | error e => rw [hfill] at hok; cases hok
  | ok r =>
    obtain ⟨ret, w'⟩ := r
    rw [hfill] at hok
    cases hok
    obtain ⟨dir, -, hiff⟩ := bar_identity_iff (w := .oneDevice) rfl rfl hfill
    exact ⟨dir, w', rfl, hiff.2 fun _ => by decide⟩

/-- The only BAR is number 2, and an accessor of BAR 0 reads it. -/
theorem bar0_reads_bar2 : ∃ s, Session.Reachable World.boot s ∧
    s.world.space.maps = [⟨8192, 256, resourceFile "/sys/devices/pci0000:00".toList 2⟩] ∧
    ((Accessor.readAddr32 (some 0)).call 16 0 s.world).map (fun r => (r.1, r.2.1)) =
      .ok (cronoSuccess, [⟨8192, 4⟩]) :=
  exists_reach_of_run [.openDev (.small 1 16 none
    (.small "0 0 0 0 0 0 2000 20ff 200".toList fun _ => 8192)) (busSlot 1)] (by decide)

end CronoPci
