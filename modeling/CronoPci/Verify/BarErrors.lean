import CronoPci.Verify.Bars
import CronoPci.Verify.Session

/-!
# BAR descriptions that fail

`fill_device_bar_descriptions` maps the BARs one after the other and has two
exits in between, for a BAR whose file does not open or does not map. They close
the files, but the regions mapped for the BARs before stay. So an error leaves
the process as it was unless it comes after the first BAR found was mapped.
-/

namespace CronoPci

open Posix

/-- The first BAR found opens and maps. -/
def FirstBarMaps (sys : BarSys) (dir : List Char) (rows : List (Fin 6 × ResourceRow))
    (space : Space) : Prop :=
  ∃ r ∈ rows.find? fun r => ¬r.2.Absent, sys.openBar (barResourceFilePath dir r.1) = none ∧
    ∃ p, mmapAt (sys.mmap r.1) r.2.length.toNat (resourceFile dir r.1) space = .ok p

/-! ## The regions that stay -/

/-- Regions are added before those of before. -/
theorem mapRows_suffix (sys : BarSys) (dir : List Char) (rows : List (Fin 6 × ResourceRow))
    (space : Space) : space.maps <:+ (mapRows sys dir rows space).2.maps := by
  induction rows generalizing space with
  | nil => exact List.suffix_refl _
  | cons r rows ih =>
    obtain ⟨ibar, row⟩ := r
    simp only [mapRows]
    split
    · exact ih space
    · split
      · exact List.suffix_refl _
      · cases hmap : mmapAt (sys.mmap ibar) row.length.toNat (resourceFile dir ibar) space with
        | error e => exact List.suffix_refl _
        | ok p =>
          obtain ⟨-, -, hmaps, -⟩ := AddressSpace.mmap_eq_some (mmapAt_eq_ok hmap).2
          refine List.IsSuffix.trans ?_ (ih p.2)
          rw [hmaps]
          exact List.suffix_cons ..

/-- A loop that fails leaves the address space as it was when it fails at the
first BAR found. -/
theorem mapRows_error_iff {sys : BarSys} {dir : List Char} {rows : List (Fin 6 × ResourceRow)}
    {space : Space} {e : Errno} (h : (mapRows sys dir rows space).1 = .error e) :
    (mapRows sys dir rows space).2.maps = space.maps ↔ ¬FirstBarMaps sys dir rows space := by
  induction rows with
  | nil => cases h
  | cons r rows ih =>
    obtain ⟨ibar, row⟩ := r
    by_cases hrow : row.Absent
    · have hfirst : FirstBarMaps sys dir ((ibar, row) :: rows) space ↔
          FirstBarMaps sys dir rows space := by
        unfold FirstBarMaps
        rw [List.find?_cons_of_neg (by simpa using hrow)]
      simp only [mapRows, hrow, ↓reduceIte] at h ⊢
      rw [hfirst]
      exact ih h
    · have hfirst : FirstBarMaps sys dir ((ibar, row) :: rows) space ↔
          sys.openBar (barResourceFilePath dir ibar) = none ∧ ∃ p,
            mmapAt (sys.mmap ibar) row.length.toNat (resourceFile dir ibar) space = .ok p := by
        unfold FirstBarMaps
        rw [List.find?_cons_of_pos (by simpa using hrow)]
        simp
      rw [hfirst]
      simp only [mapRows, hrow, ↓reduceIte]
      cases hopen : sys.openBar (barResourceFilePath dir ibar) with
      | some e => simp
      | none =>
        cases hmap : mmapAt (sys.mmap ibar) row.length.toNat (resourceFile dir ibar) space with
        | error e => simp
        | ok p =>
          -- the region of this BAR stays whatever happens to the others
          obtain ⟨-, -, hmaps, -⟩ := AddressSpace.mmap_eq_some (mmapAt_eq_ok hmap).2
          have hlen := (mapRows_suffix sys dir rows p.2).length_le
          rw [hmaps, List.length_cons] at hlen
          refine iff_of_false ?_ (by simp)
          intro heq
          simp only at heq
          rw [heq] at hlen
          omega

/-! ## The whole function -/

/-- The address space after a call on a device without descriptions. -/
theorem fill_space {sys : BarSys} {pDevice : Addr} {d : KernelDevice} {w w' : World} {ret : Code}
    (hd : w.device? pDevice = some d) (hcount : d.bars.barCount = 0)
    (h : fillDeviceBarDescriptions sys pDevice w = .ok (ret, w')) :
    (∃ dir, DirectoryIs sys d.pciSlot dir ∧ ResourceOpens sys dir ∧
        w'.space = (mapRows sys dir sys.rows w.space).2 ∧
        (ret = cronoSuccess ∨ ∃ e, (mapRows sys dir sys.rows w.space).1 = .error e)) ∨
      (∀ dir, DirectoryIs sys d.pciSlot dir → ¬ResourceOpens sys dir) ∧ w'.space = w.space := by
  have hp : pDevice ≠ 0 := Heap.ne_zero_of_get (World.device?_eq_some.1 hd)
  unfold fillDeviceBarDescriptions at h
  rw [if_neg hp, World.derefDevice_eq_ok.2 hd] at h
  simp only [bind, Except.bind, pure, Except.pure] at h
  rw [if_neg (by omega)] at h
  unfold DirectoryIs
  cases hdir : cronoGetSysDevicesDirectoryPath sys.readlink sys.linkBuf d.pciSlot with
  | error f =>
    rw [hdir] at h
    cases h
  | ok r =>
    rw [hdir] at h
    cases r with
    | error ret =>
      cases h
      exact Or.inr ⟨fun dir hdir => (by cases hdir), rfl⟩
    | ok dir =>
      -- no other directory is found
      have hclosed (hnot : ¬ResourceOpens sys dir) (dir' : List Char)
          (hdir' : (Except.ok (.ok dir) : Except Fault (Except Code (List Char))) =
            .ok (.ok dir')) :
          ¬ResourceOpens sys dir' := by
        cases hdir'
        exact hnot
      simp only at h
      cases hopen : sys.openResource (resourceFilePath dir) with
      | some e =>
        rw [hopen] at h
        cases h
        refine Or.inr ⟨hclosed fun ho => ?_, rfl⟩
        rw [ho.1] at hopen
        cases hopen
      | none =>
        rw [hopen] at h
        by_cases hstream : sys.streamOpens = true
        · obtain ⟨res, fds', hfill, -, hres⟩ := fillBars_spec sys dir (List.finRange 6)
            ⟨sys.text, false⟩ .empty
            ((w.fds.install (resourceFilePath dir)).install (resourceFilePath dir)) w.space
            (by simp [BarTable.empty]) BarTable.tailZero_empty
          simp only [hstream, ↓reduceIte, hfill] at h
          refine Or.inl ⟨dir, rfl, ⟨hopen, hstream⟩, ?_⟩
          unfold BarSys.rows
          cases hrows : (mapRows sys dir (rowsFrom sys (List.finRange 6) ⟨sys.text, false⟩)
              w.space).1 with
          | error e =>
            rw [hrows] at hres
            subst hres
            cases h
            exact ⟨rfl, Or.inr ⟨e, rfl⟩⟩
          | ok descs =>
            rw [hrows] at hres
            obtain ⟨bars, rfl, -⟩ := hres
            cases h
            exact ⟨rfl, Or.inl rfl⟩
        · simp only [hstream, Bool.false_eq_true, ↓reduceIte] at h
          cases h
          exact Or.inr ⟨hclosed fun ho => hstream ho.2, rfl⟩

/-- What a call that returns an error should leave: the regions mapped before,
the files open before, and the device as it was. -/
structure LeavesNothing (pDevice : Addr) (d : KernelDevice) (w w' : World) : Prop where
  maps : w'.space.maps = w.space.maps
  file : w'.fds.file = w.fds.file
  device : w'.device? pDevice = some d

/-- A call that returns an error leaves nothing behind unless it got past the
first BAR found. -/
theorem fill_error_clean_iff {sys : BarSys} {pDevice : Addr} {d : KernelDevice} {w w' : World}
    {ret : Code} (hd : w.device? pDevice = some d)
    (h : fillDeviceBarDescriptions sys pDevice w = .ok (ret, w')) (hret : ret ≠ cronoSuccess) :
    LeavesNothing pDevice d w w' ↔ ¬∃ dir, DirectoryIs sys d.pciSlot dir ∧
      ResourceOpens sys dir ∧ FirstBarMaps sys dir sys.rows w.space := by
  cases fill_ok hd h with
  | already | filled => exact absurd rfl hret
  | failed fds space hcount _ _ hfds =>
    have hleaves : LeavesNothing pDevice d w { w with fds, space } ↔ space.maps = w.space.maps :=
      ⟨fun hl => hl.maps, fun hmaps => ⟨hmaps, hfds.file_eq, hd⟩⟩
    rw [hleaves]
    rcases fill_space hd hcount h with ⟨dir, hdir, hopens, hspace, hsuccess | ⟨e, he⟩⟩ |
      ⟨hclosed, hspace⟩
    · exact absurd hsuccess hret
    · simp only at hspace
      rw [hspace, mapRows_error_iff he]
      constructor
      · rintro hnot ⟨dir', hdir', -, hfirst⟩
        obtain rfl := hdir.unique hdir'
        exact hnot hfirst
      · intro hnot hfirst
        exact hnot ⟨dir, hdir, hopens, hfirst⟩
    · simp only at hspace
      refine iff_of_true (by rw [hspace]) ?_
      rintro ⟨dir, hdir, hopens, -⟩
      exact hclosed dir hdir hopens

/-- Two BARs, of which the second does not open. -/
def BarSys.secondFails : BarSys :=
  { BarSys.small "1000 1fff 200 3000 30ff 200".toList (fun _ => 4096) with
    openBar := fun path => if path.getLast? = some '1' then some .noEnt else none }

/-- The first BAR is number 1, and its file opens but is not mapped. -/
def BarSys.firstFails : BarSys :=
  { BarSys.small "0 0 0 1000 1fff 200 3000 30ff 200".toList (fun _ => 4096) with
    mmap := fun ibar => if ibar.1 = 1 then .error .noMem else .ok 4096 }

theorem fill_error_clean_first : ∃ ret w',
    fillDeviceBarDescriptions .firstFails 16 .oneDevice = .ok (ret, w') ∧
      LeavesNothing 16 { KernelDevice.zero with dwDeviceId := 6, miscdevFd := 3 } .oneDevice
        w' := by
  obtain ⟨w', h⟩ : ∃ w', fillDeviceBarDescriptions .firstFails 16 .oneDevice =
      .ok (enomem, w') := ⟨_, rfl⟩
  refine ⟨enomem, w', h, (fill_error_clean_iff rfl h (by decide)).2 ?_⟩
  rintro ⟨dir, -, -, r, hr, -, p, hmap⟩
  rw [show BarSys.firstFails.rows.find? _ = some (1, ⟨0x1000, 0x1fff, 0x200⟩) from rfl] at hr
  cases hr
  cases hmap

/-- The region of the first BAR stays mapped. -/
theorem fill_leaks_mapping : ∃ w',
    fillDeviceBarDescriptions .secondFails 16 .oneDevice = .ok (enoent, w') ∧
      w'.space.maps = [⟨4096, 4096, resourceFile "/sys/devices/pci0000:00".toList 0⟩] ∧
      ¬LeavesNothing 16 { KernelDevice.zero with dwDeviceId := 6, miscdevFd := 3 } .oneDevice
        w' := by
  refine ⟨_, rfl, rfl, ?_⟩
  intro h
  exact absurd h.maps (List.cons_ne_nil _ _)

end CronoPci
