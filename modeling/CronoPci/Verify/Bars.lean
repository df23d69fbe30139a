import CronoPci.Model.Bars

/-!
# What filling the BAR table does

`mapRows` says what the six lines of a `resource` file and the system's answers
make of the address space and of the table, without the cursor, the descriptors
and the array of the code. `fillBars_spec` connects the loop to it, and
`fillDeviceBarDescriptions_spec` the whole function: `FillFails` is the
condition on the system's answers under which it returns an error.
-/

namespace CronoPci

open Posix Posix.Text

/-! ## Descriptors opened for sysfs files are closed -/

theorem cronoReadConfig_balanced (path : List Char) (sys : ConfigSys) (data : Nat → UInt8)
    (offset size : Nat) (fds : FdTable) :
    FdTable.Balanced fds (cronoReadConfig path sys data offset size fds).fds := by
  unfold cronoReadConfig
  split
  · exact .refl fds
  · exact (FdTable.Balanced.refl (fds.install path)).bracket

theorem cronoReadVendorDevice_balanced (path : List Char) (sys : ConfigSys) (ids : Ids)
    (fds : FdTable) : FdTable.Balanced fds (cronoReadVendorDevice path sys ids fds).2.2 := by
  unfold cronoReadVendorDevice
  simp only
  split <;> exact cronoReadConfig_balanced ..

/-! ## The table as a list -/

namespace BarTable

/-- The filled entries. -/
def filled (t : BarTable) : List BarDesc := t.barDescs.toList.take t.barCount

/-- The entries past the count are as `memset` left them. -/
def TailZero (t : BarTable) : Prop := ∀ j : Fin 6, t.barCount ≤ j → t.barDescs.get j = .zero

@[simp] theorem filled_empty : BarTable.empty.filled = [] := rfl

theorem tailZero_empty : BarTable.empty.TailZero := by
  intro j _
  exact Vector.getElem_replicate j.isLt

@[simp] theorem length_filled (t : BarTable) : t.filled.length = t.barCount := by
  simp [filled, t.le]

theorem filled_push {t : BarTable} {desc : BarDesc} (h : t.barCount < 6) :
    (t.push desc h).filled = t.filled ++ [desc] := by
  unfold filled push
  simp only [Vector.toList_set]
  rw [List.take_add_one, List.take_set_of_le (Nat.le_refl _)]
  congr 1
  simp [h]

theorem TailZero.push {t : BarTable} (ht : t.TailZero) {desc : BarDesc} (h : t.barCount < 6) :
    (t.push desc h).TailZero := by
  intro j hj
  have hne : t.barCount ≠ j := by
    simp only [BarTable.push] at hj
    omega
  have hle : t.barCount ≤ j := by
    simp only [BarTable.push] at hj
    omega
  exact (Vector.getElem_set_ne h j.isLt hne).trans (ht j hle)

/-- The filled entries by index. -/
theorem filled_getElem? (t : BarTable) (j : Fin 6) :
    t.filled[j.1]? = if j < t.barCount then some (t.barDescs.get j) else none := by
  unfold filled
  rw [List.getElem?_take]
  split
  · simp only [Vector.getElem?_toList, Vector.getElem?_eq_getElem j.isLt]
    rfl
  · rfl

end BarTable

/-! ## The lines of the file -/

/-- The lines that the loop reads, paired with their BAR numbers. -/
def rowsFrom (sys : BarSys) : List (Fin 6) → HexStream → List (Fin 6 × ResourceRow)
  | [], _ => []
  | ibar :: ibars, s =>
    (ibar, (s.readRow (sys.uninit ibar)).1) :: rowsFrom sys ibars (s.readRow (sys.uninit ibar)).2

/-- The six lines of the `resource` file. -/
def BarSys.rows (sys : BarSys) : List (Fin 6 × ResourceRow) :=
  rowsFrom sys (List.finRange 6) ⟨sys.text, false⟩

/-- The file `resource<n>` of a directory, from its start on. -/
def resourceFile (dir : List Char) (n : Nat) : MapSource :=
  ⟨dir ++ "/resource".toList ++ (Nat.repr n).toList, 0⟩

theorem barResourceFilePath_eq (dir : List Char) (ibar : Fin 6) :
    (⟨barResourceFilePath dir ibar, 0⟩ : MapSource) = resourceFile dir ibar := by
  have hdigit : printUnsigned false 10 1 (ibar : Nat) = (Nat.repr ibar).toList := by
    revert ibar
    decide
  rw [barResourceFilePath, hdigit, resourceFile]

/-- Files with different numbers differ. -/
theorem resourceFile_inj {dir : List Char} {n m : Nat}
    (h : resourceFile dir n = resourceFile dir m) : n = m := by
  have hdigits : Nat.toDigits 10 n = Nat.toDigits 10 m := by simpa [resourceFile] using h
  rw [← Nat.ofDigitChars_ten_toDigits (n := n), hdigits, Nat.ofDigitChars_ten_toDigits]

/-- A file that was just opened can be mapped. -/
theorem mmapFd_install (choice : Except Errno Addr) (len : Nat) (fds : FdTable)
    (path : List Char) (offset : Int) (space : Space) :
    mmapFd choice len (fds.install path) fds.lowest offset space =
      mmapAt choice len ⟨path, offset⟩ space := by
  simp [mmapFd]

/-- Map the BARs of the lines that are not absent, in order: the entries they
get or the first error, and the address space. -/
def mapRows (sys : BarSys) (dir : List Char) : List (Fin 6 × ResourceRow) → Space →
    Except Errno (List BarDesc) × Space
  | [], space => (.ok [], space)
  | (ibar, row) :: rows, space =>
    if row.Absent then mapRows sys dir rows space
    else match sys.openBar (barResourceFilePath dir ibar) with
      | some e => (.error e, space)
      | none =>
        match mmapAt (sys.mmap ibar) row.length.toNat (resourceFile dir ibar) space with
        | .error e => (.error e, space)
        | .ok (userAddr, space) =>
          ((mapRows sys dir rows space).1.map
            (⟨ibar, 0, userAddr, row.startAddr, row.length⟩ :: ·), (mapRows sys dir rows space).2)

/-- The loop fills the table with the entries of `mapRows`, or returns its
error, and closes every file it opens. -/
theorem fillBars_spec (sys : BarSys) (dir : List Char) (ibars : List (Fin 6)) (s : HexStream)
    (t : BarTable) (fds : FdTable) (space : Space) (hlen : t.barCount + ibars.length ≤ 6)
    (htail : t.TailZero) :
    ∃ res fds', fillBars sys dir ibars s t fds space =
        .ok (res, fds', (mapRows sys dir (rowsFrom sys ibars s) space).2) ∧
      FdTable.Balanced fds fds' ∧
      match (mapRows sys dir (rowsFrom sys ibars s) space).1 with
      | .ok descs => ∃ t', res = .ok t' ∧ t'.TailZero ∧ t'.filled = t.filled ++ descs
      | .error e => res = .error e.code := by
  induction ibars generalizing s t fds space with
  | nil => exact ⟨.ok t, fds, rfl, .refl fds, t, rfl, htail, by simp⟩
  | cons ibar ibars ih =>
    have hlt : t.barCount < 6 := by
      simp only [List.length_cons] at hlen
      omega
    simp only [rowsFrom, mapRows, fillBars]
    by_cases hrow : ((s.readRow (sys.uninit ibar)).1).Absent
    · simp only [hrow, ↓reduceIte]
      exact ih _ t fds space (by simp only [List.length_cons] at hlen; omega) htail
    · simp only [hrow, ↓reduceIte, hlt, ↓reduceDIte]
      cases hopen : sys.openBar (barResourceFilePath dir ibar) with
      | some e => exact ⟨_, fds, rfl, .refl fds, rfl⟩
      | none =>
        have hclosed : FdTable.Balanced fds
            ((fds.install (barResourceFilePath dir ibar)).close fds.lowest) :=
          (FdTable.Balanced.refl _).bracket
        simp only [mmapFd_install, barResourceFilePath_eq]
        cases hmap : mmapAt (sys.mmap ibar) ((s.readRow (sys.uninit ibar)).1).length.toNat
            (resourceFile dir ibar) space with
        | error e => exact ⟨_, _, rfl, hclosed, rfl⟩
        | ok r =>
          obtain ⟨userAddr, space₁⟩ := r
          simp only
          obtain ⟨res, fds', hfill, hbal, hres⟩ := ih (s.readRow (sys.uninit ibar)).2
            (t.push ⟨ibar, 0, userAddr, ((s.readRow (sys.uninit ibar)).1).startAddr,
              ((s.readRow (sys.uninit ibar)).1).length⟩ hlt)
            ((fds.install (barResourceFilePath dir ibar)).close fds.lowest) space₁
            (by simp only [List.length_cons, BarTable.push] at hlen ⊢; omega) (htail.push hlt)
          refine ⟨res, fds', hfill, hclosed.balanced hbal, ?_⟩
          cases hrest : (mapRows sys dir (rowsFrom sys ibars (s.readRow (sys.uninit ibar)).2)
              space₁).1 with
          | error e =>
            rw [hrest] at hres
            exact hres
          | ok descs =>
            rw [hrest] at hres
            obtain ⟨t', rfl, htail', hfilled⟩ := hres
            refine ⟨t', rfl, htail', ?_⟩
            rw [hfilled, BarTable.filled_push, List.append_assoc]
            rfl

/-! ## The mappings made -/

/-- The region of an entry whose file lies in `dir`. -/
def BarDesc.mapping (dir : List Char) (desc : BarDesc) : Mapping MapSource :=
  ⟨desc.userAddress, desc.length.toNat, resourceFile dir desc.barNum⟩

theorem mmapAt_eq_ok {choice : Except Errno Addr} {len : Nat} {source : MapSource}
    {space space' : Space} {a : Addr} (h : mmapAt choice len source space = .ok (a, space')) :
    choice = .ok a ∧ space.mmap ⟨a, len, source⟩ = some space' := by
  unfold mmapAt at h
  cases choice with
  | error e => cases h
  | ok a' =>
    simp only at h
    cases hm : space.mmap ⟨a', len, source⟩ with
    | none => rw [hm] at h; cases h
    | some s =>
      rw [hm] at h
      cases h
      exact ⟨rfl, hm⟩

/-- What is mapped is a file that is open. -/
theorem mmapFd_eq_ok {choice : Except Errno Addr} {len : Nat} {fds : FdTable} {fd : Nat}
    {offset : Int} {space space' : Space} {a : Addr}
    (h : mmapFd choice len fds fd offset space = .ok (a, space')) :
    ∃ f, fds.file fd = some f ∧ choice = .ok a ∧
      space.mmap ⟨a, len, ⟨fds.path f, offset⟩⟩ = some space' := by
  unfold mmapFd at h
  cases hf : fds.file fd with
  | none =>
    rw [hf] at h
    cases h
  | some f =>
    rw [hf] at h
    exact ⟨f, rfl, mmapAt_eq_ok h⟩

/-- The regions of the entries are the ones added to the address space, the
latest first. -/
theorem mapRows_maps {sys : BarSys} {dir : List Char} {rows : List (Fin 6 × ResourceRow)}
    {space : Space} {descs : List BarDesc} (h : (mapRows sys dir rows space).1 = .ok descs) :
    (mapRows sys dir rows space).2.maps =
      (descs.map (BarDesc.mapping dir)).reverse ++ space.maps := by
  induction rows generalizing space descs with
  | nil =>
    simp only [mapRows, Except.ok.injEq] at h
    subst h
    rfl
  | cons r rows ih =>
    obtain ⟨ibar, row⟩ := r
    simp only [mapRows] at h ⊢
    split at h
    · next hrow =>
      rw [if_pos hrow]
      exact ih h
    · next hrow =>
      rw [if_neg hrow]
      cases hopen : sys.openBar (barResourceFilePath dir ibar) with
      | some e => rw [hopen] at h; cases h
      | none =>
        simp only [hopen] at h ⊢
        cases hmap : mmapAt (sys.mmap ibar) row.length.toNat (resourceFile dir ibar) space with
        | error e => rw [hmap] at h; cases h
        | ok p =>
          obtain ⟨userAddr, space₁⟩ := p
          simp only [hmap] at h ⊢
          cases hrest : (mapRows sys dir rows space₁).1 with
          | error e => rw [hrest] at h; cases h
          | ok rest =>
            rw [hrest] at h
            cases h
            rw [ih hrest, (AddressSpace.mmap_eq_some (mmapAt_eq_ok hmap).2).2.2.1]
            simp [BarDesc.mapping]

/-- Whatever its outcome, the loop adds regions and unmaps none. -/
theorem mapRows_grows (sys : BarSys) (dir : List Char) (rows : List (Fin 6 × ResourceRow))
    (space : Space) : space.maps ⊆ (mapRows sys dir rows space).2.maps ∧
      (mapRows sys dir rows space).2.unmaps = space.unmaps := by
  induction rows generalizing space with
  | nil => exact ⟨fun _ h => h, rfl⟩
  | cons r rows ih =>
    obtain ⟨ibar, row⟩ := r
    simp only [mapRows]
    split
    · exact ih space
    · split
      · exact ⟨fun _ h => h, rfl⟩
      · cases hmap : mmapAt (sys.mmap ibar) row.length.toNat (resourceFile dir ibar) space with
        | error e => exact ⟨fun _ h => h, rfl⟩
        | ok p =>
          obtain ⟨-, -, hmaps, hunmaps⟩ := AddressSpace.mmap_eq_some (mmapAt_eq_ok hmap).2
          obtain ⟨hsub, hun⟩ := ih p.2
          refine ⟨fun m hm => hsub ?_, hun.trans hunmaps⟩
          rw [hmaps]
          exact List.mem_cons_of_mem _ hm

/-- The entries stand for the lines that are not absent, in order. -/
theorem mapRows_rows {sys : BarSys} {dir : List Char} {rows : List (Fin 6 × ResourceRow)}
    {space : Space} {descs : List BarDesc} (h : (mapRows sys dir rows space).1 = .ok descs) :
    descs.map (fun desc => (desc.barNum, desc.flags, desc.physicalAddress, desc.length)) =
      (rows.filter fun r => ¬r.2.Absent).map
        fun r => ((r.1 : Nat), (0 : UInt32), r.2.startAddr, r.2.length) := by
  induction rows generalizing space descs with
  | nil =>
    simp only [mapRows, Except.ok.injEq] at h
    subst h
    rfl
  | cons r rows ih =>
    obtain ⟨ibar, row⟩ := r
    simp only [mapRows] at h
    split at h
    · next hrow =>
      rw [ih h, List.filter_cons_of_neg (by simpa using hrow)]
    · next hrow =>
      rw [List.filter_cons_of_pos (by simpa using hrow)]
      split at h
      · cases h
      · split at h
        · cases h
        · next userAddr space₁ hmap =>
          simp only at h
          cases hrest : (mapRows sys dir rows space₁).1 with
          | error e => rw [hrest] at h; cases h
          | ok rest =>
            rw [hrest] at h
            cases h
            simp only [List.map_cons, ih hrest]

/-! ## The whole function -/

/-- The directory of the device is found and named `dir`. -/
def DirectoryIs (sys : BarSys) (slot : PciSlot) (dir : List Char) : Prop :=
  cronoGetSysDevicesDirectoryPath sys.readlink sys.linkBuf slot = .ok (.ok dir)

theorem DirectoryIs.unique {sys : BarSys} {slot : PciSlot} {dir dir' : List Char}
    (h : DirectoryIs sys slot dir) (h' : DirectoryIs sys slot dir') : dir = dir' := by
  unfold DirectoryIs at h h'
  rw [h] at h'
  cases h'
  rfl

/-- The `resource` file opens, both ways. -/
def ResourceOpens (sys : BarSys) (dir : List Char) : Prop :=
  sys.openResource (resourceFilePath dir) = none ∧ sys.streamOpens = true

/-- A system call that the function needs fails: the device's link cannot be
read, its `resource` file does not open, or a BAR's file does not open or map. -/
def FillFails (sys : BarSys) (slot : PciSlot) (space : Space) : Prop :=
  (∃ e, sys.readlink (constructDevSlinkPath slot) = .error e) ∨
    ∃ dir, DirectoryIs sys slot dir ∧
      (¬ResourceOpens sys dir ∨ ∃ e, (mapRows sys dir sys.rows space).1 = .error e)

/-- A call that filled the table of device `d`: `bars` lists the BARs found in
`dir`, and `descs` their entries. -/
structure Filled (sys : BarSys) (d : KernelDevice) (w : World) (dir : List Char)
    (descs : List BarDesc) (bars : BarTable) : Prop where
  directory : DirectoryIs sys d.pciSlot dir
  opens : ResourceOpens sys dir
  mapped : (mapRows sys dir sys.rows w.space).1 = .ok descs
  tail : bars.TailZero
  filled : bars.filled = descs

/-- How a call on device `d` can end. -/
inductive FillEnds (sys : BarSys) (pDevice : Addr) (d : KernelDevice) (w : World) :
    Code → World → Prop
  /-- The descriptions were set before. -/
  | already (hcount : 0 < d.bars.barCount) : FillEnds sys pDevice d w cronoSuccess w
  /-- A system call failed; regions mapped on the way stay. -/
  | failed {ret : Code} (fds : FdTable) (space : Space) (hcount : d.bars.barCount = 0)
      (hret : ret ≠ cronoSuccess) (hfails : FillFails sys d.pciSlot w.space)
      (hfds : FdTable.Balanced w.fds fds) (hmaps : w.space.maps ⊆ space.maps)
      (hunmaps : space.unmaps = w.space.unmaps) :
      FillEnds sys pDevice d w ret { w with fds, space }
  | filled {dir : List Char} {descs : List BarDesc} {bars : BarTable} {fds : FdTable}
      (hcount : d.bars.barCount = 0) (hfilled : Filled sys d w dir descs bars)
      (hfds : FdTable.Balanced w.fds fds) :
      FillEnds sys pDevice d w cronoSuccess
        ({ w with fds, space := (mapRows sys dir sys.rows w.space).2 }.setDevice pDevice
          { d with bars })

theorem Filled.not_fails {sys : BarSys} {d : KernelDevice} {w : World} {dir : List Char}
    {descs : List BarDesc} {bars : BarTable} (h : Filled sys d w dir descs bars) :
    ¬FillFails sys d.pciSlot w.space := by
  have hdir := h.directory
  rintro (⟨e, hlink⟩ | ⟨dir', hdir', hor⟩)
  · simp [DirectoryIs, cronoGetSysDevicesDirectoryPath, hlink] at hdir
  · obtain rfl := hdir.unique hdir'
    rcases hor with hopens | ⟨e, he⟩
    · exact hopens h.opens
    · rw [h.mapped] at he
      cases he

/-- The link of the device fills `dev_slink_content_path`. -/
def LinkOverruns (sys : BarSys) (slot : PciSlot) : Prop :=
  ∃ i, cronoGetSysDevicesDirectoryPath sys.readlink sys.linkBuf slot = .error (.linkBuffer i)

/-- Only a link as long as the buffer overruns it. -/
theorem linkOverruns_iff {sys : BarSys} {slot : PciSlot} : LinkOverruns sys slot ↔
    ∃ target, sys.readlink (constructDevSlinkPath slot) = .ok target ∧
      pathMax - 16 ≤ target.length := by
  unfold LinkOverruns cronoGetSysDevicesDirectoryPath
  cases sys.readlink (constructDevSlinkPath slot) with
  | error e =>
    refine iff_of_false ?_ ?_
    · rintro ⟨i, hi⟩
      cases hi
    · rintro ⟨target, ht, -⟩
      cases ht
  | ok target =>
    simp only [List.length_take, Except.ok.injEq, exists_eq_left']
    by_cases hlen : pathMax - 16 ≤ target.length
    · rw [if_neg (by omega)]
      exact iff_of_true ⟨_, rfl⟩ hlen
    · rw [if_pos (by omega)]
      refine iff_of_false ?_ hlen
      rintro ⟨i, hi⟩
      cases hi

theorem DirectoryIs.not_overruns {sys : BarSys} {slot : PciSlot} {dir : List Char}
    (h : DirectoryIs sys slot dir) : ¬LinkOverruns sys slot := by
  rintro ⟨i, hi⟩
  unfold DirectoryIs at h
  rw [h] at hi
  cases hi

theorem directoryPath_fault {readlink : List Char → Except Errno (List Char)}
    {linkBuf : List Char} {slot : PciSlot} {e : Fault}
    (h : cronoGetSysDevicesDirectoryPath readlink linkBuf slot = .error e) :
    ∃ i, e = .linkBuffer i := by
  unfold cronoGetSysDevicesDirectoryPath at h
  split at h
  · cases h
  · simp only at h
    split at h
    · cases h
    · cases h
      exact ⟨_, rfl⟩

theorem directoryPath_error {readlink : List Char → Except Errno (List Char)}
    {linkBuf : List Char} {slot : PciSlot} {ret : Code}
    (h : cronoGetSysDevicesDirectoryPath readlink linkBuf slot = .ok (.error ret)) :
    ∃ e, readlink (constructDevSlinkPath slot) = .error e ∧ ret = e.code := by
  unfold cronoGetSysDevicesDirectoryPath at h
  split at h
  · next e he =>
    cases h
    exact ⟨e, he, rfl⟩
  · simp only at h
    split at h <;> cases h

/-- The part of the call after the directory is found. -/
theorem fill_in_directory {sys : BarSys} {pDevice : Addr} {d : KernelDevice} {w : World}
    {dir : List Char} (hd : w.device? pDevice = some d) (hcount : d.bars.barCount = 0)
    (hdir : DirectoryIs sys d.pciSlot dir) :
    ∃ ret w', fillDeviceBarDescriptions sys pDevice w = .ok (ret, w') ∧
      FillEnds sys pDevice d w ret w' := by
  have hp : pDevice ≠ 0 := Heap.ne_zero_of_get (World.device?_eq_some.1 hd)
  unfold fillDeviceBarDescriptions
  rw [if_neg hp, World.derefDevice_eq_ok.2 hd]
  simp only [bind, Except.bind, pure, Except.pure]
  rw [if_neg (by omega)]
  unfold DirectoryIs at hdir
  simp only [hdir]
  cases hopen : sys.openResource (resourceFilePath dir) with
  | some e =>
    refine ⟨_, _, rfl, .failed w.fds w.space hcount e.ne_zero ?_
      (.refl _) (fun _ h => h) rfl⟩
    refine Or.inr ⟨dir, hdir, Or.inl ?_⟩
    intro h
    rw [h.1] at hopen
    cases hopen
  | none =>
    simp only
    by_cases hstream : sys.streamOpens = true
    · rw [if_pos hstream]
      obtain ⟨res, fds', hfill, hbal, hres⟩ := fillBars_spec sys dir (List.finRange 6)
        ⟨sys.text, false⟩ .empty
        ((w.fds.install (resourceFilePath dir)).install (resourceFilePath dir)) w.space
        (by simp [BarTable.empty]) BarTable.tailZero_empty
      have hfds : FdTable.Balanced w.fds
          ((fds'.close (w.fds.install (resourceFilePath dir)).lowest).close w.fds.lowest) :=
        (FdTable.Balanced.bracket hbal).bracket
      rw [hfill]
      cases hrows : (mapRows sys dir sys.rows w.space).1 with
      | error e =>
        have hres' := hres
        unfold BarSys.rows at hrows
        rw [hrows] at hres'
        subst hres'
        obtain ⟨hsub, hun⟩ := mapRows_grows sys dir sys.rows w.space
        refine ⟨_, _, rfl, .failed _ _ hcount e.ne_zero ?_ hfds hsub hun⟩
        exact Or.inr ⟨dir, hdir, Or.inr ⟨e, hrows⟩⟩
      | ok descs =>
        have hres' := hres
        have hrows' := hrows
        unfold BarSys.rows at hrows
        rw [hrows] at hres'
        obtain ⟨bars, rfl, htail, hfilled⟩ := hres'
        refine ⟨_, _, rfl, .filled hcount ⟨hdir, ⟨hopen, hstream⟩, hrows', htail, ?_⟩ hfds⟩
        simpa using hfilled
    · rw [if_neg hstream]
      refine ⟨_, _, rfl, .failed _ w.space hcount (by decide) ?_
        (FdTable.Balanced.refl _).bracket (fun _ h => h) rfl⟩
      exact Or.inr ⟨dir, hdir, Or.inl fun h => hstream h.2⟩

/-- The call on device `d` overruns the link buffer or ends as `FillEnds` says. -/
theorem fill_ends (sys : BarSys) {pDevice : Addr} {d : KernelDevice} {w : World}
    (hd : w.device? pDevice = some d) :
    (LinkOverruns sys d.pciSlot ∧ d.bars.barCount = 0 ∧
        ∃ i, fillDeviceBarDescriptions sys pDevice w = .error (.linkBuffer i)) ∨
      ∃ ret w', fillDeviceBarDescriptions sys pDevice w = .ok (ret, w') ∧
        FillEnds sys pDevice d w ret w' := by
  have hp : pDevice ≠ 0 := Heap.ne_zero_of_get (World.device?_eq_some.1 hd)
  by_cases hcount : 0 < d.bars.barCount
  · refine Or.inr ⟨_, _, ?_, .already hcount⟩
    simp [fillDeviceBarDescriptions, hp, World.derefDevice_eq_ok.2 hd, hcount, bind, Except.bind,
      pure, Except.pure]
  have hcount : d.bars.barCount = 0 := by omega
  cases hdir : cronoGetSysDevicesDirectoryPath sys.readlink sys.linkBuf d.pciSlot with
  | error e =>
    obtain ⟨i, rfl⟩ := directoryPath_fault hdir
    refine Or.inl ⟨⟨i, hdir⟩, hcount, i, ?_⟩
    simp [fillDeviceBarDescriptions, hp, World.derefDevice_eq_ok.2 hd, hcount, hdir, bind,
      Except.bind]
  | ok r =>
    cases r with
    | error ret =>
      obtain ⟨e, he, rfl⟩ := directoryPath_error hdir
      refine Or.inr ⟨e.code, w, ?_, .failed w.fds w.space hcount e.ne_zero
        (Or.inl ⟨e, he⟩) (.refl _) (fun _ h => h) rfl⟩
      simp [fillDeviceBarDescriptions, hp, World.derefDevice_eq_ok.2 hd, hcount, hdir, bind,
        Except.bind, pure, Except.pure]
    | ok dir => exact Or.inr (fill_in_directory hd hcount hdir)

theorem fill_ok {sys : BarSys} {pDevice : Addr} {d : KernelDevice} {w w' : World} {ret : Code}
    (hd : w.device? pDevice = some d)
    (h : fillDeviceBarDescriptions sys pDevice w = .ok (ret, w')) :
    FillEnds sys pDevice d w ret w' := by
  rcases fill_ends sys hd with ⟨-, -, i, herr⟩ | ⟨ret', w₁, hok, hends⟩
  · rw [herr] at h
    cases h
  · rw [hok] at h
    cases h
    exact hends

theorem device?_setDevice {w : World} {p : Addr} {d : KernelDevice}
    (h : (w.heap.get p).isSome) : (w.setDevice p d).device? p = some d := by
  rw [World.device?_eq_some]
  exact Heap.get_set_self h

/-- A success on a device without descriptions fills its table. -/
theorem fill_success {sys : BarSys} {pDevice : Addr} {d : KernelDevice} {w w' : World}
    (hd : w.device? pDevice = some d) (hcount : d.bars.barCount = 0)
    (h : fillDeviceBarDescriptions sys pDevice w = .ok (cronoSuccess, w')) :
    ∃ dir descs bars, Filled sys d w dir descs bars ∧
      w'.device? pDevice = some { d with bars } ∧
      w'.space = (mapRows sys dir sys.rows w.space).2 := by
  cases fill_ok hd h with
  | already hpos => omega
  | failed _ _ _ hret => exact absurd rfl hret
  | @filled dir descs bars fds _ hfilled =>
    refine ⟨dir, descs, bars, hfilled, device?_setDevice ?_, rfl⟩
    rw [World.device?_eq_some.1 hd]
    rfl

end CronoPci
