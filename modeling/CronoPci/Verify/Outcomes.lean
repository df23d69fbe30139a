import CronoPci.Verify.BarErrors
import CronoPci.Verify.Config
import CronoPci.Verify.Program
import CronoPci.Verify.ScanOpen

/-!
# What calls do to the process

`Holdings` is what a caller holds together with the blocks, regions, files and
locked buffers of its process, and `Outcome` lists what a call of a legal
program can do to it. `Program.Lossy` says, from the arguments of a call and the
answers of the system, which calls leave something behind or close a file that
is not theirs. Later accounts are by cases on the outcome and look at no code.
-/

namespace CronoPci

open Posix Trans

/-! ## Calls that leave no trace -/

/-- A call that leaves blocks, regions, files and locked buffers as they are. -/
structure Still (w w' : World) : Prop where
  get : w'.heap.get = w.heap.get
  maps : w'.space.maps = w.space.maps
  kernel : w'.kernel = w.kernel
  fds : FdTable.Balanced w.fds w'.fds

section Blocks

variable {w w' : World} {hDev : Addr} {ret : Code}

theorem World.free_heap {p : Addr} (h : w.free p = .ok w') : ∃ heap, w' = { w with heap } := by
  unfold World.free at h
  split at h <;> cases h
  exact ⟨_, rfl⟩

theorem copyCmds_heap {p : Addr} {cmd : List KernelCmd} {n i : Nat}
    (h : copyCmds p cmd n i w = .ok w') : ∃ heap, w' = { w with heap } := by
  induction n generalizing i w with
  | zero =>
    cases h
    exact ⟨w'.heap, rfl⟩
  | succ n ih =>
    simp only [copyCmds] at h
    split at h
    · cases h
    · obtain ⟨w₁, hstore, h⟩ := bind_eq_ok h
      obtain ⟨heap, rfl⟩ := ih h
      unfold World.storeCmd at hstore
      repeat' split at hstore
      all_goals cases hstore
      exact ⟨heap, rfl⟩

theorem cardCleanupSetup_heap {sys : CleanupSys} {cmd : List KernelCmd} {n : UInt32}
    {calls : List CleanupCall} (h : cardCleanupSetup sys hDev cmd n w = .ok (ret, calls, w')) :
    ∃ heap, w' = { w with heap } := by
  obtain ⟨r, -, h⟩ := bind_eq_ok h
  cases r with
  | error ret' =>
    cases h
    exact ⟨w.heap, rfl⟩
  | ok d =>
  by_cases hfd : d.miscdevFd = 0
  · simp only [hfd, ↓reduceIte] at h
    cases h
    exact ⟨w.heap, rfl⟩
  simp only [hfd, ↓reduceIte] at h
  cases hmalloc : w.heap.malloc sys.calloc (.cmds (List.replicate n.toNat ⟨0, 0⟩)) with
  | none =>
    simp only [hmalloc, ne_eq, not_true_eq_false, ↓reduceIte] at h
    obtain ⟨w₁, hcopy, h⟩ := bind_eq_ok h
    cases h
    exact copyCmds_heap hcopy
  | some heap₀ =>
    simp only [hmalloc] at h
    obtain ⟨w₁, hcopy, h⟩ := bind_eq_ok h
    obtain ⟨heap, rfl⟩ := copyCmds_heap hcopy
    split at h
    · obtain ⟨w₂, hfree, h⟩ := bind_eq_ok h
      obtain ⟨heap', rfl⟩ := World.free_heap hfree
      cases h
      exact ⟨heap', rfl⟩
    · cases h
      exact ⟨heap, rfl⟩

end Blocks

section Files

variable {w w' : World} {hDev : Addr} {ret : Code}

theorem pciReadCfg32_files {sys : CfgSys} {dwOffset : UInt32} {val val' : Option UInt32}
    (h : pciReadCfg32 sys hDev dwOffset val w = .ok (ret, val', w')) :
    ∃ fds, FdTable.Balanced w.fds fds ∧ w' = { w with fds } := by
  obtain ⟨r, hinit, h'⟩ := bind_eq_ok h
  cases r with
  | error ret' =>
    cases h'
    exact ⟨w.fds, .refl _, rfl⟩
  | ok d =>
  cases val with
  | none =>
    cases h'
    exact ⟨w.fds, .refl _, rfl⟩
  | some v =>
    obtain ⟨v', fds, hbal, heq, -⟩ := pciReadCfg32_result hinit sys dwOffset v
    rw [heq] at h
    cases h
    exact ⟨fds, hbal, rfl⟩

theorem pciWriteCfg32_files {sys : CfgSys} {dwOffset val : UInt32}
    {content : List Char → Nat → UInt8}
    (h : pciWriteCfg32 sys hDev dwOffset val w = .ok (ret, content, w')) :
    ∃ fds, FdTable.Balanced w.fds fds ∧ w' = { w with fds } := by
  obtain ⟨r, hinit, h'⟩ := bind_eq_ok h
  cases r with
  | error ret' =>
    cases h'
    exact ⟨w.fds, .refl _, rfl⟩
  | ok d =>
    obtain ⟨content', fds, hbal, heq⟩ := pciWriteCfg32_result hinit sys dwOffset val
    rw [heq] at h
    cases h
    exact ⟨fds, hbal, rfl⟩

theorem scanLoop_balanced {sys : ScanSys} {dwVendorId dwDeviceId : UInt32} {ens : List Dirent}
    {k : Nat} {v : SlotVars} {ids : Ids} {index : Nat} {res res' : Option ScanResult}
    {fds fds' : FdTable}
    (h : scanLoop sys dwVendorId dwDeviceId ens k v ids index res fds = .ok (res', fds')) :
    FdTable.Balanced fds fds' := by
  induction ens generalizing k v ids index res fds with
  | nil =>
    cases h
    exact .refl _
  | cons en ens ih =>
    have hread := cronoReadVendorDevice_balanced
      (constructConfigFilePath (sscanfSlot en.dName v).toSlot)
      (sys.config k (constructConfigFilePath (sscanfSlot en.dName v).toSlot)) ids fds
    simp only [scanLoop] at h
    split at h
    · exact ih h
    split at h
    · exact hread.balanced (ih h)
    split at h
    · cases res with
      | none => cases h
      | some prior =>
        obtain ⟨res₁, -, h⟩ := bind_eq_ok h
        exact hread.balanced (ih h)
    · exact hread.balanced (ih h)

theorem pciScanDevices_files {sys : ScanSys} {dwVendorId dwDeviceId : UInt32}
    {res res' : Option ScanResult}
    (h : pciScanDevices sys dwVendorId dwDeviceId res w = .ok (ret, res', w')) :
    ∃ fds, FdTable.Balanced w.fds fds ∧ w' = { w with fds } := by
  unfold pciScanDevices at h
  split at h
  · cases h
    exact ⟨w.fds, .refl _, rfl⟩
  split at h
  · cases h
    exact ⟨w.fds, .refl _, rfl⟩
  split at h
  · cases h
    exact ⟨w.fds, .refl _, rfl⟩
  · obtain ⟨⟨res, fds⟩, hloop, h⟩ := bind_eq_ok h
    cases h
    exact ⟨_, (scanLoop_balanced hloop).bracket, rfl⟩

end Files

namespace Still

variable {w w' : World} {hDev : Addr} {ret : Code}

theorem refl (w : World) : Still w w := ⟨rfl, rfl, rfl, .refl _⟩

theorem files (h : ∃ fds, FdTable.Balanced w.fds fds ∧ w' = { w with fds }) : Still w w' := by
  obtain ⟨fds, hbal, rfl⟩ := h
  exact ⟨rfl, rfl, rfl, hbal⟩

theorem dropped {p : Addr} (h : Dropped p w w') (hfds : FdTable.Balanced w.fds w'.fds)
    (hmaps : w'.space.maps = w.space.maps) : Still w w' := ⟨h.get, hmaps, h.kernel, hfds⟩

theorem access {a : Access} {val : Option Nat} (h : a.exec w = .ok (ret, val, w')) :
    Still w w' := by
  obtain ⟨mem, rfl⟩ := a.call.exec_mem h
  exact ⟨rfl, rfl, rfl, .refl _⟩

/-- The block for the commands is freed again. -/
theorem cleanup {sys : CleanupSys} {cmd : List KernelCmd} {n : UInt32} {calls : List CleanupCall}
    (hlen : cmd.length = n.toNat)
    (h : cardCleanupSetup sys hDev cmd n w = .ok (ret, calls, w')) : Still w w' := by
  obtain ⟨heap, hheap⟩ := cardCleanupSetup_heap h
  refine ⟨?_, by rw [hheap], by rw [hheap], by rw [hheap]; exact .refl _⟩
  obtain ⟨r, hinit, h'⟩ := bind_eq_ok h
  cases r with
  | error ret' =>
    cases h'
    rfl
  | ok d =>
  obtain ⟨hd, hid⟩ := initHDevFunc_ok hinit
  by_cases hintact : CommandsIntact sys hDev cmd n w
  · obtain ⟨ret', calls', w₁, he, hget, -⟩ := hintact
    rw [h] at he
    cases he
    exact hget
  · rw [commands_intact_iff hd hid hlen, not_or, not_or, not_and_or, not_not] at hintact
    obtain ⟨hfd, hcount, hnull⟩ := hintact
    have hcmd : cmd ≠ [] := by
      rintro rfl
      exact hcount (UInt32.toNat_inj.1 hlen.symm)
    rw [cleanup_of_null hd hid hfd hlen hcmd hnull] at h
    cases h

end Still

/-! ## Contiguous buffers, with their regions -/

section Contig

variable {w w' : World} {hDev : Addr} {ret : Code}

/-- A Lock opens and closes no file, and one that fails maps nothing. -/
theorem lockContig_frame {sys : LockSys} {ppBuf buf p : Option Addr} {size : UInt32}
    (h : dmaContigBufLock sys hDev ppBuf size (some 0) w = .ok (ret, buf, p, w')) :
    w'.fds = w.fds ∧ (ret ≠ cronoSuccess → w'.space = w.space) := by
  simp only [dmaContigBufLock, ne_eq, not_true_eq_false, ↓reduceIte] at h
  obtain ⟨r, -, h⟩ := bind_eq_ok h
  cases r with
  | error ret' =>
    cases h
    exact ⟨rfl, fun _ => rfl⟩
  | ok d =>
  simp only [bind, Except.bind, pure, Except.pure] at h
  repeat' split at h
  all_goals cases h
  all_goals first
    | exact ⟨rfl, fun _ => rfl⟩
    | exact ⟨rfl, fun hret => absurd rfl hret⟩
    | obtain ⟨heap, he⟩ := World.free_heap ‹World.free _ _ = .ok _›
      rw [he]
      exact ⟨rfl, fun _ => rfl⟩

/-- An Unlock of a descriptor gets past the checks, and the module unlocks the
buffer. -/
def Unlocks (sys : UnlockSys) (hDev : Addr) (w : World) : Prop :=
  sys.ioctl = none ∧ match w.device? hDev with
    | some d => d.dwDeviceId ≠ 0 ∧ d.miscdevFd ≠ 0
    | none => False

instance (sys : UnlockSys) (hDev : Addr) (w : World) : Decidable (Unlocks sys hDev w) := by
  unfold Unlocks
  split <;> infer_instance

/-- What an Unlock of the descriptor `c` at `p` leaves. -/
structure Unlocked (sys : UnlockSys) (p : Addr) (c : DmaContig) (w w' : World) : Prop where
  get : w'.heap.get = Function.update w.heap.get p none
  kernel : w'.kernel = w.kernel.unlockContig c.id
  fds : w'.fds = w.fds
  space : w'.space =
    if sys.munmap.isNone then w.space.munmap c.pUserAddr c.dwBytes.toNat else w.space

theorem unlockContig_ok {sys : UnlockSys} {p : Addr} {c : DmaContig} (hc : w.contig? p = some c)
    (h : dmaContigBufUnlock sys hDev p w = .ok (ret, w')) :
    (¬Unlocks sys hDev w ∧ ret ≠ cronoSuccess ∧ w' = w) ∨
      (Unlocks sys hDev w ∧ ret = cronoSuccess ∧ Unlocked sys p c w w') := by
  have hderef := World.derefContig_eq_ok.2 hc
  have hp : p ≠ 0 := Heap.ne_zero_of_get (World.contig?_eq_some.1 hc)
  have hblock : (w.heap.get p).isSome := by rw [World.contig?_eq_some.1 hc]; rfl
  have hdebug : debugId sys.debug p w = .ok () := by
    unfold debugId
    rw [hderef]
    split <;> rfl
  obtain ⟨r, hinit, h⟩ := bind_eq_ok h
  cases r with
  | error ret' =>
    cases h
    obtain ⟨hret, hzero⟩ := initHDevFunc_error hinit
    refine Or.inl ⟨?_, hret, rfl⟩
    rintro ⟨-, hd⟩
    cases hd' : w.device? hDev with
    | none => simp [hd'] at hd
    | some d =>
      simp only [hd'] at hd
      exact hd.1 (hzero d hd')
  | ok d =>
  obtain ⟨hd, hid⟩ := initHDevFunc_ok hinit
  have hunlocks : Unlocks sys hDev w ↔ sys.ioctl = none ∧ d.miscdevFd ≠ 0 := by
    simp [Unlocks, hd, hid]
  rw [hunlocks]
  simp only [hp, ↓reduceIte, hdebug, hderef, bind, Except.bind, pure, Except.pure] at h
  by_cases hfd : d.miscdevFd = 0
  · rw [if_pos hfd] at h
    cases h
    exact Or.inl ⟨fun hu => hu.2 hfd, by decide, rfl⟩
  rw [if_neg hfd] at h
  cases hioctl : sys.ioctl with
  | some e =>
    simp only [hioctl] at h
    cases h
    exact Or.inl ⟨fun hu => by simp at hu, e.ne_zero, rfl⟩
  | none =>
    simp only [hioctl] at h
    refine Or.inr ⟨⟨rfl, hfd⟩, ?_⟩
    obtain ⟨heap, hheap⟩ := Heap.exists_free hblock
    obtain ⟨-, hget, -⟩ := Heap.free_eq_some.1 hheap
    simp only [World.free] at h
    by_cases hunmap : sys.munmap.isNone = true
    · simp only [hunmap, ↓reduceIte, hheap] at h
      cases h
      exact ⟨rfl, hget, rfl, rfl, by simp [hunmap]⟩
    · simp only [hunmap, Bool.false_eq_true, ↓reduceIte, hheap] at h
      cases h
      exact ⟨rfl, hget, rfl, rfl, by simp [hunmap]⟩

end Contig

/-! ## Holdings -/

/-- What a caller holds, and what its process has. -/
structure Holdings where
  live : List Handle
  contigs : List Addr
  sgs : List Addr
  get : Addr → Option Block
  maps : List (Mapping MapSource)
  file : Nat → Option Nat
  /-- The number of files opened so far. -/
  next : Nat
  /-- What the files were opened by. -/
  path : Nat → List Char
  contigLocked : Finset Int
  sgLocked : Finset Int

/-- The Open gets to the BARs. -/
def OpenSys.Reaches (sys : OpenSys) (slot : PciSlot) (w : World) : Prop :=
  ∃ v, OpensMisc sys slot w v

instance (sys : OpenSys) (slot : PciSlot) (w : World) : Decidable (sys.Reaches slot w) :=
  decidable_of_iff (∃ ens ∈ sys.opendir.toOption, ∃ v ∈ matchedVars slot ens sys.slotVars,
      (w.reg.iNewDev < 8 ∧ sys.malloc ≠ 0 ∧ (w.heap.get sys.malloc).isNone) ∧
        (readIds sys v w.fds).1 = cronoSuccess ∧
        sys.stat (miscdevPath (foundDevice sys slot v w.fds)) = none ∧
        sys.openMisc (miscdevPath (foundDevice sys slot v w.fds)) = none) (by
    constructor
    · rintro ⟨ens, hens, v, hv, ⟨hroom, hne, hfresh⟩, hids, hstat, hmisc⟩
      have hdir : sys.opendir = .ok ens := by
        cases hdir : sys.opendir <;> simp_all [Except.toOption]
      exact ⟨v, ⟨⟨ens, hdir, hv⟩, hroom, hne, Option.isNone_iff_eq_none.1 hfresh⟩, hids, hstat,
        hmisc⟩
    · rintro ⟨v, ⟨⟨ens, hdir, hv⟩, hroom, hne, hfresh⟩, hids, hstat, hmisc⟩
      exact ⟨ens, by rw [hdir]; rfl, v, hv, ⟨hroom, hne, by rw [hfresh]; rfl⟩, hids, hstat,
        hmisc⟩)

namespace Program

def holdings (p : Program) : Holdings where
  live := p.live
  contigs := p.contigs
  sgs := p.sgs
  get := p.world.heap.get
  maps := p.world.space.maps
  file := p.world.fds.file
  next := p.world.fds.next
  path := p.world.fds.path
  contigLocked := p.world.kernel.contigLocked
  sgLocked := p.world.kernel.sgLocked

/-- The call leaves something behind or closes a file that is not the device's:
an Open or a description of BARs that keeps regions when it fails, a Close of a
device whose number names another file or that is not in range, an unload that
leaves files, regions or blocks of live devices, a Lock that keeps a buffer when
it fails, and an Unlock whose `munmap` fails. -/
def Lossy (p : Program) : Call → Prop
  | .use (.registry (.openDev sys slot)) =>
    sys.Reaches slot p.world ∧ sys.bars.Strays slot p.world.space
  | .use (.registry (.getBars sys h)) => ∃ d ∈ p.world.device? h.addr, d.dwDeviceId ≠ 0 ∧
      d.bars.barCount = 0 ∧ sys.Strays d.pciSlot p.world.space
  | .use (.registry (.closeDev _ h)) => ∃ d ∈ p.world.device? h.addr, d.dwDeviceId ≠ 0 ∧
      ∃ f ∈ p.world.fds.file d.miscdevFd, f ≠ h.file ∨ ¬p.world.reg.Holds h.addr
  | .use (.registry .unload) => ∃ h ∈ p.live, ¬p.world.reg.Holds h.addr ∨
      ∃ d ∈ p.world.device? h.addr, p.world.fds.file d.miscdevFd = some h.file ∨
        ∃ j, (d.bars.barDescs.get j).userAddress ≠ 0
  | .use (.lockContig sys hDev ppBuf dwDMABufSize ppDma) =>
    ppDma = some 0 ∧ LockLeaks sys hDev ppBuf dwDMABufSize p.world
  | .use (.unlockContig sys hDev _) => Unlocks sys hDev p.world ∧ sys.munmap ≠ none
  | _ => False

end Program

instance (p : Program) : (c : Call) → Decidable (p.Lossy c)
  | .use (.registry (.openDev ..)) | .use (.registry (.getBars ..))
  | .use (.registry (.closeDev ..)) | .use (.registry .unload) | .use (.lockContig ..)
  | .use (.unlockContig ..) | .use (.scan ..) | .use (.access _) | .use (.readCfg ..)
  | .use (.writeCfg ..) | .use (.lockSg ..) | .use (.unlockSg ..) | .cleanup ..
  | .query _ => by
    unfold Program.Lossy
    infer_instance

/-! ## Outcomes -/

/-- What a caller holds: a handle, or the descriptor of a locked buffer. -/
inductive Key
  | device (h : Handle)
  | contig (pDma : Addr)
  | sg (pDma : Addr)

/-- The call is made to release what the key stands for. -/
def Call.Gives : Call → Key → Prop
  | .use (.registry (.closeDev _ h)), .device h' => h' = h
  | .use (.registry .unload), .device _ => True
  | .use (.unlockContig _ _ pDma), .contig pDma' => pDma' = pDma
  | .use (.unlockSg _ _ pDma), .sg pDma' => pDma' = pDma
  | _, _ => False

/-- The page size that a call asks the system for. -/
def Call.pageSize : Call → Option Nat
  | .use (.lockContig sys ..) => some sys.pageSize
  | _ => none

/-- What the system answers to a call that describes BARs. -/
def Call.describes : Call → Option BarSys
  | .use (.registry (.openDev sys _)) => some sys.bars
  | .use (.registry (.getBars sys _)) => some sys
  | _ => none

theorem gives_closeDev (munmap : Fin 6 → Option Errno) (h : Handle) (k : Key) :
    Call.Gives (.use (.registry (.closeDev munmap h))) k ↔ k = .device h := by
  cases k <;> simp [Call.Gives]

theorem gives_unlockContig (sys : UnlockSys) (hDev pDma : Addr) (k : Key) :
    Call.Gives (.use (.unlockContig sys hDev pDma)) k ↔ k = .contig pDma := by
  cases k <;> simp [Call.Gives]

theorem gives_unlockSg (sys : SgUnlockSys) (hDev pDma : Addr) (k : Key) :
    Call.Gives (.use (.unlockSg sys hDev pDma)) k ↔ k = .sg pDma := by
  cases k <;> simp [Call.Gives]

/-- The device is named for its own id and slot. -/
def KernelDevice.Named (d : KernelDevice) : Prop :=
  d.miscdevName = constructMiscdevName d.dwDeviceId.toUInt16 d.pciSlot.vars

/-- Files were opened, and those of before keep their paths. -/
structure Program.Extends (p : Program) (next : Nat) (path : Nat → List Char) : Prop where
  le : p.world.fds.next ≤ next
  path_eq : ∀ f < p.world.fds.next, path f = p.world.fds.path f

theorem Program.extends_of_effect {p : Program} {t : FdTable} {file : Nat → Option Nat}
    (h : FdTable.Effect p.world.fds t file) : p.Extends t.next t.path := ⟨h.next_le, h.path_eq⟩

/-- What a call can do to the holdings. -/
inductive Outcome (p : Program) (c : Call) : Holdings → Prop
  /-- Nothing; files of its own are closed again. -/
  | same {next : Nat} {path : Nat → List Char} (hclean : ¬p.Lossy c)
      (hlog : p.Extends next path) : Outcome p c { p.holdings with next, path }
  /-- A failed Open or description of BARs keeps regions. -/
  | strayRegions {space : Space} {next : Nat} {path : Nat → List Char} (hlossy : p.Lossy c)
      (hsub : p.world.space.maps ⊆ space.maps) (hnew : ∃ m ∈ space.maps, m ∉ p.world.space.maps)
      (hlog : p.Extends next path) :
      Outcome p c { p.holdings with maps := space.maps, next, path }
  | opened {sys : BarSys} {a : Addr} {f next : Nat} {path : Nat → List Char} {d : KernelDevice}
      {dir : List Char} {descs : List BarDesc} (hclean : ¬p.Lossy c)
      (hfresh : p.world.heap.get a = none) (hnum : p.world.fds.file d.miscdevFd = none)
      (hf : p.world.fds.next ≤ f) (hnext : f < next)
      (hfilled : Filled sys d p.world dir descs d.bars) (hsys : c.describes = some sys)
      (hnamed : d.Named) (hpos : d.miscdevFd ≠ 0) (hlog : p.Extends next path)
      (hpath : path f = miscdevPath d) : Outcome p c { p.holdings with
        live := ⟨a, f⟩ :: p.live
        get := Function.update p.world.heap.get a (some (.device d))
        maps := (mapRows sys dir sys.rows p.world.space).2.maps
        file := Function.update p.world.fds.file d.miscdevFd (some f)
        next
        path }
  | described {sys : BarSys} {h : Handle} {d : KernelDevice} {bars : BarTable} {dir : List Char}
      {descs : List BarDesc} {next : Nat} {path : Nat → List Char} (hclean : ¬p.Lossy c)
      (hh : h ∈ p.live) (hd : p.world.device? h.addr = some d) (hcount : d.bars.barCount = 0)
      (hfilled : Filled sys d p.world dir descs bars) (hlog : p.Extends next path)
      (hsys : c.describes = some sys) : Outcome p c { p.holdings with
        get := Function.update p.world.heap.get h.addr (some (.device { d with bars }))
        maps := (mapRows sys dir sys.rows p.world.space).2.maps
        next
        path }
  /-- A Close fails after it closed the number of the device. -/
  | closeFailed {h : Handle} {d : KernelDevice} {bars : BarTable} {space : Space}
      (hgives : ∀ k, c.Gives k ↔ k = .device h) (hh : h ∈ p.live)
      (hd : p.world.device? h.addr = some d)
      (hlossy : p.Lossy c ↔ ∃ f ∈ p.world.fds.file d.miscdevFd, f ≠ h.file)
      (heff : UnmapEffect d.bars p.world.space bars space) : Outcome p c { p.holdings with
        get := Function.update p.world.heap.get h.addr (some (.device { d with bars }))
        maps := space.maps
        file := Function.update p.world.fds.file d.miscdevFd none }
  | closed {h : Handle} {d : KernelDevice} {bars : BarTable} {space : Space}
      (hgives : ∀ k, c.Gives k ↔ k = .device h) (hh : h ∈ p.live)
      (hd : p.world.device? h.addr = some d)
      (hlossy : p.Lossy c ↔ ∃ f ∈ p.world.fds.file d.miscdevFd, f ≠ h.file)
      (heff : UnmapEffect d.bars p.world.space bars space)
      (hzero : ∀ j, (bars.barDescs.get j).userAddress = 0) : Outcome p c { p.holdings with
        live := p.live.erase h
        get := Function.update p.world.heap.get h.addr none
        maps := space.maps
        file := Function.update p.world.fds.file d.miscdevFd none }
  /-- A Close succeeds on a device that is not in range. -/
  | closedAbsent {h : Handle} {d : KernelDevice} (hlossy : p.Lossy c) (hh : h ∈ p.live)
      (hd : p.world.device? h.addr = some d) (hgives : ∀ k, c.Gives k ↔ k = .device h) :
      Outcome p c { p.holdings with
        live := p.live.erase h
        file := Function.update p.world.fds.file d.miscdevFd none }
  | unloaded {as : List Addr} (hc : c = .use (.registry .unload))
      (has : ∀ a, a ∈ as ↔ a ≠ 0 ∧ p.world.reg.Holds a) : Outcome p c { p.holdings with
        live := []
        get := fun a => if a ∈ as then none else p.world.heap.get a }
  | lockedContig {q : Addr} {b : DmaContig} {h : Handle} {d : KernelDevice} {f n : Nat}
      {space : Space} (hclean : ¬p.Lossy c) (hfresh : p.world.heap.get q = none)
      (hid : b.id ∉ p.world.kernel.contigLocked) (hh : h ∈ p.live)
      (hd : p.world.device? h.addr = some d) (hf : p.world.fds.file d.miscdevFd = some f)
      (hsize : c.pageSize = some n)
      (hmap : p.world.space.mmap
        ⟨b.pUserAddr, b.dwBytes.toNat, ⟨p.world.fds.path f, b.id * n⟩⟩ = some space) :
      Outcome p c { p.holdings with
        contigs := q :: p.contigs
        get := Function.update p.world.heap.get q (some (.contig b))
        maps := space.maps
        contigLocked := insert b.id p.world.kernel.contigLocked }
  /-- A failed Lock keeps its buffer. -/
  | strayBuffer {id : Int} (hlossy : p.Lossy c) (hid : id ∉ p.world.kernel.contigLocked) :
      Outcome p c { p.holdings with contigLocked := insert id p.world.kernel.contigLocked }
  | unlockedContig {q : Addr} {b : DmaContig} (hclean : ¬p.Lossy c)
      (hgives : ∀ k, c.Gives k ↔ k = .contig q) (hq : q ∈ p.contigs)
      (hb : p.world.contig? q = some b) :
      Outcome p c { p.holdings with
        contigs := p.contigs.erase q
        get := Function.update p.world.heap.get q none
        maps := (p.world.space.munmap b.pUserAddr b.dwBytes.toNat).maps
        contigLocked := p.world.kernel.contigLocked.erase b.id }
  /-- An Unlock succeeds although `munmap` failed. -/
  | unlockedMapped {q : Addr} {b : DmaContig} (hlossy : p.Lossy c) (hq : q ∈ p.contigs)
      (hb : p.world.contig? q = some b) : Outcome p c { p.holdings with
        contigs := p.contigs.erase q
        get := Function.update p.world.heap.get q none
        contigLocked := p.world.kernel.contigLocked.erase b.id }
  | lockedSg {q : Addr} {b : DmaSg} {page : List DmaPage} (hclean : ¬p.Lossy c)
      (hfresh : p.world.heap.get q = none) (hpage : p.world.heap.get b.page = none)
      (hne : b.page ≠ q) (hid : b.id ∉ p.world.kernel.sgLocked) : Outcome p c { p.holdings with
        sgs := q :: p.sgs
        get := Function.update (Function.update p.world.heap.get q (some (.sg b))) b.page
          (some (.pages page))
        sgLocked := insert b.id p.world.kernel.sgLocked }
  | unlockedSg {q : Addr} {b : DmaSg} {page : List DmaPage} (hclean : ¬p.Lossy c)
      (hgives : ∀ k, c.Gives k ↔ k = .sg q) (hq : q ∈ p.sgs) (hb : p.world.sg? q = some b)
      (hpage : p.world.pages? b.page = some page) :
      Outcome p c { p.holdings with
        sgs := p.sgs.erase q
        get := Function.update (Function.update p.world.heap.get b.page none) q none
        sgLocked := p.world.kernel.sgLocked.erase b.id }

/-! ## Every call has one of these outcomes -/

/-- Regions added in front of the old ones are not among them. -/
theorem exists_new_region {space space' : Space} (h : space.maps <:+ space'.maps)
    (hne : space'.maps ≠ space.maps) : ∃ m ∈ space'.maps, m ∉ space.maps := by
  obtain ⟨new, hnew⟩ := h
  cases new with
  | nil => exact absurd hnew.symm hne
  | cons m new =>
    have hmem : m ∈ space'.maps := by
      rw [← hnew]
      exact List.mem_cons_self
    refine ⟨m, hmem, ?_⟩
    intro hold
    have hpair := space'.disjoint
    rw [← hnew, List.cons_append, List.pairwise_cons] at hpair
    exact (hpair.1 m (List.mem_append_right _ hold)).start_ne (space'.pos m hmem).2
      (space'.pos m hmem).2 rfl

theorem BarSys.mapped_new {sys : BarSys} {slot : PciSlot} {space : Space}
    (h : (sys.mapped slot space).maps ≠ space.maps) :
    ∃ m ∈ (sys.mapped slot space).maps, m ∉ space.maps := by
  apply exists_new_region _ h
  unfold BarSys.mapped
  split
  · split
    · exact mapRows_suffix ..
    · exact List.suffix_refl _
  · exact List.suffix_refl _

section Steps

variable {p p' : Program} {c : Call}

/-- A call that leaves no trace and keeps what is held. -/
theorem Outcome.still (h : Still p.world p'.world) (hclean : ¬p.Lossy c)
    (hlive : p'.live = p.live) (hcontigs : p'.contigs = p.contigs) (hsgs : p'.sgs = p.sgs) :
    Outcome p c p'.holdings := by
  have hsame : p'.holdings = { p.holdings with
      next := p'.world.fds.next
      path := p'.world.fds.path } := by
    simp only [Program.holdings, hlive, hcontigs, hsgs, h.get, h.maps, h.kernel, h.fds.file_eq]
  rw [hsame]
  exact .same hclean ⟨h.fds.next_le, h.fds.path_eq⟩

theorem Program.step_registry {op : Op} (hs : p.step (.use (.registry op)) = .ok p') :
    ∃ s, p.client.session.step op = .ok s ∧
      p' = { p with client := { p.client with session := s } } := by
  obtain ⟨c', hc', hs⟩ := bind_eq_ok hs
  obtain ⟨s, hstep, hc'⟩ := bind_eq_ok hc'
  cases hc'
  cases hs
  exact ⟨s, hstep, rfl⟩

theorem Session.step_openDev_eq {s s' : Session} {sys : OpenSys} {slot : PciSlot}
    (hs : s.step (.openDev sys slot) = .ok s') :
    ∃ ret p w, OpenResult sys slot s.world (.ok (ret, p, w)) ∧
      pciDeviceOpen sys (some 0) (some slot) s.world = .ok (ret, some p, w) ∧ s' = { s with
        world := w
        live := if ret = cronoSuccess ∧ p ≠ 0 then ⟨p, Session.fileOf w p⟩ :: s.live else s.live
        peak := max s.peak (s.live.length + 1) } := by
  obtain ⟨r, hr, he⟩ := pciDeviceOpen_result sys 0 slot s.world
  simp only [Session.step, Session.openDev, he] at hs
  cases r with
  | error f => cases hs
  | ok r =>
    obtain ⟨ret, p, w⟩ := r
    cases hs
    exact ⟨ret, p, w, hr, he, rfl⟩

theorem outcome_openDev {sys : OpenSys} {slot : PciSlot}
    (hs : p.step (.use (.registry (.openDev sys slot))) = .ok p') :
    Outcome p (.use (.registry (.openDev sys slot))) p'.holdings := by
  obtain ⟨s, hstep, rfl⟩ := Program.step_registry hs
  obtain ⟨ret, ph, w', hr, he, rfl⟩ := Session.step_openDev_eq hstep
  rw [show p.client.session.world = p.world from rfl] at hr he
  -- which Opens reach the BARs
  have hreaches (hno : ∀ v, ¬OpensMisc sys slot p.world v) :
      ¬p.Lossy (.use (.registry (.openDev sys slot))) := by
    rintro ⟨⟨v, hv⟩, -⟩
    exact hno v hv
  cases hr with
  | noDirectory hdir =>
    refine .still (.refl _) (hreaches fun v hv => not_found_of_error hdir v hv.found) ?_ rfl rfl
    simp [Program.live, Client.live]
  | notFound hens hv hfds =>
    refine .still ⟨rfl, rfl, rfl, hfds⟩
      (hreaches fun v hv' => not_found_of_none hens hv v hv'.found) ?_ rfl rfl
    simp [Program.live, Client.live]
  | @failed v _ _ hv hnot hret hdrop hfds hspace =>
    refine .still (.dropped hdrop hfds (congrArg _ hspace)) (hreaches ?_) ?_ rfl rfl
    · intro v' hv'
      rw [hv.found.unique hv'.found] at hnot
      exact hnot hv'
    · simp [Program.live, Client.live, hret]
  | @noBars v _ _ hv hfails hret hdrop hfds hmaps =>
    have hspace := hv.space he
    by_cases hstray : sys.bars.Strays slot p.world.space
    · have hout : Outcome p (.use (.registry (.openDev sys slot))) { p.holdings with
          maps := (sys.bars.mapped slot p.world.space).maps
          next := w'.fds.next
          path := w'.fds.path } :=
        .strayRegions ⟨⟨v, hv⟩, hstray⟩ (BarSys.mapped_grows sys.bars slot p.world.space)
          (BarSys.mapped_new ((BarSys.strays_iff hfails).1 hstray)) (Program.extends_of_effect hfds)
      convert hout using 1
      simp [Program.holdings, Program.live, Program.sgs, Program.world, Client.live,
        Client.world, hret, hdrop.get, hdrop.kernel, hspace, hfds.file_eq]
    · rw [BarSys.strays_iff hfails, not_not] at hstray
      refine .still (.dropped hdrop hfds ((congrArg _ hspace).trans hstray)) ?_ ?_ rfl rfl
      · rintro ⟨-, h⟩
        exact (BarSys.strays_iff hfails).1 h hstray
      · simp [Program.live, Client.live, hret]
  | @opened v d _ hv hopened =>
    obtain ⟨f, hf, -, hpath, hfds⟩ := hopened.fds
    obtain ⟨bars, hd⟩ := hopened.device
    obtain ⟨dir, descs, hfilled, hspace⟩ := hopened.bars
    have hnum : d.miscdevFd = p.world.miscNumber := by rw [hd]
    have hslot : d.pciSlot = slot := by rw [hd]; rfl
    have hnew : w'.device? sys.malloc = some d := by
      rw [World.device?_update hopened.get, if_pos rfl]
    have hown : w'.fds.file d.miscdevFd = some f := by
      rw [hfds.file_eq, hnum, Function.update_self]
    have hfile : Session.fileOf w' sys.malloc = f := by simp [Session.fileOf, hnew, hown]
    have hclean : ¬p.Lossy (.use (.registry (.openDev sys slot))) := by
      rintro ⟨-, h⟩
      rw [← hslot] at h
      exact hfilled.not_strays h
    have hnamed : d.Named := by
      rw [hd, hv.found.eq_vars]
      simp [KernelDevice.Named, foundDevice, newDevice]
    have hout : Outcome p (.use (.registry (.openDev sys slot))) _ :=
      .opened hclean hv.fresh (by rw [hnum, World.file_miscNumber]) hf (w'.fds.lt_next _ _ hown)
        hfilled rfl hnamed (by rw [hnum]; exact p.world.miscNumber_ne_zero)
        (Program.extends_of_effect hfds) hpath
    convert hout using 1
    simp [Program.holdings, Program.live, Program.sgs, Program.world, Client.live, Client.world,
      hv.ne_null, hfile, hopened.get, hopened.kernel, hspace, hfds.file_eq, hnum]

theorem Session.step_getBars_eq {s s' : Session} {sys : BarSys} {h : Handle} {d : KernelDevice}
    (hd : s.world.device? h.addr = some d) (hs : s.step (.getBars sys h) = .ok s') :
    ∃ w, s' = { s with world := w } ∧ ((d.dwDeviceId = 0 ∧ w = s.world) ∨
      (d.dwDeviceId ≠ 0 ∧ ∃ ret, fillDeviceBarDescriptions sys h.addr s.world = .ok (ret, w))) := by
  simp only [Session.step, Session.getBars, getBarDescriptions, initHDevFunc_of_device hd] at hs
  obtain ⟨⟨ret, n, t, w⟩, he, hs⟩ := bind_eq_ok hs
  cases hs
  refine ⟨w, rfl, ?_⟩
  by_cases hid : d.dwDeviceId = 0
  · simp only [hid, ↓reduceIte] at he
    cases he
    exact Or.inl ⟨hid, rfl⟩
  refine Or.inr ⟨hid, ?_⟩
  simp only [hid, ↓reduceIte, Option.isNone_some, Bool.false_eq_true, or_self] at he
  change (fillDeviceBarDescriptions sys h.addr s.world >>= _) = _ at he
  obtain ⟨⟨ret', w₁⟩, hfill, he⟩ := bind_eq_ok he
  simp only at he
  split at he
  · cases he
    exact ⟨_, hfill⟩
  · obtain ⟨d', -, he⟩ := bind_eq_ok he
    cases he
    exact ⟨_, hfill⟩

theorem outcome_getBars {sys : BarSys} {h : Handle} (hi : ClientInv p.client) (hh : h ∈ p.live)
    (hs : p.step (.use (.registry (.getBars sys h))) = .ok p') :
    Outcome p (.use (.registry (.getBars sys h))) p'.holdings := by
  obtain ⟨s, hstep, rfl⟩ := Program.step_registry hs
  obtain ⟨d, hd⟩ := hi.reg.device h hh
  have hlossy : p.Lossy (.use (.registry (.getBars sys h))) ↔ d.dwDeviceId ≠ 0 ∧
      d.bars.barCount = 0 ∧ sys.Strays d.pciSlot p.world.space := by
    simp only [Program.Lossy, show p.world.device? h.addr = some d from hd, Option.mem_some_iff,
      exists_eq_left']
  obtain ⟨w, rfl, ⟨hid, rfl⟩ | ⟨hid, ret, hfill⟩⟩ := Session.step_getBars_eq hd hstep
  · exact .still (.refl _) (fun hl => (hlossy.1 hl).1 hid) rfl rfl rfl
  have hends := fill_ok hd hfill
  cases hends with
  | already hcount =>
    refine .still (.refl _) (fun hl => ?_) rfl rfl rfl
    have := (hlossy.1 hl).2.1
    omega
  | @failed _ fds space hcount hret hfails hfds hmaps =>
    have hspace : space = sys.mapped d.pciSlot p.world.space :=
      fillDeviceBarDescriptions_space hd hcount hfill
    have hiff : sys.Strays d.pciSlot p.world.space ↔ _ := BarSys.strays_iff hfails
    by_cases hstray : sys.Strays d.pciSlot p.world.space
    · have hout : Outcome p (.use (.registry (.getBars sys h))) { p.holdings with
          maps := (sys.mapped d.pciSlot p.world.space).maps
          next := fds.next
          path := fds.path } :=
        .strayRegions (hlossy.2 ⟨hid, hcount, hstray⟩)
          (BarSys.mapped_grows sys d.pciSlot p.world.space)
          (BarSys.mapped_new (hiff.1 hstray)) (Program.extends_of_effect hfds)
      convert hout using 1
      rw [← hspace]
      simp only [Program.holdings, Program.live, Program.sgs, Program.world, Client.live,
        Client.world, hfds.file_eq]
    · refine .still ⟨rfl, ?_, rfl, hfds⟩ (fun hl => hstray (hlossy.1 hl).2.2) rfl rfl rfl
      rw [hiff, not_not] at hstray
      exact (congrArg _ hspace).trans hstray
  | @filled dir descs bars fds hcount hfilled hfds =>
    have hblock : (p.client.session.world.heap.get h.addr).isSome := by
      rw [show p.client.session.world.heap.get h.addr = _ from World.device?_eq_some.1 hd]
      rfl
    have hout : Outcome p (.use (.registry (.getBars sys h))) { p.holdings with
        get := Function.update p.world.heap.get h.addr (some (.device { d with bars }))
        maps := (mapRows sys dir sys.rows p.world.space).2.maps
        next := fds.next
        path := fds.path } :=
      .described (fun hl => hfilled.not_strays (hlossy.1 hl).2.2) hh hd hcount hfilled
        (Program.extends_of_effect hfds) rfl
    convert hout using 1
    simp only [Program.holdings, Program.live, Program.sgs, Program.world, Client.live,
      Client.world, hfds.file_eq, World.setDevice, Heap.get_set hblock]

/-- A loop that gets through a table leaves no address in it. -/
theorem unmapBars_addresses {munmap : Fin 6 → Option Errno} {t t' : BarTable} {space space' : Space}
    (htail : t.TailZero) (h : unmapBars munmap t.indices t space = (none, t', space')) (j : Fin 6) :
    (t'.barDescs.get j).userAddress = 0 := by
  have heff := unmapBars_effect munmap t.indices t space
  have hend : (unmapBars munmap t.indices t space).1 = none := by rw [h]
  have hzero := unmapBars_zero hend
  rw [h] at heff hzero
  by_cases hj : (j : Nat) < t.barCount
  · exact hzero j (BarTable.mem_indices.2 hj)
  · rcases heff.desc j with he | ⟨he, -⟩ <;> rw [he]
    rw [htail j (by omega)]
    rfl

theorem outcome_closeDev {munmap : Fin 6 → Option Errno} {h : Handle} (hi : ClientInv p.client)
    (hh : h ∈ p.live) (htail : ∀ d, p.world.device? h.addr = some d → d.bars.TailZero)
    (hs : p.step (.use (.registry (.closeDev munmap h))) = .ok p') :
    Outcome p (.use (.registry (.closeDev munmap h))) p'.holdings := by
  obtain ⟨s, hstep, rfl⟩ := Program.step_registry hs
  obtain ⟨d, hd⟩ := hi.reg.device h hh
  have hlossy : p.Lossy (.use (.registry (.closeDev munmap h))) ↔ d.dwDeviceId ≠ 0 ∧
      ∃ f ∈ p.world.fds.file d.miscdevFd, f ≠ h.file ∨ ¬p.world.reg.Holds h.addr := by
    simp only [Program.Lossy, show p.world.device? h.addr = some d from hd, Option.mem_some_iff,
      exists_eq_left']
  have hblock : (p.client.session.world.heap.get h.addr).isSome := by
    rw [show p.client.session.world.heap.get h.addr = _ from World.device?_eq_some.1 hd]
    rfl
  obtain ⟨ret, w, hc, hor⟩ := step_closeDev hstep
  have hr := pciDeviceClose_result munmap hd hi.reg.distinct
  rw [show pciDeviceClose munmap h.addr p.client.world = _ from hc] at hr
  -- a Close of a device in range is lossy only for the number
  have hforeign (hid : d.dwDeviceId ≠ 0) (hp : p.world.reg.Holds h.addr) :
      p.Lossy (.use (.registry (.closeDev munmap h))) ↔
        ∃ f ∈ p.world.fds.file d.miscdevFd, f ≠ h.file := by
    rw [hlossy]
    simp only [hid, ne_eq, not_false_eq_true, hp, not_true_eq_false, or_false, true_and]
  cases hr with
  | invalid hid =>
    rcases hor with ⟨hret, -⟩ | ⟨-, rfl⟩
    · exact absurd hret (by decide)
    · exact .still (.refl _) (fun hl => (hlossy.1 hl).1 hid) rfl rfl rfl
  | badFd hid hfd =>
    rcases hor with ⟨hret, -⟩ | ⟨-, rfl⟩
    · exact absurd hret (by decide)
    have hfd' : p.world.fds.file d.miscdevFd = none := hfd
    have hout : Outcome p (.use (.registry (.closeDev munmap h))) _ :=
      .closeFailed (gives_closeDev munmap h) hh hd (by rw [hlossy]; simp [hfd'])
        (.refl d.bars p.world.space)
    convert hout using 1
    have hget : Function.update p.world.heap.get h.addr (some (.device { d with bars := d.bars })) =
        p.world.heap.get := by
      rw [← show p.world.heap.get h.addr = _ from World.device?_eq_some.1 hd,
        Function.update_eq_self]
    rw [hget]
    rfl
  | closed hid hfd hfree =>
    cases hfree with
    | @unmapFails e bars space hp hun =>
      rcases hor with ⟨hret, -⟩ | ⟨-, rfl⟩
      · exact absurd hret e.ne_zero
      have heff := unmapBars_effect munmap d.bars.indices d.bars (closeMisc d p.world).space
      rw [show (closeMisc d p.world).space = (closeMisc d p.client.world).space from rfl, hun]
        at heff
      have hout : Outcome p (.use (.registry (.closeDev munmap h))) _ :=
        .closeFailed (gives_closeDev munmap h) hh hd (hforeign hid hp) heff
      convert hout using 1
      simp only [Program.holdings, Program.live, Program.sgs, Program.world, Client.live,
        Client.world, World.setDevice, closeMisc, Heap.get_set hblock, FdTable.file_close]
      rfl
    | @released i bars space w₁ _ hroom hlt hp hun hfreed hshrunk =>
      rcases hor with ⟨-, rfl⟩ | ⟨hret, -⟩
      case inr => exact absurd rfl hret
      have heff := unmapBars_effect munmap d.bars.indices d.bars (closeMisc d p.world).space
      rw [show (closeMisc d p.world).space = (closeMisc d p.client.world).space from rfl, hun]
        at heff
      have hout : Outcome p (.use (.registry (.closeDev munmap h))) _ :=
        .closed (gives_closeDev munmap h) hh hd (hforeign hid ⟨i, hlt, hp⟩) heff
          (unmapBars_addresses (htail d hd) hun)
      convert hout using 1
      simp only [Program.holdings, Program.live, Program.sgs, Program.world, Client.live,
        Client.world, hshrunk.heap, hshrunk.space, hshrunk.fds, hshrunk.kernel, hfreed.get,
        hfreed.space_eq, hfreed.fds, hfreed.kernel, closeMisc, FdTable.file_close]
      rfl
    | absent hroom hp hshrunk =>
      rcases hor with ⟨-, rfl⟩ | ⟨hret, -⟩
      case inr => exact absurd rfl hret
      obtain ⟨f, hf⟩ := Option.ne_none_iff_exists'.1 hfd
      have hout : Outcome p (.use (.registry (.closeDev munmap h))) _ :=
        .closedAbsent (hlossy.2 ⟨hid, f, hf, Or.inr hp⟩) hh hd (gives_closeDev munmap h)
      convert hout using 1
      simp only [Program.holdings, Program.live, Program.sgs, Program.world, Client.live,
        Client.world, hshrunk.heap, hshrunk.space, hshrunk.fds, hshrunk.kernel, closeMisc,
        FdTable.file_close]
      rfl

theorem outcome_unload (hi : ClientInv p.client)
    (hs : p.step (.use (.registry .unload)) = .ok p') :
    Outcome p (.use (.registry .unload)) p'.holdings := by
  obtain ⟨s, hstep, rfl⟩ := Program.step_registry hs
  obtain ⟨as, w, hw, hfreed, -, hmem⟩ := hi.reg.onUnload
  simp only [Session.step, Session.unload] at hstep
  rw [show p.client.session.world = p.client.world from rfl, hw] at hstep
  cases hstep
  have hout : Outcome p (.use (.registry .unload)) _ := .unloaded rfl hmem
  convert hout using 1
  have hget : w.heap.get = fun a => if a ∈ as then none else p.client.session.world.heap.get a :=
    funext hfreed.get
  simp only [Program.holdings, Program.live, Program.sgs, Program.world, Client.live, Client.world,
    hget, hfreed.space, hfreed.fds, hfreed.kernel]

theorem outcome_lockContig {sys : LockSys} {hDev : Addr} {ppBuf ppDma : Option Addr}
    {size : UInt32} (hpasses : p.Passes hDev)
    (hs : p.step (.use (.lockContig sys hDev ppBuf size ppDma)) = .ok p') :
    Outcome p (.use (.lockContig sys hDev ppBuf size ppDma)) p'.holdings := by
  obtain ⟨⟨ret, buf, q, w⟩, he, hs⟩ := bind_eq_ok hs
  cases hs
  by_cases hnull : ppDma = some 0
  case neg =>
    -- the call looks at nothing
    have hw : w = p.world := by
      cases ppDma with
      | none =>
        cases he
        rfl
      | some a =>
        have ha : a ≠ 0 := fun h0 => hnull (by rw [h0])
        simp only [dmaContigBufLock, ne_eq, ha, not_false_eq_true, ↓reduceIte] at he
        split at he <;> cases he
        rfl
    subst hw
    refine .still (.refl _) (fun hl => hnull hl.1) rfl ?_ rfl
    simp [hnull]
  subst hnull
  obtain ⟨hfds, hspace⟩ := lockContig_frame he
  have hr := lock_result sys hDev ppBuf size p.world
  rw [he] at hr
  cases hr with
  | refused hgrant hret =>
    refine .still (.refl _) ?_ rfl ?_ rfl
    · rintro ⟨-, hl⟩
      simp only [LockLeaks, hgrant] at hl
    · simp [hret]
  | @noMemory d id dmaHandle hgrant hmalloc =>
    obtain ⟨-, -, -, -, -, -, hid⟩ := lockGranted_eq_some.1 hgrant
    have hout : Outcome p (.use (.lockContig sys hDev ppBuf size (some 0))) { p.holdings with
        contigLocked := insert id p.world.kernel.contigLocked } :=
      .strayBuffer ⟨rfl, by simp only [LockLeaks, hgrant]; tauto⟩ hid
    convert hout using 1
    have hret : -enomem ≠ cronoSuccess := by decide
    simp [Program.holdings, Program.live, Program.sgs, Program.world, Client.live, Client.world,
      Client.setWorld, hret]
  | @noMap d id dmaHandle w hgrant hne hfresh hmap hget hkernel =>
    obtain ⟨-, -, -, -, -, -, hid⟩ := lockGranted_eq_some.1 hgrant
    have hout : Outcome p (.use (.lockContig sys hDev ppBuf size (some 0))) { p.holdings with
        contigLocked := insert id p.world.kernel.contigLocked } :=
      .strayBuffer ⟨rfl, by
        simp only [LockLeaks, hgrant]
        exact Or.inr (Or.inr hmap)⟩ hid
    convert hout using 1
    have hret : -enomem ≠ cronoSuccess := by decide
    simp [Program.holdings, Program.live, Program.sgs, Program.world, Client.live, Client.world,
      Client.setWorld, hfds, hspace (by decide), hget, hkernel, hret]
  | @locked d id dmaHandle a space w hgrant hne hfresh hmap hget hkernel hmapped =>
    obtain ⟨hd, -, -, -, -, -, hid⟩ := lockGranted_eq_some.1 hgrant
    obtain ⟨h, hh, haddr⟩ : ∃ h ∈ p.live, h.addr = hDev :=
      hpasses.resolve_left (Heap.ne_zero_of_get (World.device?_eq_some.1 hd))
    obtain ⟨f, hf, -, hmmap⟩ := mmapFd_eq_ok hmap
    have hclean : ¬p.Lossy (.use (.lockContig sys hDev ppBuf size (some 0))) := by
      rintro ⟨-, hl⟩
      simp [LockLeaks, hgrant, hne, hfresh, hmap, Except.isOk, Except.toBool] at hl
    have hout : Outcome p (.use (.lockContig sys hDev ppBuf size (some 0))) _ :=
      .lockedContig (b := ⟨a, size, dmaHandle, id⟩) hclean hfresh hid hh (haddr ▸ hd) hf rfl
        hmmap
    convert hout using 1
    simp [Program.holdings, Program.live, Program.sgs, Program.world, Client.live, Client.world,
      Client.setWorld, hfds, hmapped, hget, hkernel]

theorem outcome_unlockContig {sys : UnlockSys} {hDev q : Addr} {b : DmaContig}
    (hq : q ∈ p.contigs) (hb : p.world.contig? q = some b)
    (hs : p.step (.use (.unlockContig sys hDev q)) = .ok p') :
    Outcome p (.use (.unlockContig sys hDev q)) p'.holdings := by
  obtain ⟨⟨ret, w⟩, he, hs⟩ := bind_eq_ok hs
  cases hs
  rcases unlockContig_ok hb he with ⟨hnot, hret, rfl⟩ | ⟨hunlocks, hret, hdone⟩
  · refine .still (.refl _) (fun hl => hnot hl.1) rfl ?_ rfl
    simp [hret]
  have hspace := hdone.space
  by_cases hunmap : sys.munmap = none
  · rw [hunmap, Option.isNone_none, if_pos rfl] at hspace
    have hout : Outcome p (.use (.unlockContig sys hDev q)) _ :=
      .unlockedContig (fun hl => hl.2 hunmap) (gives_unlockContig sys hDev q) hq hb
    convert hout using 1
    simp [Program.holdings, Program.live, Program.sgs, Program.world, Client.live, Client.world,
      Client.setWorld, hret, hspace, hdone.get, hdone.kernel, hdone.fds,
      KernelModule.unlockContig]
  · rw [if_neg (by simpa using hunmap)] at hspace
    have hout : Outcome p (.use (.unlockContig sys hDev q)) _ :=
      .unlockedMapped ⟨hunlocks, hunmap⟩ hq hb
    convert hout using 1
    simp [Program.holdings, Program.live, Program.sgs, Program.world, Client.live, Client.world,
      Client.setWorld, hret, hspace, hdone.get, hdone.kernel, hdone.fds,
      KernelModule.unlockContig]

theorem outcome_lockSg {sys : SgLockSys} {hDev pBuf : Addr} {size : UInt32} {ppDma : Option Addr}
    (hs : p.step (.use (.lockSg sys hDev pBuf size ppDma)) = .ok p') :
    Outcome p (.use (.lockSg sys hDev pBuf size ppDma)) p'.holdings := by
  obtain ⟨c', hc', hs⟩ := bind_eq_ok hs
  obtain ⟨⟨ret, q, w⟩, he, hc'⟩ := bind_eq_ok hc'
  cases hs
  cases hc'
  have hr := sgLock_result sys hDev pBuf size ppDma p.client.world
  rw [he] at hr
  cases hr with
  | failed hret hget =>
    refine .still ⟨hget, rfl, rfl, .refl _⟩ (fun hl => hl) rfl rfl ?_
    simp [Program.sgs, hret]
  | @locked b phys heap hsize hb hdma hpage hne hnull hid hget =>
    have hout : Outcome p (.use (.lockSg sys hDev pBuf size ppDma)) { p.holdings with
        sgs := sys.mallocDma :: p.sgs
        get := heap.get
        sgLocked := insert b.id p.world.kernel.sgLocked } := by
      rw [hget]
      exact .lockedSg (fun hl => hl) hdma hpage hne hid
    convert hout using 1
    simp [Program.holdings, Program.live, Program.sgs, Program.world, Client.live, Client.world,
      Client.setWorld]

theorem outcome_unlockSg {sys : SgUnlockSys} {hDev q : Addr} (hi : ClientInv p.client)
    (hq : q ∈ p.sgs) (hs : p.step (.use (.unlockSg sys hDev q)) = .ok p') :
    Outcome p (.use (.unlockSg sys hDev q)) p'.holdings := by
  obtain ⟨c', hc', hs⟩ := bind_eq_ok hs
  obtain ⟨⟨ret, w⟩, he, hc'⟩ := bind_eq_ok hc'
  cases hs
  cases hc'
  obtain ⟨b, page, hb, hpage⟩ := hi.sg.block q hq
  have hr := sgUnlock_result sys hDev hb hpage
  rw [he] at hr
  cases hr with
  | failed hret =>
    refine .still (.refl _) (fun hl => hl) rfl rfl ?_
    simp [Program.sgs, hret]
  | unlocked hget =>
    have hout : Outcome p (.use (.unlockSg sys hDev q)) _ :=
      .unlockedSg (fun hl => hl) (gives_unlockSg sys hDev q) hq hb hpage
    convert hout using 1
    simp [Program.holdings, Program.live, Program.sgs, Program.world, Client.live, Client.world,
      Client.setWorld]
    exact hget

/-- Every call of a run has an outcome. -/
theorem step_outcome (hi : ClientInv p.client)
    (htail : ∀ h ∈ p.live, ∀ d, p.world.device? h.addr = some d → d.bars.TailZero)
    (hcontig : ∀ q ∈ p.contigs, ∃ b, p.world.contig? q = some b) (hl : p.Legal c)
    (hs : p.step c = .ok p') : Outcome p c p'.holdings := by
  cases c with
  | cleanup sys hDev cmd n =>
    obtain ⟨⟨ret, calls, w⟩, he, hs⟩ := bind_eq_ok hs
    cases hs
    exact .still (.cleanup hl.2 he) (fun hl => hl) rfl rfl rfl
  | query q =>
    obtain ⟨ret, -, hs⟩ := bind_eq_ok hs
    cases hs
    exact .still (.refl _) (fun hl => hl) rfl rfl rfl
  | use u =>
  cases u with
  | registry op =>
    cases op with
    | openDev sys slot => exact outcome_openDev hs
    | closeDev munmap h => exact outcome_closeDev hi hl.2 (htail h hl.2) hs
    | getBars => exact outcome_getBars hi hl.2 hs
    | unload => exact outcome_unload hi hs
  | lockContig => exact outcome_lockContig hl.1 hs
  | unlockContig sys hDev q =>
    obtain ⟨b, hb⟩ := hcontig q hl.2
    exact outcome_unlockContig hl.2 hb hs
  | lockSg => exact outcome_lockSg hs
  | unlockSg => exact outcome_unlockSg hi hl.2 hs
  | scan | access | readCfg | writeCfg =>
    obtain ⟨c', hc', hs⟩ := bind_eq_ok hs
    obtain ⟨r, he, hc'⟩ := bind_eq_ok hc'
    cases hs
    cases hc'
    refine .still ?_ (fun hl => hl) rfl rfl rfl
    first
      | exact .access he
      | exact .files (pciScanDevices_files he)
      | exact .files (pciReadCfg32_files he)
      | exact .files (pciWriteCfg32_files he)

end Steps

end CronoPci
