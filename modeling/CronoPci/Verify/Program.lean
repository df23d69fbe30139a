import CronoPci.Verify.Cleanup
import CronoPci.Verify.Uses

/-!
# Programs that use the whole library

A `Program` is a client together with the contiguous buffers that its caller
holds, and a `Call` is any call of the library: a `Use`, the setup of a card's
cleanup, or a query of a device.
-/

namespace CronoPci

open Posix Trans

/-! ## Programs and calls -/

/-- A client and the descriptors of contiguous buffers that its caller got from
Locks and has not unlocked. -/
structure Program where
  client : Client
  contigs : List Addr

/-- A call that tells something about a device. -/
inductive Query
  | barMem (hDev : Addr) (pBARUSAddr : Option Addr) (pBARMemSize : Option UInt64)
  | miscName (hDev : Addr) (pMiscName : Option (List Char)) (nBuffSize : Int32)

namespace Query

def hDev : Query → Addr
  | .barMem hDev .. => hDev
  | .miscName hDev .. => hDev

/-- The code; what the caller's variables hold is no part of the process. -/
def code (q : Query) (w : World) : Except Fault Code :=
  match q with
  | .barMem hDev pBARUSAddr pBARMemSize =>
    (getDeviceBarMem hDev pBARUSAddr pBARMemSize w).map fun r => r.1
  | .miscName hDev pMiscName nBuffSize =>
    (getDeviceMiscName hDev pMiscName nBuffSize w).map fun r => r.1

end Query

inductive Call
  | use (u : Use)
  | cleanup (sys : CleanupSys) (hDev : Addr) (cmd : List KernelCmd) (dwCmdCount : UInt32)
  | query (q : Query)

/-- The handle that a call outside the registry is given; 0 where there is none. -/
def Call.hDev : Call → Addr
  | .use (.access a) => a.hDev
  | .use (.readCfg _ hDev ..) => hDev
  | .use (.writeCfg _ hDev ..) => hDev
  | .use (.lockContig _ hDev ..) => hDev
  | .use (.unlockContig _ hDev _) => hDev
  | .use (.lockSg _ hDev ..) => hDev
  | .use (.unlockSg _ hDev _) => hDev
  | .cleanup _ hDev .. => hDev
  | .query q => q.hDev
  | _ => 0

namespace Program

def world (p : Program) : World := p.client.world

def live (p : Program) : List Handle := p.client.live

def sgs (p : Program) : List Addr := p.client.sgs

/-- A Lock called with `*ppDma` null gives a descriptor of a contiguous buffer
when it succeeds, and it is held until an Unlock succeeds. -/
def step (p : Program) : Call → Except Fault Program
  | .use (.lockContig sys hDev ppBuf dwDMABufSize ppDma) => do
    let (ret, _, pDma, w) ← dmaContigBufLock sys hDev ppBuf dwDMABufSize ppDma p.world
    return {
      client := p.client.setWorld w
      contigs :=
        if ret = cronoSuccess ∧ ppDma = some 0 then pDma.getD 0 :: p.contigs else p.contigs }
  | .use (.unlockContig sys hDev pDma) => do
    let (ret, w) ← dmaContigBufUnlock sys hDev pDma p.world
    return {
      client := p.client.setWorld w
      contigs := if ret = cronoSuccess then p.contigs.erase pDma else p.contigs }
  | .use u => do
    let client ← p.client.step u
    return { p with client }
  | .cleanup sys hDev cmd dwCmdCount => do
    let (_, _, w) ← cardCleanupSetup sys hDev cmd dwCmdCount p.world
    return { p with client := p.client.setWorld w }
  | .query q => do
    let _ ← q.code p.world
    return p

/-- The handle is null or live. -/
def Passes (p : Program) (hDev : Addr) : Prop := hDev = 0 ∨ ∃ h ∈ p.live, h.addr = hDev

/-- The caller passes handles that are live or null, unlocks what it holds, and
passes as many commands as it says. -/
def Legal (p : Program) (c : Call) : Prop :=
  p.Passes c.hDev ∧ match c with
    | .use (.registry op) => p.client.session.Legal op
    | .use (.unlockContig _ _ pDma) => pDma ∈ p.contigs
    | .use (.unlockSg _ _ pDma) => pDma ∈ p.sgs
    | .cleanup _ _ cmd dwCmdCount => cmd.length = dwCmdCount.toNat
    | _ => True

/-- The program of a process that has not called the library. -/
def start (w : World) : Program := ⟨.start w, []⟩

/-- The programs of all runs. -/
def Reachable (w : World) (p : Program) : Prop := Reach step Legal (start w) p

end Program

instance (p : Program) (hDev : Addr) : Decidable (p.Passes hDev) :=
  inferInstanceAs (Decidable (hDev = 0 ∨ ∃ h ∈ p.live, h.addr = hDev))

instance (p : Program) (c : Call) : Decidable (p.Legal c) := by
  unfold Program.Legal
  split <;> infer_instance

/-- Lock `size` bytes for the device at `hDev`: the module gives buffer `id`,
`malloc` returns `p` and `mmap` answers `mmap`. -/
def Call.locks (hDev : Addr) (id : Int) (p : Addr) (mmap : Except Errno Addr) : Call :=
  .use (.lockContig ⟨false, 4096, .ok (id, 0x10000), p, mmap⟩ hDev (some 0) 4096 (some 0))

/-- Unlock the buffer at `p`; `munmap` answers `munmap`. -/
def Call.unlocks (munmap : Option Errno) (hDev p : Addr) : Call :=
  .use (.unlockContig ⟨false, none, munmap⟩ hDev p)

/-- Lock the 9000 bytes at 1000 page by page: the blocks come from `p` on. -/
def Call.locksSg (hDev p : Addr) : Call :=
  .use (.lockSg ⟨false, 4096, by decide, .ok (9, fun i => .ofNat (0x20000 + 4096 * i)), p, p + 1,
    p + 2, fun _ => ⟨0, 0⟩, fun _ => 0⟩ hDev 1000 9000 (some 0))

/-- Unlock the pages at `p`. -/
def Call.unlocksSg (hDev p : Addr) : Call := .use (.unlockSg ⟨false, none⟩ hDev p)

/-- A device with a BAR and two buffers. -/
def Call.setup : List Call :=
  [.use (.registry (.opensBar 1 16)), .locks 16 7 32 (.ok 65536), .locksSg 16 48]

/-- Open the device on `bus`, with a BAR mapped at `addr`, at `p`. -/
def Call.opensBarAt (bus : UInt32) (p addr : Addr) : Call :=
  .use (.registry (.openDev (.small bus p none (.small "1000 1fff 200".toList fun _ => addr))
    (busSlot bus)))

/-- The device is closed, another is opened and locks a buffer. -/
def Call.reopen : List Call :=
  [.use (.registry (.closes 16 5)), .use (.registry (.opensBar 2 64)), .locks 64 8 80 (.ok 131072)]

theorem exists_ok_of_isOk {ε α : Type} {x : Except ε α} (h : x.isOk = true) :
    ∃ a, x = .ok a := by
  cases x with
  | error e => cases h
  | ok a => exact ⟨a, rfl⟩

/-! ## The regions that filling a table maps -/

instance (sys : BarSys) (dir : List Char) : Decidable (ResourceOpens sys dir) :=
  inferInstanceAs (Decidable (_ ∧ _))

/-- The address space after the table of a device without descriptions is
filled, or filling it failed. -/
def BarSys.mapped (sys : BarSys) (slot : PciSlot) (space : Space) : Space :=
  match cronoGetSysDevicesDirectoryPath sys.readlink sys.linkBuf slot with
  | .ok (.ok dir) => if ResourceOpens sys dir then (mapRows sys dir sys.rows space).2 else space
  | _ => space

/-- Filling fails after it mapped a region. -/
def BarSys.Strays (sys : BarSys) (slot : PciSlot) (space : Space) : Prop :=
  match cronoGetSysDevicesDirectoryPath sys.readlink sys.linkBuf slot with
  | .ok (.ok dir) => ResourceOpens sys dir ∧ (mapRows sys dir sys.rows space).1.isOk = false ∧
      (mapRows sys dir sys.rows space).2.maps ≠ space.maps
  | _ => False

instance (sys : BarSys) (slot : PciSlot) (space : Space) : Decidable (sys.Strays slot space) := by
  unfold BarSys.Strays
  split <;> infer_instance

section Fill

variable {sys : BarSys} {slot : PciSlot} {space : Space} {p : Addr} {d : KernelDevice}
  {w w' : World} {ret : Code}

theorem fillDeviceBarDescriptions_space (hd : w.device? p = some d) (hcount : d.bars.barCount = 0)
    (h : fillDeviceBarDescriptions sys p w = .ok (ret, w')) :
    w'.space = sys.mapped d.pciSlot w.space := by
  have hp : p ≠ 0 := Heap.ne_zero_of_get (World.device?_eq_some.1 hd)
  unfold fillDeviceBarDescriptions at h
  rw [if_neg hp, World.derefDevice_eq_ok.2 hd] at h
  simp only [bind, Except.bind, pure, Except.pure] at h
  rw [if_neg (by omega)] at h
  unfold BarSys.mapped
  cases hdir : cronoGetSysDevicesDirectoryPath sys.readlink sys.linkBuf d.pciSlot with
  | error e =>
    rw [hdir] at h
    cases h
  | ok r =>
  cases r with
  | error ret' =>
    rw [hdir] at h
    cases h
    rfl
  | ok dir =>
  simp only [hdir] at h ⊢
  cases hopen : sys.openResource (resourceFilePath dir) with
  | some e =>
    simp only [hopen] at h
    cases h
    rw [if_neg]
    rintro ⟨ho, -⟩
    rw [hopen] at ho
    cases ho
  | none =>
  simp only [hopen] at h
  by_cases hstream : sys.streamOpens = true
  · rw [if_pos hstream] at h
    rw [if_pos (show ResourceOpens sys dir from ⟨hopen, hstream⟩)]
    obtain ⟨res, fds, hfill, -, -⟩ := fillBars_spec sys dir (List.finRange 6) ⟨sys.text, false⟩
      .empty ((w.fds.install (resourceFilePath dir)).install (resourceFilePath dir))
      w.space (by simp [BarTable.empty]) BarTable.tailZero_empty
    rw [hfill] at h
    cases res with
    | error ret' =>
      cases h
      rfl
    | ok bars =>
      cases h
      rfl
  · rw [if_neg hstream] at h
    cases h
    rw [if_neg (fun ho : ResourceOpens sys dir => hstream ho.2)]

/-- A call that fails has mapped regions, and more than none when it strays. -/
theorem BarSys.strays_iff (hfails : FillFails sys slot space) :
    sys.Strays slot space ↔ (sys.mapped slot space).maps ≠ space.maps := by
  unfold BarSys.Strays BarSys.mapped
  cases hdir : cronoGetSysDevicesDirectoryPath sys.readlink sys.linkBuf slot with
  | error e => simp
  | ok r =>
  cases r with
  | error ret => simp
  | ok dir =>
  by_cases hopens : ResourceOpens sys dir
  · simp only [hopens, if_true, true_and, and_iff_right_iff_imp]
    intro _
    rcases hfails with ⟨e, hlink⟩ | ⟨dir', hdir', hnot | ⟨e, herr⟩⟩
    · simp [cronoGetSysDevicesDirectoryPath, hlink] at hdir
    · rw [DirectoryIs.unique hdir' hdir] at hnot
      exact absurd hopens hnot
    · rw [DirectoryIs.unique hdir' hdir] at herr
      rw [herr]
      rfl
  · simp [hopens]

theorem BarSys.mapped_grows (sys : BarSys) (slot : PciSlot) (space : Space) :
    space.maps ⊆ (sys.mapped slot space).maps := by
  unfold BarSys.mapped
  split
  · split
    · exact (mapRows_grows ..).1
    · exact fun _ h => h
  · exact fun _ h => h

theorem Filled.not_strays {dir : List Char} {descs : List BarDesc} {bars : BarTable}
    (h : Filled sys d w dir descs bars) : ¬sys.Strays d.pciSlot w.space := by
  have hdir := h.directory
  unfold DirectoryIs at hdir
  simp only [BarSys.Strays, hdir, h.mapped, Except.isOk, Except.toBool]
  simp

end Fill

section Open

variable {sys : OpenSys} {slot : PciSlot} {v : SlotVars} {w w' : World} {ret : Code}

theorem World.free_space {p : Addr} (h : w.free p = .ok w') : w'.space = w.space := by
  unfold World.free at h
  split at h <;> cases h
  rfl

theorem deviceError_space {ret' : Code} {phDev pDevice ph : Addr} {dr : Nat}
    (h : deviceError ret phDev pDevice dr w = .ok (ret', ph, w')) : w'.space = w.space := by
  simp only [deviceError] at h
  split at h
  · obtain ⟨w₁, hfree, h⟩ := bind_eq_ok h
    cases h
    have hspace := World.free_space hfree
    exact hspace
  · cases h
    rfl

theorem describeOpened_space {pDevice ph : Addr} {miscdevFd dr : Nat} {d : KernelDevice}
    (hd : w.device? pDevice = some d) (hcount : d.bars.barCount = 0)
    (h : describeOpened sys pDevice miscdevFd dr w = .ok (ret, ph, w')) :
    w'.space = sys.bars.mapped d.pciSlot w.space := by
  unfold describeOpened at h
  obtain ⟨⟨ret', w₁⟩, hfill, h⟩ := bind_eq_ok h
  rw [← fillDeviceBarDescriptions_space hd hcount hfill]
  simp only at h
  split at h
  · have hspace := deviceError_space h
    exact hspace
  · cases h
    rfl

/-- An Open that opens its misc device maps the BARs it finds until one fails. -/
theorem OpensMisc.space (hv : OpensMisc sys slot w v) {p : Addr} {ph : Option Addr}
    (h : pciDeviceOpen sys (some p) (some slot) w = .ok (ret, ph, w')) :
    w'.space = sys.bars.mapped slot w.space := by
  obtain ⟨ens, hens, hmatched⟩ := hv.found
  obtain ⟨heap, hmalloc⟩ : ∃ heap, w.opendir.heap.malloc sys.malloc (.device .zero) = some heap :=
    Heap.exists_malloc hv.ne_null hv.fresh
  obtain ⟨-, -, hget, -⟩ := Heap.malloc_eq_some.1 hmalloc
  have hroom : w.opendir.reg.iNewDev < 8 := hv.room
  have hlow : (readIds sys v w.opendir.fds).2.2.lowest = w.miscNumber :=
    FdTable.lowest_congr (cronoReadVendorDevice_balanced ..).file_eq
  obtain ⟨hcode, hread⟩ := readIds_congr sys v w.opendir.fds w.fds
  have hids := hcode.trans hv.ids
  have hstat := hv.stat
  have hmisc := hv.misc
  simp only [foundDevice, ← hread] at hstat hmisc
  simp only [pciDeviceOpen, hens, openLoop_eq, hmatched] at h
  obtain ⟨⟨ret', ph', w₁⟩, hopen, h⟩ := bind_eq_ok h
  cases h
  simp only [openMatched, hmalloc, push_eq_ok hroom, bind, Except.bind] at hopen
  rw [show cronoReadVendorDevice (constructConfigFilePath v.toSlot)
      (sys.config (constructConfigFilePath v.toSlot)) sys.ids w.opendir.fds =
    ((readIds sys v w.opendir.fds).1, (readIds sys v w.opendir.fds).2.1,
      (readIds sys v w.opendir.fds).2.2) from rfl] at hopen
  simp only [hids, ne_eq, not_true_eq_false, ↓reduceIte, hstat, hmisc, World.setDevice, hlow,
    w.miscNumber_ne_zero] at hopen
  refine (describeOpened_space (d := { foundDevice sys slot v w.opendir.fds with
    miscdevFd := w.miscNumber }) ?_ rfl hopen).trans rfl
  rw [World.device?_eq_some]
  exact Heap.get_set_self (by simp [Heap.get_set_self, hget])

end Open

end CronoPci
