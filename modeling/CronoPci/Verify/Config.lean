import CronoPci.Model.Config
import CronoPci.Verify.Session
import CronoPci.Verify.Transfer

/-!
# What configuration access reports

Both functions return the same code: that of the size query, of the range check,
or of the transfer. The transfer's code is a success for a short transfer too,
and that is the one case in which a success does not mean that all four bytes
were transferred.
-/

namespace CronoPci

open Posix

/-! ## The code returned -/

namespace CfgSys

variable (sys : CfgSys) (d : KernelDevice) (dwOffset : UInt32)

/-- The configuration file of the device. -/
def file : ConfigSys := sys.config (constructConfigFilePath d.pciSlot)

/-- The four bytes are within the configuration space. -/
def Within : Prop :=
  ∃ size, sys.stat (constructConfigFilePath d.pciSlot) = .ok size ∧
    dwOffset.toNat + 4 ≤ size.toNat

/-- All four bytes are transferred. -/
def Transfers : Prop := (sys.file d).ending 4 = .full

instance : Decidable (sys.Transfers d) := inferInstanceAs (Decidable (_ = _))

/-- The transfer is made and meets the end of the file first. -/
def StopsShort : Prop := sys.Within d dwOffset ∧ (sys.file d).ending 4 = .short

/-- What either function returns for the device. -/
def code : Code :=
  match cronoGetConfigSpaceSize sys d.pciSlot with
  | .error ret => ret
  | .ok size =>
    if ExceedsConfig size dwOffset then 0 - einval else endingCode ((sys.file d).ending 4)

end CfgSys

theorem exceedsConfig_iff {size : UInt64} {dwOffset : UInt32} :
    ExceedsConfig size dwOffset ↔ size.toNat < dwOffset.toNat + 4 := by
  have hlt := dwOffset.toNat_lt
  have hsum : (dwOffset.toUInt64 + 4).toNat = dwOffset.toNat + 4 := by
    rw [UInt64.toNat_add, UInt32.toNat_toUInt64, show (4 : UInt64).toNat = 4 from rfl,
      Nat.mod_eq_of_lt (by omega)]
  rw [ExceedsConfig, UInt64.lt_iff_toNat_lt, hsum]

variable {sys : CfgSys} {d : KernelDevice} {dwOffset : UInt32}

/-- A success means that the range fits and the transfer met no error. -/
theorem cfgCode_eq_success : sys.code d dwOffset = cronoSuccess ↔
    sys.Within d dwOffset ∧ (sys.Transfers d ∨ (sys.file d).ending 4 = .short) := by
  unfold CfgSys.code CfgSys.Within CfgSys.Transfers cronoGetConfigSpaceSize
  cases sys.stat (constructConfigFilePath d.pciSlot) with
  | error e => simpa using show e.code ≠ cronoSuccess from e.ne_zero
  | ok size =>
    have hinval : -einval ≠ cronoSuccess := by decide
    simp only [Except.ok.injEq, exists_eq_left', exceedsConfig_iff]
    split
    · next hlt => simp [hinval, Nat.not_le.2 hlt]
    · next hlt => simp [endingCode_eq_success, Nat.not_lt.1 hlt]

/-- The property that a code tells whether all four bytes were transferred fails
exactly for a transfer that stops short. -/
theorem cfgCode_exact_iff : (sys.code d dwOffset = cronoSuccess ↔
    sys.Within d dwOffset ∧ sys.Transfers d) ↔ ¬sys.StopsShort d dwOffset := by
  rw [cfgCode_eq_success]
  unfold CfgSys.StopsShort CfgSys.Transfers
  constructor
  · rintro h ⟨hwithin, hshort⟩
    have hfull := (h.1 ⟨hwithin, Or.inr hshort⟩).2
    rw [hshort] at hfull
    cases hfull
  · intro h
    constructor
    · rintro ⟨hwithin, hfull | hshort⟩
      · exact ⟨hwithin, hfull⟩
      · exact absurd ⟨hwithin, hshort⟩ h
    · rintro ⟨hwithin, hfull⟩
      exact ⟨hwithin, Or.inl hfull⟩

/-! ## The functions -/

/-- `crono_write_config` reports like `crono_read_config`. -/
theorem ConfigSys.write_result (sys : ConfigSys) (path : List Char) (data : Nat → UInt8)
    (offset : Nat) {size : Nat} (fds : FdTable) (hsize : 0 < size) :
    (cronoWriteConfig path sys data offset size fds).err = endingCode (sys.ending size) ∧
      ((cronoWriteConfig path sys data offset size fds).bytesWritten = size ↔
        sys.ending size = .full) ∧
      FdTable.Balanced fds (cronoWriteConfig path sys data offset size fds).fds := by
  unfold cronoWriteConfig ConfigSys.ending
  cases sys.openErr with
  | some e => exact ⟨rfl, by simp [Nat.ne_of_lt hsize], .refl fds⟩
  | none =>
    simp only [writeLoop, readLoop_eq _ 0 0 offset sys.content (Nat.le_refl size), true_and]
    have hle := transfer_le (chunks sys.pread) size 0 size
    refine ⟨?_, (FdTable.Balanced.refl _).bracket⟩
    rw [transfer_full_iff]
    omega

/-- The bytes copied to a variable of four bytes. -/
theorem loadUInt32_copyBytes (content : Nat → UInt8) (offset : Nat) (data : Nat → UInt8) :
    loadUInt32 (copyBytes content offset 0 4 data) = loadUInt32 fun i => content (offset + i) := by
  simp [loadUInt32, copyBytes]

variable {hDev : Addr} {w : World}

/-- What both functions return of a transfer is the transfer's code. -/
theorem report_eq {α : Type} {err : Code} {bytes : Nat} (r : Code → α) :
    (if bytes ≠ 4 ∨ err ≠ 0 then r err else r cronoSuccess) = r err := by
  split
  · rfl
  · next h =>
    have herr : err = cronoSuccess := not_not.1 fun hne => h (Or.inr hne)
    rw [herr]

/-- A read on a valid handle. -/
theorem pciReadCfg32_result (hd : w.initHDevFunc hDev = .ok (.ok d)) (sys : CfgSys)
    (dwOffset val : UInt32) : ∃ val' fds, FdTable.Balanced w.fds fds ∧
      pciReadCfg32 sys hDev dwOffset (some val) w =
        .ok (sys.code d dwOffset, some val', { w with fds }) ∧
      (sys.Within d dwOffset → sys.Transfers d →
        val' = loadUInt32 fun i => (sys.file d).content (dwOffset.toNat + i)) := by
  obtain ⟨herr, -, hdata⟩ := (sys.file d).read_result (constructConfigFilePath d.pciSlot)
    (storeUInt32 val) dwOffset.toNat w.fds (show 0 < 4 by omega)
  have hbal := cronoReadConfig_balanced (constructConfigFilePath d.pciSlot) (sys.file d)
    (storeUInt32 val) dwOffset.toNat 4 w.fds
  unfold pciReadCfg32 CfgSys.code
  simp only [hd, bind, Except.bind, pure, Except.pure, ← CfgSys.file.eq_def]
  generalize cronoReadConfig (constructConfigFilePath d.pciSlot) (sys.file d) (storeUInt32 val)
    dwOffset.toNat 4 w.fds = r at *
  cases hsize : cronoGetConfigSpaceSize sys d.pciSlot with
  | error ret =>
    refine ⟨val, w.fds, .refl _, rfl, ?_⟩
    rintro ⟨size, hstat, -⟩
    simp [cronoGetConfigSpaceSize, hstat] at hsize
  | ok size =>
    by_cases hexceeds : ExceedsConfig size dwOffset
    · refine ⟨val, w.fds, .refl _, by simp only [hexceeds, ↓reduceIte], ?_⟩
      rintro ⟨size', hstat, hle⟩
      simp only [cronoGetConfigSpaceSize, hstat, Except.ok.injEq] at hsize
      rw [hsize] at hle
      exact absurd (exceedsConfig_iff.1 hexceeds) (Nat.not_lt.2 hle)
    · refine ⟨loadUInt32 r.data, r.fds, hbal, ?_, ?_⟩
      · simp only [hexceeds, ↓reduceIte]
        rw [report_eq fun err => Except.ok (err, _, _), herr]
      · intro _ hfull
        rw [hdata hfull, loadUInt32_copyBytes]

/-- A write on a valid handle. -/
theorem pciWriteCfg32_result (hd : w.initHDevFunc hDev = .ok (.ok d)) (sys : CfgSys)
    (dwOffset val : UInt32) : ∃ content fds, FdTable.Balanced w.fds fds ∧
      pciWriteCfg32 sys hDev dwOffset val w =
        .ok (sys.code d dwOffset, content, { w with fds }) := by
  obtain ⟨herr, -, hbal⟩ := (sys.file d).write_result (constructConfigFilePath d.pciSlot)
    (storeUInt32 val) dwOffset.toNat w.fds (show 0 < 4 by omega)
  unfold pciWriteCfg32 CfgSys.code
  simp only [hd, bind, Except.bind, pure, Except.pure, ← CfgSys.file.eq_def]
  generalize cronoWriteConfig (constructConfigFilePath d.pciSlot) (sys.file d) (storeUInt32 val)
    dwOffset.toNat 4 w.fds = r at *
  cases hsize : cronoGetConfigSpaceSize sys d.pciSlot with
  | error ret => exact ⟨_, w.fds, .refl _, rfl⟩
  | ok size =>
    by_cases hexceeds : ExceedsConfig size dwOffset
    · exact ⟨fun path => (sys.config path).content, w.fds, .refl _,
        by simp only [hexceeds, ↓reduceIte]⟩
    · refine ⟨Function.update (fun path => (sys.config path).content)
        (constructConfigFilePath d.pciSlot) r.content, r.fds, hbal, ?_⟩
      simp only [hexceeds, ↓reduceIte]
      rw [report_eq fun err => Except.ok (err, _, _), herr]

/-! ## All or nothing -/

/-- A read reports a success exactly when all four bytes of a range within the
configuration space were transferred, and then `*val` holds them. -/
structure ReadReports (sys : CfgSys) (d : KernelDevice) (dwOffset : UInt32) (ret : Code)
    (val : UInt32) : Prop where
  success : ret = cronoSuccess ↔ sys.Within d dwOffset ∧ sys.Transfers d
  value : ret = cronoSuccess →
    val = loadUInt32 fun i => (sys.file d).content (dwOffset.toNat + i)

/-- Reads and writes on a valid handle report all or nothing except where the
transfer stops short. -/
theorem cfg_all_or_nothing_iff (hd : w.initHDevFunc hDev = .ok (.ok d)) (sys : CfgSys)
    (dwOffset val : UInt32) :
    ((∃ ret val' w', pciReadCfg32 sys hDev dwOffset (some val) w = .ok (ret, some val', w') ∧
        ReadReports sys d dwOffset ret val') ↔ ¬sys.StopsShort d dwOffset) ∧
      ((∃ ret content w', pciWriteCfg32 sys hDev dwOffset val w = .ok (ret, content, w') ∧
        (ret = cronoSuccess ↔ sys.Within d dwOffset ∧ sys.Transfers d)) ↔
          ¬sys.StopsShort d dwOffset) := by
  obtain ⟨val', fds, -, hread, hvalue⟩ := pciReadCfg32_result hd sys dwOffset val
  obtain ⟨content, fds', -, hwrite⟩ := pciWriteCfg32_result hd sys dwOffset val
  rw [hread, hwrite]
  refine ⟨⟨?_, ?_⟩, ⟨?_, ?_⟩⟩
  · rintro ⟨ret, v, w', he, hreports⟩
    cases he
    exact cfgCode_exact_iff.1 hreports.success
  · intro hnot
    have hexact := cfgCode_exact_iff.2 hnot
    refine ⟨_, _, _, rfl, hexact, ?_⟩
    intro hsuccess
    obtain ⟨hwithin, hfull⟩ := hexact.1 hsuccess
    exact hvalue hwithin hfull
  · rintro ⟨ret, c, w', he, hreports⟩
    cases he
    exact cfgCode_exact_iff.1 hreports
  · intro hnot
    exact ⟨_, _, _, rfl, cfgCode_exact_iff.2 hnot⟩

/-- A configuration space of `size` bytes, byte `i` of which is `i`, where each
call transfers `n` bytes. -/
def CfgSys.small (size : UInt64) (n : Nat) : CfgSys :=
  ⟨fun _ => .ok size, fun _ => ⟨none, fun i => .ofNat i, fun _ => .count n⟩⟩

/-- A transfer in two pieces. -/
theorem cfg_two_pieces : ∃ ret val' w',
    pciReadCfg32 (.small 256 2) 16 8 (some 0) .oneDevice = .ok (ret, some val', w') ∧
      ReadReports (.small 256 2) { KernelDevice.zero with dwDeviceId := 6, miscdevFd := 3 } 8 ret
        val' := by
  refine (cfg_all_or_nothing_iff (w := .oneDevice) rfl (.small 256 2) 8 0).1.2 ?_
  rintro ⟨-, h⟩
  exact absurd h (by decide)

/-- A process without privileges reads nothing beyond the first 64 bytes; the
call returns success with `*val` as it was. -/
theorem cfg_reads_nothing : ∃ w',
    pciReadCfg32 (.small 256 0) 16 64 (some 7) .oneDevice = .ok (cronoSuccess, some 7, w') ∧
      ¬ReadReports (.small 256 0) { KernelDevice.zero with dwDeviceId := 6, miscdevFd := 3 } 64
        cronoSuccess 7 := by
  refine ⟨_, rfl, ?_⟩
  intro h
  exact absurd (h.success.1 rfl).2 (by decide)

end CronoPci
