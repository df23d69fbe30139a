import CronoPci.Verify.Config
import CronoPci.Verify.NodeNames
import CronoPci.Verify.Program

/-!
# Configuration spaces as byte memory

Every slot has a configuration file of its own (`constructConfigFilePath_inj`),
and an access moves the first bytes of its value to or from that file, as many
as the transfer gets to. So the configuration space of a device is a memory over
whole runs: it does not matter through which handle a byte was written, nor what
is opened, closed, read or written elsewhere in between.
-/

namespace CronoPci

open Posix Posix.Text Trans

/-! ## The file of a slot -/

/-- The fields of a slot can be told from its text: the colons split it in three,
and the dot splits the last part. -/
theorem slotText_inj {width : Nat} {s t : PciSlot} (h : slotText width s = slotText width t) :
    s = t := by
  have hcolon (width n : Nat) : ':' ∉ printUnsigned false 16 width n :=
    notMem_print false (by omega) (by omega) rfl width n
  have hdot {base : Nat} (hb : 1 < base) (hb' : base ≤ 16) (hc : digitVal base '.' = none)
      (width n : Nat) : '.' ∉ printUnsigned false base width n :=
    notMem_print false hb hb' hc width n
  have hlast (s : PciSlot) : ':' ∉ printUnsigned false 16 2 s.dwSlot.toNat ++
      '.' :: printUnsigned false 10 1 s.dwFunction.toNat := by
    have hfunc : ':' ∉ printUnsigned false 10 1 s.dwFunction.toNat :=
      notMem_print false (by omega) (by omega) rfl 1 _
    simp [hcolon, hfunc]
  have hsplit (s : PciSlot) : (slotText width s).splitOn ':' =
      [printUnsigned false 16 width s.dwDomain.toNat, printUnsigned false 16 2 s.dwBus.toNat,
        printUnsigned false 16 2 s.dwSlot.toNat ++
          '.' :: printUnsigned false 10 1 s.dwFunction.toNat] := by
    unfold slotText
    rw [List.splitOn_append_cons_self_of_not_mem (hcolon _ _),
      List.splitOn_append_cons_self_of_not_mem (hcolon _ _), List.splitOn_eq_singleton (hlast s)]
  have heq {base width : Nat} {n m : UInt32} (hb : 1 < base) (hb' : base ≤ 16)
      (h : printUnsigned false base width n.toNat = printUnsigned false base width m.toNat) :
      n = m := UInt32.toNat_inj.1 (printUnsigned_inj hb hb' h)
  have hparts := congrArg (List.splitOn ':') h
  rw [hsplit, hsplit, List.cons.injEq, List.cons.injEq, List.cons.injEq] at hparts
  obtain ⟨hdomain, hbus, hlasts, -⟩ := hparts
  obtain ⟨hdev, -, hfunc⟩ := (List.append_cons_inj_of_notMem
    (hdot (by omega) (by omega) rfl _ _) (hdot (by omega) (by omega) rfl _ _)).1 hlasts
  cases s
  cases t
  rw [PciSlot.mk.injEq]
  exact ⟨heq (by omega) (by omega) hdomain, heq (by omega) (by omega) hbus,
    heq (by omega) (by omega) hdev, heq (by omega) (by omega) hfunc⟩

/-- No path is cut off, whatever the fields of the slot are. -/
theorem constructConfigFilePath_text (s : PciSlot) : constructConfigFilePath s =
    sysBusPcidevsPath ++ '/' :: (slotText 4 s ++ "/config".toList) := by
  have hlen : (sysBusPcidevsPath ++ '/' :: (slotText 4 s ++ "/config".toList)).length <
      pathMax := by
    have hdomain : (digitsOf 16 4 s.dwDomain.toNat).length ≤ max 4 8 :=
      length_digitsOf_le (by omega) (by omega) s.dwDomain.toNat_lt
    have hbus : (digitsOf 16 2 s.dwBus.toNat).length ≤ max 2 8 :=
      length_digitsOf_le (by omega) (by omega) s.dwBus.toNat_lt
    have hdev : (digitsOf 16 2 s.dwSlot.toNat).length ≤ max 2 8 :=
      length_digitsOf_le (by omega) (by omega) s.dwSlot.toNat_lt
    have hfunc : (digitsOf 10 1 s.dwFunction.toNat).length ≤ max 1 10 :=
      length_digitsOf_le (by omega) (by omega) (s.dwFunction.toNat_lt.trans (by omega))
    have hdir : sysBusPcidevsPath.length = 20 := by decide
    have hconfig : "/config".toList.length = 7 := by decide
    simp only [slotText, printUnsigned_eq, List.length_append, List.length_cons, List.length_map,
      hdir, hconfig, pathMax]
    omega
  unfold constructConfigFilePath
  split
  · exact truncateTo_of_lt hlen
  · next hdomain =>
    rw [slotText_wide hdomain]
    exact truncateTo_of_lt hlen

/-- Every slot has its own configuration file. -/
theorem constructConfigFilePath_inj {s t : PciSlot}
    (h : constructConfigFilePath s = constructConfigFilePath t) : s = t := by
  rw [constructConfigFilePath_text, constructConfigFilePath_text] at h
  obtain ⟨-, h⟩ := List.cons.inj (List.append_cancel_left h)
  exact slotText_inj (List.append_cancel_right h)

/-! ## What a transfer moves -/

/-- The bytes that a transfer of `size` bytes moves. -/
def ConfigSys.moved (sys : ConfigSys) (size : Nat) : Nat :=
  match sys.openErr with
  | some _ => 0
  | none => size - (transfer (chunks sys.pread) size 0 size).2

theorem cronoReadConfig_data (path : List Char) (sys : ConfigSys) (data : Nat → UInt8)
    (offset size : Nat) (fds : FdTable) : (cronoReadConfig path sys data offset size fds).data =
      copyBytes sys.content offset 0 (sys.moved size) data := by
  unfold cronoReadConfig ConfigSys.moved
  cases sys.openErr with
  | some e => simp
  | none => simp only [readLoop_eq sys 0 offset 0 data (Nat.le_refl size)]

theorem cronoWriteConfig_content (path : List Char) (sys : ConfigSys) (val : UInt32)
    (offset size : Nat) (fds : FdTable) :
    (cronoWriteConfig path sys (storeUInt32 val) offset size fds).content =
      storeBytes sys.content offset (sys.moved size) val.toNat := by
  have hcopy (n : Nat) : copyBytes (storeUInt32 val) 0 offset n sys.content =
      storeBytes sys.content offset n val.toNat := by
    funext i
    simp only [copyBytes, storeBytes, storeUInt32, Nat.zero_add]
  unfold cronoWriteConfig ConfigSys.moved
  cases sys.openErr with
  | some e =>
    rw [← hcopy]
    simp
  | none =>
    simp only [writeLoop, readLoop_eq _ 0 0 offset sys.content (Nat.le_refl size)]
    exact hcopy _

theorem loadUInt32_byte (data : Nat → UInt8) {k : Nat} (hk : k < 4) :
    (loadUInt32 data).toNat / 2 ^ (8 * k) % 2 ^ 8 = (data k).toNat := by
  have h0 := (data 0).toNat_lt
  have h1 := (data 1).toNat_lt
  have h2 := (data 2).toNat_lt
  have h3 := (data 3).toNat_lt
  have hval : (loadUInt32 data).toNat = (data 0).toNat + 2 ^ 8 * (data 1).toNat +
      2 ^ 16 * (data 2).toNat + 2 ^ 24 * (data 3).toNat := by
    unfold loadUInt32
    rw [UInt32.toNat_ofNat', Nat.mod_eq_of_lt (by omega)]
  rw [hval]
  obtain rfl | rfl | rfl | rfl : k = 0 ∨ k = 1 ∨ k = 2 ∨ k = 3 := by omega
  all_goals omega

theorem loadUInt32_storeUInt32 (val : UInt32) : loadUInt32 (storeUInt32 val) = val := by
  have hlt := val.toNat_lt
  apply UInt32.toNat_inj.1
  simp only [loadUInt32, storeUInt32, UInt8.toNat_ofNat', UInt32.toNat_ofNat']
  omega

namespace CfgSys

variable (sys : CfgSys) (d : KernelDevice) (dwOffset : UInt32)

/-- The bytes that an access to the device moves: none if its range is refused. -/
def moved : Nat :=
  match cronoGetConfigSpaceSize sys d.pciSlot with
  | .error _ => 0
  | .ok size => if ExceedsConfig size dwOffset then 0 else (sys.file d).moved 4

/-- All four bytes are moved when the range fits and the transfer is complete. -/
theorem moved_eq_four : sys.moved d dwOffset = 4 ↔ sys.Within d dwOffset ∧ sys.Transfers d := by
  have hfour : (sys.file d).moved 4 = 4 ↔ sys.Transfers d := by
    unfold ConfigSys.moved Transfers ConfigSys.ending
    cases (sys.file d).openErr with
    | some e => simp
    | none =>
      have hle := transfer_le (chunks (sys.file d).pread) 4 0 4
      simp only [transfer_full_iff]
      omega
  unfold moved Within cronoGetConfigSpaceSize
  cases sys.stat (constructConfigFilePath d.pciSlot) with
  | error e => simp
  | ok size =>
    simp only [exceedsConfig_iff, Except.ok.injEq, exists_eq_left']
    split
    · next hlt => simp [Nat.not_le.2 hlt]
    · next hlt => simp [hfour, Nat.not_lt.1 hlt]

end CfgSys

section Accesses

variable {hDev : Addr} {w : World} {d : KernelDevice}

theorem pciReadCfg32_moves (hinit : w.initHDevFunc hDev = .ok (.ok d)) (sys : CfgSys)
    (dwOffset val : UInt32) : ∃ ret fds, pciReadCfg32 sys hDev dwOffset (some val) w =
      .ok (ret, some (loadUInt32 (copyBytes (sys.file d).content dwOffset.toNat 0
        (sys.moved d dwOffset) (storeUInt32 val))), { w with fds }) := by
  unfold pciReadCfg32 CfgSys.moved
  simp only [hinit, bind, Except.bind, pure, Except.pure, ← CfgSys.file.eq_def]
  cases cronoGetConfigSpaceSize sys d.pciSlot with
  | error ret => exact ⟨ret, w.fds, by simp [loadUInt32_storeUInt32]⟩
  | ok size =>
    by_cases hexceeds : ExceedsConfig size dwOffset
    · exact ⟨0 - einval, w.fds, by simp [hexceeds, loadUInt32_storeUInt32]⟩
    · simp only [hexceeds, ↓reduceIte]
      rw [report_eq fun err => Except.ok (err, _, _), cronoReadConfig_data]
      exact ⟨_, _, rfl⟩

theorem pciWriteCfg32_moves (hinit : w.initHDevFunc hDev = .ok (.ok d)) (sys : CfgSys)
    (dwOffset val : UInt32) : ∃ ret fds, pciWriteCfg32 sys hDev dwOffset val w =
      .ok (ret, Function.update (fun path => (sys.config path).content)
        (constructConfigFilePath d.pciSlot) (storeBytes (sys.file d).content dwOffset.toNat
          (sys.moved d dwOffset) val.toNat), { w with fds }) := by
  have hsame : Function.update (fun path => (sys.config path).content)
      (constructConfigFilePath d.pciSlot)
      (storeBytes (sys.file d).content dwOffset.toNat 0 val.toNat) =
        fun path => (sys.config path).content := by
    rw [Function.update_eq_self_iff]
    funext i
    exact if_neg fun h => absurd (Nat.lt_of_le_of_lt h.1 h.2) (Nat.lt_irrefl _)
  unfold pciWriteCfg32 CfgSys.moved
  simp only [hinit, bind, Except.bind, pure, Except.pure, ← CfgSys.file.eq_def]
  cases cronoGetConfigSpaceSize sys d.pciSlot with
  | error ret => exact ⟨ret, w.fds, by rw [hsame]⟩
  | ok size =>
    by_cases hexceeds : ExceedsConfig size dwOffset
    · exact ⟨0 - einval, w.fds, by simp only [hexceeds, ↓reduceIte, hsame]⟩
    · simp only [hexceeds, ↓reduceIte]
      rw [report_eq fun err => Except.ok (err, _, _), cronoWriteConfig_content]
      exact ⟨_, _, rfl⟩

end Accesses

/-! ## Runs -/

/-- The system with these configuration files. -/
def CfgSys.on (sys : CfgSys) (files : List Char → Nat → UInt8) : CfgSys :=
  { sys with config := fun path => { sys.config path with content := files path } }

/-- The call with these configuration files. -/
def Call.on (files : List Char → Nat → UInt8) : Call → Call
  | .use (.readCfg sys hDev dwOffset val) => .use (.readCfg (sys.on files) hDev dwOffset val)
  | .use (.writeCfg sys hDev dwOffset val) => .use (.writeCfg (sys.on files) hDev dwOffset val)
  | .use (.scan sys dwVendorId dwDeviceId res) => .use (.scan { sys with
      config := fun k path => { sys.config k path with content := files path } }
      dwVendorId dwDeviceId res)
  | .use (.registry (.openDev sys slot)) => .use (.registry (.openDev { sys with
      config := fun path => { sys.config path with content := files path } } slot))
  | c => c

/-- What a write to a configuration space moved. -/
structure CfgWrite where
  slot : PciSlot
  write : ByteWrite

namespace Program

/-- The configuration files after the call. -/
def filesAfter (p : Program) (files : List Char → Nat → UInt8) : Call → List Char → Nat → UInt8
  | .use (.writeCfg sys hDev dwOffset val) =>
    match pciWriteCfg32 sys hDev dwOffset val p.world with
    | .ok (_, files, _) => files
    | .error _ => files
  | _ => files

def moves (p : Program) : Call → List CfgWrite
  | .use (.writeCfg sys hDev dwOffset val) =>
    match p.world.initHDevFunc hDev with
    | .ok (.ok d) => [⟨d.pciSlot, ⟨dwOffset.toNat, sys.moved d dwOffset, val.toNat⟩⟩]
    | _ => []
  | _ => []

end Program

/-- A program on a system with configuration files, and the log of what writes
moved to them, the latest first. -/
structure CfgTraced where
  program : Program
  files : List Char → Nat → UInt8
  log : List CfgWrite

namespace CfgTraced

def step (t : CfgTraced) (c : Call) : Except Fault CfgTraced := do
  let program ← t.program.step (c.on t.files)
  return ⟨program, t.program.filesAfter t.files (c.on t.files),
    t.program.moves (c.on t.files) ++ t.log⟩

/-- The writes to the configuration space of the slot. -/
def writesTo (t : CfgTraced) (s : PciSlot) : List ByteWrite :=
  t.log.filterMap fun e => if e.slot = s then some e.write else none

/-- The configuration file of every slot has the bytes of the writes to it. -/
def Coherent (files : List Char → Nat → UInt8) (t : CfgTraced) : Prop :=
  ∀ s i, t.files (constructConfigFilePath s) i =
    latest (files (constructConfigFilePath s)) (t.writesTo s) i

/-- The programs of all runs from `p` on. -/
def Reaches (p : Program) (files : List Char → Nat → UInt8) (t : CfgTraced) : Prop :=
  Reach step (fun t c => t.program.Legal (c.on t.files)) ⟨p, files, []⟩ t

end CfgTraced

section Runs

variable {p : Program} {files : List Char → Nat → UInt8} {t t' : CfgTraced} {c : Call}

/-- A call other than a write leaves the files alone. -/
theorem Program.spares_files (p : Program) (files : List Char → Nat → UInt8)
    (hc : ∀ sys hDev dwOffset val, c ≠ .use (.writeCfg sys hDev dwOffset val)) :
    p.filesAfter files c = files ∧ p.moves c = [] := by
  cases c with
  | cleanup | query => exact ⟨rfl, rfl⟩
  | use u =>
    cases u with
    | writeCfg sys hDev dwOffset val => exact absurd rfl (hc sys hDev dwOffset val)
    | _ => exact ⟨rfl, rfl⟩

/-- A write moves bytes to the file of its own device. -/
theorem Program.filesAfter_write {sys : CfgSys} {hDev : Addr} {dwOffset val : UInt32}
    (hs : ∃ p', p.step (.use (.writeCfg sys hDev dwOffset val)) = .ok p')
    (hfiles : ∀ path, (sys.config path).content = files path) :
    (p.filesAfter files (.use (.writeCfg sys hDev dwOffset val)) = files ∧
      p.moves (.use (.writeCfg sys hDev dwOffset val)) = []) ∨
    ∃ s n, p.filesAfter files (.use (.writeCfg sys hDev dwOffset val)) =
        Function.update files (constructConfigFilePath s)
          (storeBytes (files (constructConfigFilePath s)) dwOffset.toNat n val.toNat) ∧
      p.moves (.use (.writeCfg sys hDev dwOffset val)) = [⟨s, ⟨dwOffset.toNat, n, val.toNat⟩⟩] := by
  have hsame : (fun path => (sys.config path).content) = files := funext hfiles
  simp only [Program.filesAfter, Program.moves]
  cases hinit : p.world.initHDevFunc hDev with
  | error f =>
    obtain ⟨p', hs⟩ := hs
    obtain ⟨c', hc', -⟩ := bind_eq_ok hs
    obtain ⟨r, hr, -⟩ := bind_eq_ok hc'
    have hinit' : p.client.world.initHDevFunc hDev = .error f := hinit
    simp only [pciWriteCfg32, hinit', bind, Except.bind] at hr
    cases hr
  | ok r =>
  cases r with
  | error ret =>
    left
    simp only [pciWriteCfg32, hinit, bind, Except.bind, pure, Except.pure]
    exact ⟨hsame, trivial⟩
  | ok d =>
    right
    obtain ⟨ret, fds, heq⟩ := pciWriteCfg32_moves hinit sys dwOffset val
    refine ⟨d.pciSlot, sys.moved d dwOffset, ?_, rfl⟩
    rw [heq]
    simp only [CfgSys.file, hfiles]

theorem coherent_step (hc : t.Coherent files) (hs : t.step c = .ok t') : t'.Coherent files := by
  obtain ⟨p', hstep, hs⟩ := bind_eq_ok hs
  cases hs
  intro s i
  simp only [CfgTraced.writesTo, List.filterMap_append]
  by_cases hwrite : ∃ sys hDev dwOffset val, c = .use (.writeCfg sys hDev dwOffset val)
  case neg =>
    have hnot (sys : CfgSys) (hDev : Addr) (dwOffset val : UInt32) :
        c.on t.files ≠ .use (.writeCfg sys hDev dwOffset val) := by
      intro he
      unfold Call.on at he
      split at he
      all_goals first
        | exact hwrite ⟨_, _, _, _, rfl⟩
        | exact hwrite ⟨_, _, _, _, he⟩
        | cases he
    obtain ⟨hfiles, hmoves⟩ := t.program.spares_files t.files hnot
    rw [hfiles, hmoves]
    exact hc s i
  obtain ⟨sys, hDev, dwOffset, val, rfl⟩ := hwrite
  have hcontent (path : List Char) : ((sys.on t.files).config path).content = t.files path := rfl
  rcases Program.filesAfter_write ⟨p', hstep⟩ hcontent with
    ⟨hfiles, hmoves⟩ | ⟨slot, n, hfiles, hmoves⟩
  · simp only [Call.on, hfiles, hmoves]
    exact hc s i
  simp only [Call.on, hfiles, hmoves, List.filterMap_cons, List.filterMap_nil]
  by_cases hslot : slot = s
  · subst hslot
    simp only [Function.update_self, ↓reduceIte, List.singleton_append]
    have hfile : t.files (constructConfigFilePath slot) =
        latest (files (constructConfigFilePath slot)) (t.writesTo slot) := funext (hc slot)
    rw [hfile, storeBytes_eq_latest]
    rfl
  · have hpath : constructConfigFilePath s ≠ constructConfigFilePath slot :=
      fun he => hslot (constructConfigFilePath_inj he).symm
    simp only [Function.update_of_ne hpath, hslot, ↓reduceIte, List.nil_append]
    exact hc s i

/-- In every run, whatever handles come and go and however the transfers are cut
into pieces or fail, a read of a configuration space moves bytes that the latest
writes to the same slot moved there, or that the file held at the start; the
bytes that it does not get to are those of the caller's variable. It gets to all
four when the range fits and the transfer is complete. -/
theorem config_coherent (ht : CfgTraced.Reaches p files t) {hDev : Addr} {d : KernelDevice}
    (hd : t.program.world.initHDevFunc hDev = .ok (.ok d)) (sys : CfgSys) (dwOffset val : UInt32) :
    (sys.moved d dwOffset = 4 ↔ sys.Within d dwOffset ∧ sys.Transfers d) ∧
    ∃ ret val' w', pciReadCfg32 (sys.on t.files) hDev dwOffset (some val) t.program.world =
        .ok (ret, some val', w') ∧
      ∀ k, k < 4 → val'.toNat / 2 ^ (8 * k) % 2 ^ 8 =
        if k < sys.moved d dwOffset then
          (latest (files (constructConfigFilePath d.pciSlot)) (t.writesTo d.pciSlot)
            (dwOffset.toNat + k)).toNat
        else val.toNat / 2 ^ (8 * k) % 2 ^ 8 := by
  refine ⟨sys.moved_eq_four d dwOffset, ?_⟩
  have hcoherent : t.Coherent files :=
    Reach.invariant (I := fun t => t.Coherent files) (fun _ _ => rfl)
      (fun _ _ _ hc _ hs => coherent_step hc hs) ht
  obtain ⟨ret, fds, heq⟩ := pciReadCfg32_moves hd (sys.on t.files) dwOffset val
  refine ⟨ret, _, _, heq, ?_⟩
  intro k hk
  rw [loadUInt32_byte _ hk, copyBytes]
  have hmoved : (sys.on t.files).moved d dwOffset = sys.moved d dwOffset := rfl
  rw [hmoved, Nat.zero_add]
  by_cases hlt : k < sys.moved d dwOffset
  · rw [if_pos ⟨Nat.zero_le k, hlt⟩, if_pos hlt]
    have hfile := hcoherent d.pciSlot (dwOffset.toNat + k)
    rw [← hfile]
    rfl
  · rw [if_neg fun h => hlt h.2, if_neg hlt, storeUInt32, UInt8.toNat_ofNat']

/-- A write that stops after three bytes, one to another device, and the first
device is closed and opened again. -/
def Call.registers : List Call :=
  [.use (.registry (.opens 1 16)), .use (.registry (.opens 2 32)),
    .use (.writeCfg { CfgSys.small 256 4 with
      config := fun _ => ⟨none, fun _ => 0, fun k => if k = 0 then .count 3 else .fail .inval⟩ }
      16 8 0x44332211),
    .use (.writeCfg (.small 256 4) 32 8 0xFFFFFFFF), .use (.registry (.closes 16 5)),
    .use (.registry (.opens 1 48))]

theorem config_coherent_registers : ∃ t d ret w',
    CfgTraced.Reaches (.start .boot) (fun _ i => .ofNat (i + 1)) t ∧
    t.program.world.initHDevFunc 48 = .ok (.ok d) ∧
    pciReadCfg32 ((CfgSys.small 256 2).on t.files) 48 8 (some 0) t.program.world =
      .ok (ret, some 0x0C332211, w') ∧
    ∀ k, k < 4 → (0x0C332211 : UInt32).toNat / 2 ^ (8 * k) % 2 ^ 8 =
      if k < (CfgSys.small 256 2).moved d 8 then
        (latest (fun i => .ofNat (i + 1)) (t.writesTo d.pciSlot) (8 + k)).toNat
      else (0 : UInt32).toNat / 2 ^ (8 * k) % 2 ^ 8 := by
  obtain ⟨t, ht, hinit, hread⟩ : ∃ t, CfgTraced.Reaches (.start .boot)
      (fun _ i => .ofNat (i + 1)) t ∧
      (match t.program.world.initHDevFunc 48 with | .ok (.ok _) => true | _ => false) = true ∧
      (pciReadCfg32 ((CfgSys.small 256 2).on t.files) 48 8 (some 0) t.program.world).map
        (fun r => r.2.1) = .ok (some 0x0C332211) :=
    exists_reach_of_run Call.registers (by decide)
  cases hd : t.program.world.initHDevFunc 48 with
  | error f => simp [hd] at hinit
  | ok r =>
  cases r with
  | error ret => simp [hd] at hinit
  | ok d =>
    obtain ⟨-, ret, val', w', heq, hbytes⟩ := config_coherent ht hd (.small 256 2) 8 0
    rw [heq] at hread
    cases hread
    exact ⟨t, d, ret, w', ht, hd, heq, hbytes⟩

end Runs

end CronoPci
