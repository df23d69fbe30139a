import CronoPci.Verify.ScanOpen
import Mathlib.Data.List.Basic

/-!
# Names of slots and device nodes

The paths built from a slot are those of the entry that the kernel names, for
every 32-bit domain: a domain above `0xFFFF` has its own format, which prints it
as the kernel does. The names of the device nodes have no separators after the
id, but widths that make them unique.
-/

namespace CronoPci

open Posix Posix.Text

/-! ## The paths of an entry -/

/-- A domain with more than four digits is printed without padding. -/
theorem slotText_wide {s : PciSlot} (hs : ¬s.dwDomain ≤ 0xFFFF) : slotText 1 s = slotText 4 s := by
  have hdomain : 16 ^ (4 - 1) ≤ s.dwDomain.toNat := by
    have hlt : (0xFFFF : UInt32).toNat < s.dwDomain.toNat :=
      UInt32.lt_iff_toNat_lt.1 (UInt32.not_le.1 hs)
    have hval : (0xFFFF : UInt32).toNat = 65535 := rfl
    omega
  simp only [slotText, printUnsigned_eq, digitsOf_eq_of_le (show 1 < 16 by omega) hdomain]

/-- The printed fields of a slot take at most 16 characters. -/
theorem length_kernelName_le {s : PciSlot} (hs : s.Valid) : (kernelName s).length ≤ 16 := by
  have hdomain : (digitsOf 16 4 s.dwDomain.toNat).length ≤ max 4 8 :=
    length_digitsOf_le (by omega) (by omega) s.dwDomain.toNat_lt
  have hbus : (digitsOf 16 2 s.dwBus.toNat).length = 2 := by
    have : s.dwBus.toNat ≤ 0xFF := hs.bus
    exact length_digitsOf (by omega) (by omega) (by omega)
  have hdev : (digitsOf 16 2 s.dwSlot.toNat).length = 2 := by
    have : s.dwSlot.toNat ≤ 0x1F := hs.dev
    exact length_digitsOf (by omega) (by omega) (by omega)
  have hfunc : (digitsOf 10 1 s.dwFunction.toNat).length = 1 := by
    have : s.dwFunction.toNat ≤ 7 := hs.func
    exact length_digitsOf (by omega) (by omega) (by omega)
  simp only [kernelName, slotText, printUnsigned_eq, List.length_append, List.length_cons,
    List.length_map, hbus, hdev, hfunc]
  omega

theorem truncateTo_of_lt {size : Nat} {cs : List Char} (h : cs.length < size) :
    truncateTo size cs = cs := by
  unfold truncateTo
  exact List.take_of_length_le (by omega)

/-- The path of an entry fits its buffer. -/
theorem length_path_lt {s : PciSlot} (hs : s.Valid) :
    (sysBusPcidevsPath ++ '/' :: (kernelName s ++ "/config".toList)).length < pathMax := by
  have hname := length_kernelName_le hs
  have hdir : sysBusPcidevsPath.length = 20 := by decide
  have hconfig : "/config".toList.length = 7 := by decide
  simp only [List.length_append, List.length_cons, hdir, hconfig, pathMax]
  omega

theorem constructDevSlinkPath_eq {s : PciSlot} (hs : s.Valid) :
    constructDevSlinkPath s = sysBusPcidevsPath ++ '/' :: kernelName s := by
  have hlen : (sysBusPcidevsPath ++ '/' :: kernelName s).length < pathMax := by
    have := length_path_lt hs
    simp only [List.length_append, List.length_cons] at this ⊢
    omega
  unfold constructDevSlinkPath
  split
  · exact truncateTo_of_lt hlen
  · next hdomain =>
    rw [slotText_wide hdomain]
    exact truncateTo_of_lt hlen

theorem constructConfigFilePath_eq {s : PciSlot} (hs : s.Valid) :
    constructConfigFilePath s =
      sysBusPcidevsPath ++ '/' :: (kernelName s ++ "/config".toList) := by
  unfold constructConfigFilePath
  split
  · exact truncateTo_of_lt (length_path_lt hs)
  · next hdomain =>
    rw [slotText_wide hdomain]
    exact truncateTo_of_lt (length_path_lt hs)

/-- The name that the kernel gives a function reads back as its slot, and the
paths built from the slot are those of the entry of that name, in full. -/
theorem slot_names_round_trip {s : PciSlot} (hs : s.Valid) :
    (∀ v : SlotVars, sscanfSlot (kernelName s) v = s.vars) ∧
    constructDevSlinkPath s = sysBusPcidevsPath ++ '/' :: kernelName s ∧
    constructConfigFilePath s =
      sysBusPcidevsPath ++ '/' :: (kernelName s ++ "/config".toList) ∧
    (constructConfigFilePath s).length < pathMax := by
  refine ⟨fun v => sscanfSlot_of_slotOfName (slotOfName_kernelName hs) v,
    constructDevSlinkPath_eq hs, constructConfigFilePath_eq hs, ?_⟩
  rw [constructConfigFilePath_eq hs]
  exact length_path_lt hs

/-- A domain of five digits. -/
theorem slot_names_wide_domain :
    sscanfSlot "10000:03:1f.7".toList ⟨9, 9, 9, 9⟩ = ⟨0x10000, 3, 0x1f, 7⟩ ∧
      constructDevSlinkPath ⟨0x10000, 3, 0x1f, 7⟩ =
        "/sys/bus/pci/devices/10000:03:1f.7".toList := by
  have hname : kernelName ⟨0x10000, 3, 0x1f, 7⟩ = "10000:03:1f.7".toList := by decide
  obtain ⟨hscan, hlink, -⟩ := slot_names_round_trip (s := ⟨0x10000, 3, 0x1f, 7⟩)
    ⟨by decide, by decide, by decide⟩
  rw [hname] at hscan hlink
  exact ⟨hscan _, hlink⟩

/-! ## The nodes of devices -/

/-- The ranges that the name parser of Open admits on names of the kernel. -/
structure SlotVars.Fits (v : SlotVars) : Prop where
  bus : v.bus ≤ 0xFF
  dev : v.dev ≤ 0xFF
  func : v.func ≤ 9

/-- The part of a name after the id. -/
def functionText (v : SlotVars) : List Char :=
  printUnsigned true 16 2 v.domain.toNat ++ printUnsigned true 16 2 v.bus.toNat ++
    printUnsigned true 16 2 v.dev.toNat ++ printUnsigned true 16 1 v.func.toNat

/-- The name before it is cut to its buffer. -/
def miscdevText (deviceId : UInt16) (v : SlotVars) : List Char :=
  "crono_".toList ++ printUnsigned true 16 2 deviceId.toNat ++ '_' :: functionText v

theorem length_printUnsigned {upper : Bool} {base width n : Nat} (hb : 1 < base) (hw : 0 < width)
    (hn : n < base ^ width) : (printUnsigned upper base width n).length = width := by
  rw [printUnsigned_eq, List.length_map, length_digitsOf hb hw hn]

/-- A digit is no underscore. -/
theorem underscore_notMem_print (width n : Nat) : '_' ∉ printUnsigned true 16 width n :=
  notMem_print true (by omega) (by omega) rfl width n

theorem underscore_notMem_functionText (v : SlotVars) : '_' ∉ functionText v := by
  simp only [functionText, List.mem_append, underscore_notMem_print, or_self, not_false_eq_true]

section Fields

variable {v v' : SlotVars} (hv : v.Fits) (hv' : v'.Fits)

include hv

theorem SlotVars.Fits.lengths (upper : Bool) :
    (printUnsigned upper 16 2 v.bus.toNat).length = 2 ∧
      (printUnsigned upper 16 2 v.dev.toNat).length = 2 ∧
        (printUnsigned upper 16 1 v.func.toNat).length = 1 := by
  have hbus : v.bus.toNat ≤ 0xFF := hv.bus
  have hdev : v.dev.toNat ≤ 0xFF := hv.dev
  have hfunc : v.func.toNat ≤ 9 := hv.func
  exact ⟨length_printUnsigned (by omega) (by omega) (by omega),
    length_printUnsigned (by omega) (by omega) (by omega),
    length_printUnsigned (by omega) (by omega) (by omega)⟩

/-- The name takes at most 24 of the 31 characters of its buffer. -/
theorem length_miscdevText_le (deviceId : UInt16) : (miscdevText deviceId v).length ≤ 24 := by
  obtain ⟨hbus, hdev, hfunc⟩ := hv.lengths true
  have hid : (digitsOf 16 2 deviceId.toNat).length ≤ max 2 4 :=
    length_digitsOf_le (by omega) (by omega) deviceId.toNat_lt
  have hdomain : (digitsOf 16 2 v.domain.toNat).length ≤ max 2 8 :=
    length_digitsOf_le (by omega) (by omega) v.domain.toNat_lt
  have hprefix : "crono_".toList.length = 6 := by decide
  unfold miscdevText functionText
  simp only [List.length_append, List.length_cons, hprefix, hbus, hdev, hfunc]
  rw [printUnsigned_eq, printUnsigned_eq, List.length_map, List.length_map]
  omega

theorem constructMiscdevName_eq (deviceId : UInt16) :
    constructMiscdevName deviceId v = miscdevText deviceId v := by
  have hlen : (miscdevText deviceId v).length < 32 :=
    Nat.lt_of_le_of_lt (length_miscdevText_le hv deviceId) (by omega)
  exact truncateTo_of_lt hlen

include hv'

/-- The numbers after the id are told apart by the widths of the last three. -/
theorem functionText_inj (h : functionText v = functionText v') : v = v' := by
  obtain ⟨hbus, hdev, hfunc⟩ := hv.lengths true
  obtain ⟨hbus', hdev', hfunc'⟩ := hv'.lengths true
  obtain ⟨h, hfuncs⟩ := List.append_inj' h (hfunc.trans hfunc'.symm)
  obtain ⟨h, hdevs⟩ := List.append_inj' h (hdev.trans hdev'.symm)
  obtain ⟨hdomains, hbuses⟩ := List.append_inj' h (hbus.trans hbus'.symm)
  have heq {width : Nat} {n m : UInt32} (h : printUnsigned true 16 width n.toNat =
      printUnsigned true 16 width m.toNat) : n = m :=
    UInt32.toNat_inj.1 (printUnsigned_inj (by omega) (by omega) h)
  cases v
  cases v'
  rw [SlotVars.mk.injEq]
  exact ⟨heq hdomains, heq hbuses, heq hdevs, heq hfuncs⟩

/-- Different ids or functions have different names. -/
theorem miscdevText_inj {deviceId deviceId' : UInt16}
    (h : miscdevText deviceId v = miscdevText deviceId' v') : deviceId = deviceId' ∧ v = v' := by
  unfold miscdevText at h
  rw [List.append_assoc, List.append_assoc] at h
  obtain ⟨hids, -, hfields⟩ := (List.append_cons_inj_of_notMem (underscore_notMem_print 2 _)
    (underscore_notMem_functionText v)).1 (List.append_cancel_left h)
  exact ⟨UInt16.toNat_inj.1 (printUnsigned_inj (by omega) (by omega) hids),
    functionText_inj hv hv' hfields⟩

end Fields

/-- Names of device nodes fit their buffer, and tell device ids and functions
apart, so that two Opens of one node are Opens of one slot. -/
theorem miscdev_names_identify {deviceId deviceId' : UInt16} {v v' : SlotVars} (hv : v.Fits)
    (hv' : v'.Fits) :
    constructMiscdevName deviceId v = miscdevText deviceId v ∧
    (constructMiscdevName deviceId v).length < 32 ∧
    (constructMiscdevName deviceId v = constructMiscdevName deviceId' v' →
      deviceId = deviceId' ∧ v = v') ∧
    ∀ sys slot w sys' slot' w', OpensMisc sys slot w v → OpensMisc sys' slot' w' v' →
      miscdevPath (foundDevice sys slot v w.fds) = miscdevPath (foundDevice sys' slot' v' w'.fds) →
        slot = slot' ∧ (readIds sys v w.fds).2.1.2 = (readIds sys' v' w'.fds).2.1.2 := by
  have hlen := length_miscdevText_le hv deviceId
  have hinj {id id' : UInt16} (h : constructMiscdevName id v = constructMiscdevName id' v') :
      id = id' ∧ v = v' := by
    rw [constructMiscdevName_eq hv, constructMiscdevName_eq hv'] at h
    exact miscdevText_inj hv hv' h
  refine ⟨constructMiscdevName_eq hv deviceId, ?_, hinj, ?_⟩
  · rw [constructMiscdevName_eq hv]
    omega
  · intro sys slot w sys' slot' w' hopens hopens' hpath
    obtain ⟨hid, hvars⟩ := hinj (List.append_cancel_left hpath)
    rw [hopens.found.eq_vars, hopens'.found.eq_vars] at hvars
    refine ⟨?_, hid⟩
    cases slot
    cases slot'
    simpa [PciSlot.vars] using hvars

/-- The devices on bus 1 and bus 2 are opened by different nodes. -/
theorem miscdev_names_apart : ∃ v v', v.Fits ∧ v'.Fits ∧
    constructMiscdevName 0x606 v ≠ constructMiscdevName 0x606 v' ∧
    OpensMisc (.small 1 16 none (.small [] fun _ => 0)) (busSlot 1) .boot v ∧
    OpensMisc (.small 2 32 none (.small [] fun _ => 0)) (busSlot 2) .boot v' ∧
    miscdevPath (foundDevice (.small 1 16 none (.small [] fun _ => 0)) (busSlot 1) v
        World.boot.fds) ≠
      miscdevPath (foundDevice (.small 2 32 none (.small [] fun _ => 0)) (busSlot 2) v'
        World.boot.fds) := by
  have hfits : SlotVars.Fits ⟨0, 1, 0, 0⟩ := ⟨by decide, by decide, by decide⟩
  have hfits' : SlotVars.Fits ⟨0, 2, 0, 0⟩ := ⟨by decide, by decide, by decide⟩
  have hopens : OpensMisc (.small 1 16 none (.small [] fun _ => 0)) (busSlot 1) .boot
      ⟨0, 1, 0, 0⟩ := ⟨⟨⟨_, rfl, rfl⟩, by decide, by decide, rfl⟩, rfl, rfl, rfl⟩
  have hopens' : OpensMisc (.small 2 32 none (.small [] fun _ => 0)) (busSlot 2) .boot
      ⟨0, 2, 0, 0⟩ := ⟨⟨⟨_, rfl, rfl⟩, by decide, by decide, rfl⟩, rfl, rfl, rfl⟩
  obtain ⟨-, -, hinj, hnodes⟩ := @miscdev_names_identify 0x606 0x606 _ _ hfits hfits'
  refine ⟨_, _, hfits, hfits', ?_, hopens, hopens', ?_⟩
  · intro h
    exact absurd (SlotVars.mk.inj (hinj h).2).2.1 (by decide)
  · intro hpath
    have hslot := (hnodes _ _ _ _ _ _ hopens hopens' hpath).1
    exact absurd hslot (by decide)

end CronoPci
