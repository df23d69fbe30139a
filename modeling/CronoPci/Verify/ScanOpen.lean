import CronoPci.Verify.ScanExact

/-!
# Scan and Open agree

The loops of `CRONO_KERNEL_PciScanDevices` and `CRONO_KERNEL_PciDeviceOpen` are
written separately. Over listings of the same functions, in whatever order each
of them sees it, opening the slot of an entry that Scan wrote gives the device
with the ids of that entry: the kernel's names read back as the slots they were
printed from, and no name leaves a variable as it was.
-/

namespace CronoPci

open Posix

/-! ## Listings -/

/-- The symbolic links of a listing are those of the functions, under the
kernel's names and in any order. -/
def Lists (ens : List Dirent) (functions : List PciSlot) : Prop :=
  ((ens.filter fun en => en.dType = dtLnk).map Dirent.dName).Perm (functions.map kernelName)

instance (ens : List Dirent) (functions : List PciSlot) : Decidable (Lists ens functions) :=
  inferInstanceAs (Decidable (List.Perm _ _))

/-- All four id bytes can be read, and give these ids. -/
structure ConfigSys.Yields (file : ConfigSys) (ids : Ids) : Prop where
  full : file.ending 4 = .full
  ids : file.fileIds = ids

/-- The variables that name a slot. -/
def PciSlot.vars (s : PciSlot) : SlotVars := ⟨s.dwDomain, s.dwBus, s.dwSlot, s.dwFunction⟩

theorem SlotVars.matches_vars {s t : PciSlot} : t.vars.Matches s ↔ s = t := by
  cases s
  cases t
  simp [SlotVars.Matches, PciSlot.vars]

/-- A link of the listing is that of one of the functions. -/
theorem Lists.mem {ens : List Dirent} {functions : List PciSlot} (h : Lists ens functions)
    {en : Dirent} (hen : en ∈ ens) (hlink : en.dType = dtLnk) :
    ∃ s ∈ functions, en.dName = kernelName s := by
  have hmem : en.dName ∈ functions.map kernelName := by
    rw [← List.Perm.mem_iff h]
    exact List.mem_map.2 ⟨en, List.mem_filter.2 ⟨hen, by simpa using hlink⟩, rfl⟩
  obtain ⟨s, hs, he⟩ := List.mem_map.1 hmem
  exact ⟨s, hs, he.symm⟩

/-- Each function has its link. -/
theorem Lists.exists_link {ens : List Dirent} {functions : List PciSlot}
    (h : Lists ens functions) {s : PciSlot} (hs : s ∈ functions) :
    ∃ en ∈ ens, en.dType = dtLnk ∧ en.dName = kernelName s := by
  have hmem : kernelName s ∈ (ens.filter fun en => en.dType = dtLnk).map Dirent.dName := by
    rw [List.Perm.mem_iff h]
    exact List.mem_map_of_mem hs
  obtain ⟨en, hen, he⟩ := List.mem_map.1 hmem
  obtain ⟨hen, hlink⟩ := List.mem_filter.1 hen
  exact ⟨en, hen, by simpa using hlink, he⟩

/-! ## Scan -/

section scan

variable {functions : List PciSlot} {ids : PciSlot → Ids} {dwVendorId dwDeviceId : UInt32}

/-- The device of the function with this name, if it passes the filter. -/
def namedEntry (ids : PciSlot → Ids) (dwVendorId dwDeviceId : UInt32) (name : List Char) :
    Option ScanEntry :=
  (slotOfName name).bind fun s =>
    if FilterMatches dwVendorId dwDeviceId (ids s) then some ⟨s, ids s⟩ else none

theorem entriesOf_eq_names {config : Nat → List Char → ConfigSys}
    (hvalid : ∀ s ∈ functions, s.Valid)
    (hread : ∀ k, ∀ s ∈ functions, (config k (constructConfigFilePath s)).Yields (ids s))
    {ens : List Dirent}
    (hens : ∀ en ∈ ens, en.dType = dtLnk → ∃ s ∈ functions, en.dName = kernelName s) (k : Nat) :
    entriesOf config dwVendorId dwDeviceId ens k =
      ((ens.filter fun en => en.dType = dtLnk).map Dirent.dName).filterMap
        (namedEntry ids dwVendorId dwDeviceId) := by
  induction ens generalizing k with
  | nil => rfl
  | cons en ens ih =>
    obtain ⟨hen, hrest⟩ := List.forall_mem_cons.1 hens
    rw [entriesOf_cons, ih hrest]
    by_cases hlink : en.dType = dtLnk
    · obtain ⟨s, hs, hname⟩ := hen hlink
      have hslot : slotOfName en.dName = some s := by
        rw [hname]
        exact slotOfName_kernelName (hvalid s hs)
      have hyields := hread k s hs
      have hentry : entryOf config dwVendorId dwDeviceId k en =
          namedEntry ids dwVendorId dwDeviceId en.dName := by
        simp [entryOf, namedEntry, hlink, hslot, hyields.full, hyields.ids]
      rw [List.filter_cons_of_pos (by simpa using hlink), List.map_cons, List.filterMap_cons,
        hentry]
      cases namedEntry ids dwVendorId dwDeviceId en.dName <;> rfl
    · rw [List.filter_cons_of_neg (by simpa using hlink)]
      simp [entryOf, hlink]

theorem filterMap_namedEntry (hvalid : ∀ s ∈ functions, s.Valid) :
    (functions.map kernelName).filterMap (namedEntry ids dwVendorId dwDeviceId) =
      (functions.filter fun s => FilterMatches dwVendorId dwDeviceId (ids s)).map
        fun s => ⟨s, ids s⟩ := by
  induction functions with
  | nil => rfl
  | cons s functions ih =>
    obtain ⟨hs, hrest⟩ := List.forall_mem_cons.1 hvalid
    rw [List.map_cons, List.filterMap_cons, ih hrest, namedEntry, slotOfName_kernelName hs]
    by_cases h : FilterMatches dwVendorId dwDeviceId (ids s)
    · rw [List.filter_cons_of_pos (by simpa using h)]
      simp [h]
    · rw [List.filter_cons_of_neg (by simpa using h)]
      simp [h]

/-- No variable keeps a value from one link to the next. -/
theorem readings_complete {config : Nat → List Char → ConfigSys}
    (hvalid : ∀ s ∈ functions, s.Valid)
    (hread : ∀ k, ∀ s ∈ functions, (config k (constructConfigFilePath s)).Yields (ids s))
    {ens : List Dirent}
    (hens : ∀ en ∈ ens, en.dType = dtLnk → ∃ s ∈ functions, en.dName = kernelName s) (k : Nat)
    (v : SlotVars) (i : Ids) : ∀ r ∈ readings config ens k v i, r.Complete := by
  induction ens generalizing k v i with
  | nil => simp [readings]
  | cons en ens ih =>
    obtain ⟨hen, hrest⟩ := List.forall_mem_cons.1 hens
    rw [readings]
    by_cases hlink : en.dType = dtLnk
    · rw [if_neg (not_not_intro hlink), List.forall_mem_cons]
      refine ⟨?_, ih hrest (k + 1) _ _⟩
      obtain ⟨s, hs, hname⟩ := hen hlink
      have hslot : slotOfName en.dName = some s := by
        rw [hname]
        exact slotOfName_kernelName (hvalid s hs)
      refine ⟨by simp [readLink, hslot], ?_⟩
      rw [readLink, sscanfSlot_of_slotOfName hslot]
      exact (hread k s hs).full
    · rw [if_pos hlink]
      exact ih hrest (k + 1) v i

/-- Scan reports the functions that pass the filter, in the order of the
listing. -/
theorem reported_perm (dwVendorId dwDeviceId : UInt32) {sys : ScanSys} {ens : List Dirent}
    (hstat : sys.stat = .ok true) (hdir : sys.opendir = .ok ens)
    (hvalid : ∀ s ∈ functions, s.Valid) (hens : Lists ens functions)
    (hread : ∀ k, ∀ s ∈ functions, (sys.config k (constructConfigFilePath s)).Yields (ids s)) :
    (sys.reported dwVendorId dwDeviceId).Perm
      ((functions.filter fun s => FilterMatches dwVendorId dwDeviceId (ids s)).map
        fun s => ⟨s, ids s⟩) := by
  have hlisting : sys.listing = ens := by simp [ScanSys.listing, hstat, hdir]
  have hmem (en : Dirent) (hen : en ∈ ens) (hlink : en.dType = dtLnk) := hens.mem hen hlink
  rw [← sys.expected_eq_reported, ScanSys.expected, hlisting,
    entriesOf_eq_names hvalid hread hmem, ← filterMap_namedEntry hvalid]
  · exact List.Perm.filterMap _ hens
  · intro r hr _
    unfold ScanSys.links at hr
    rw [hlisting] at hr
    exact readings_complete hvalid hread hmem 0 sys.slotVars sys.ids r hr

end scan

/-! ## Open -/

/-- Over well-formed names, the directory loop of Open stops with the variables
of the slot asked for. -/
theorem matchedVars_eq {functions : List PciSlot} (hvalid : ∀ s ∈ functions, s.Valid)
    {ens : List Dirent}
    (hens : ∀ en ∈ ens, en.dType = dtLnk → ∃ s ∈ functions, en.dName = kernelName s)
    {slot : PciSlot} (hslot : slot ∈ functions)
    (hlisted : ∃ en ∈ ens, en.dType = dtLnk ∧ en.dName = kernelName slot) (v : SlotVars) :
    matchedVars slot ens v = some slot.vars := by
  induction ens generalizing v with
  | nil =>
    obtain ⟨en, hen, -⟩ := hlisted
    simp at hen
  | cons en ens ih =>
    obtain ⟨hen, hrest⟩ := List.forall_mem_cons.1 hens
    obtain ⟨en', hmem, hlink', hname'⟩ := hlisted
    rw [matchedVars]
    by_cases hlink : en.dType = dtLnk
    · obtain ⟨s, hs, hname⟩ := hen hlink
      have hvars : sscanfSlot en.dName v = s.vars := by
        rw [hname]
        exact sscanfSlot_of_slotOfName (slotOfName_kernelName (hvalid s hs)) v
      rw [if_neg (not_not_intro hlink), hvars]
      by_cases heq : slot = s
      · rw [if_pos (SlotVars.matches_vars.2 heq), heq]
      · rw [if_neg (fun h => heq (SlotVars.matches_vars.1 h))]
        rcases List.mem_cons.1 hmem with rfl | hmem
        · rw [hname] at hname'
          exact absurd (kernelName_inj (hvalid s hs) (hvalid slot hslot) hname').symm heq
        · exact ih hrest ⟨en', hmem, hlink', hname'⟩ _
    · rw [if_pos hlink]
      rcases List.mem_cons.1 hmem with rfl | hmem
      · exact absurd hlink' hlink
      · exact ih hrest ⟨en', hmem, hlink', hname'⟩ _

/-- Everything that an Open of the function `slot` needs is there, up to a misc
device that opens, always under a positive number, and BARs that are described. -/
structure OpenSys.Succeeds (sys : OpenSys) (slot : PciSlot) (ids : Ids) (w : World) : Prop where
  room : w.reg.iNewDev < 8
  ne_null : sys.malloc ≠ 0
  fresh : w.heap.get sys.malloc = none
  stat : sys.stat ("/dev/".toList ++ constructMiscdevName ids.2 slot.vars) = none
  misc : sys.openMisc ("/dev/".toList ++ constructMiscdevName ids.2 slot.vars) = none
  bars : ¬FillFails sys.bars slot w.space
  link : ¬LinkOverruns sys.bars slot

/-- The variables of the entry that matched are those of the slot. -/
theorem Found.eq_vars {sys : OpenSys} {slot : PciSlot} {v : SlotVars} (h : Found sys slot v) :
    v = slot.vars := by
  obtain ⟨ens, -, hmatched⟩ := h
  generalize sys.slotVars = v₀ at hmatched
  induction ens generalizing v₀ with
  | nil => cases hmatched
  | cons en ens ih =>
    rw [matchedVars] at hmatched
    split at hmatched
    · exact ih v₀ hmatched
    split at hmatched
    · next hmatches =>
      cases hmatched
      obtain ⟨hdomain, hbus, hdev, hfunc⟩ := hmatches
      simp only [PciSlot.vars, hdomain, hbus, hdev, hfunc]
    · exact ih _ hmatched

/-- The ids that Open takes for `slot`: those in its configuration file or, where
the read stops short, those that the variables held. -/
def OpenSys.seenIds (sys : OpenSys) (slot : PciSlot) : Ids :=
  let file := sys.config (constructConfigFilePath slot)
  if file.ending 4 = .full then file.fileIds else sys.ids

/-- The reading of the ids is reported as a success. -/
def OpenSys.IdsRead (sys : OpenSys) (slot : PciSlot) : Prop :=
  endingCode ((sys.config (constructConfigFilePath slot)).ending 4) = cronoSuccess

/-- Open gets past every check for a listed slot. -/
structure OpenSys.Completes (sys : OpenSys) (slot : PciSlot) (w : World) : Prop where
  found : Found sys slot slot.vars
  ids : sys.IdsRead slot
  succeeds : sys.Succeeds slot (sys.seenIds slot) w

theorem foundDevice_vars (sys : OpenSys) (slot : PciSlot) (fds : FdTable) :
    foundDevice sys slot slot.vars fds = newDevice slot slot.vars (sys.seenIds slot) := by
  obtain ⟨-, hids⟩ := cronoReadVendorDevice_result (constructConfigFilePath slot)
    (sys.config (constructConfigFilePath slot)) sys.ids fds
  rw [foundDevice, readIds, OpenSys.seenIds, ← hids]
  rfl

/-- A call that gets past every check opens the device. -/
theorem OpenResult.completed {sys : OpenSys} {slot : PciSlot} {w : World}
    {r : Except Fault (Code × Addr × World)} (hr : OpenResult sys slot w r)
    (hc : sys.Completes slot w) : ∃ d w', r = .ok (cronoSuccess, sys.malloc, w') ∧
      Opened sys slot slot.vars d w w' := by
  have hsucc := hc.succeeds
  have hopens : OpensMisc sys slot w slot.vars := by
    obtain ⟨herr, -⟩ := cronoReadVendorDevice_result (constructConfigFilePath slot)
      (sys.config (constructConfigFilePath slot)) sys.ids w.fds
    refine ⟨⟨hc.found, hsucc.room, hsucc.ne_null, hsucc.fresh⟩, herr.trans hc.ids, ?_, ?_⟩
    · rw [foundDevice_vars]
      exact hsucc.stat
    · rw [foundDevice_vars]
      exact hsucc.misc
  cases hopens.result hr with
  | link hlink => exact absurd hlink hsucc.link
  | noBars hfails => exact absurd hfails hsucc.bars
  | @opened d w' hopened => exact ⟨d, w', rfl, hopened⟩

/-- Opening one of the functions listed gives a device with its slot and ids. -/
theorem open_listed {functions : List PciSlot} {ids : PciSlot → Ids} {sys : OpenSys}
    {ens : List Dirent} (hdir : sys.opendir = .ok ens) (hvalid : ∀ s ∈ functions, s.Valid)
    (hens : Lists ens functions)
    (hread : ∀ s ∈ functions, (sys.config (constructConfigFilePath s)).Yields (ids s))
    {slot : PciSlot} (hslot : slot ∈ functions) (h : Addr) {w : World}
    (hsucc : sys.Succeeds slot (ids slot) w) :
    ∃ d w', pciDeviceOpen sys (some h) (some slot) w = .ok (cronoSuccess, some sys.malloc, w') ∧
      w'.device? sys.malloc = some d ∧ d.pciSlot = slot ∧
        d.dwVendorId = (ids slot).1.toUInt32 ∧ d.dwDeviceId = (ids slot).2.toUInt32 := by
  have hmatched : matchedVars slot ens sys.slotVars = some slot.vars :=
    matchedVars_eq hvalid (fun en hen hlink => hens.mem hen hlink) hslot
      (hens.exists_link hslot) _
  have hyields := hread slot hslot
  have hids : sys.seenIds slot = ids slot := by
    simp only [OpenSys.seenIds, hyields.full, ↓reduceIte, hyields.ids]
  have hcode : sys.IdsRead slot := by
    rw [OpenSys.IdsRead, hyields.full]
    rfl
  obtain ⟨r, hr, heq⟩ := pciDeviceOpen_result sys h slot w
  obtain ⟨d, w', rfl, hopened⟩ :=
    hr.completed ⟨⟨ens, hdir, hmatched⟩, hcode, by rw [hids]; exact hsucc⟩
  obtain ⟨bars, hd⟩ := hopened.device
  rw [foundDevice_vars, hids] at hd
  refine ⟨d, w', heq, ?_, ?_, ?_, ?_⟩
  · rw [World.device?_eq_some, hopened.get, Function.update_self]
  · rw [hd]; rfl
  · rw [hd]; rfl
  · rw [hd]; rfl

/-! ## Both -/

/-- Every entry that Scan wrote can be opened by its slot, and the device has the
slot and the ids of the entry, whatever the orders of the two listings. -/
theorem open_agrees_with_scan {functions : List PciSlot} (hvalid : ∀ s ∈ functions, s.Valid)
    {ids : PciSlot → Ids} {scan : ScanSys} {ens : List Dirent} (hstat : scan.stat = .ok true)
    (hdir : scan.opendir = .ok ens) (hens : Lists ens functions)
    (hread : ∀ k, ∀ s ∈ functions, (scan.config k (constructConfigFilePath s)).Yields (ids s))
    {dwVendorId dwDeviceId : UInt32} {n : Nat}
    (hn : n = (functions.filter fun s => FilterMatches dwVendorId dwDeviceId (ids s)).length)
    (hcards : n ≤ pciCards) (prior : ScanResult) (w : World) :
    ∃ res w', pciScanDevices scan dwVendorId dwDeviceId (some prior) w =
        .ok (cronoSuccess, some res, w') ∧
      -- the entries from `n` on are as they were
      (∀ i, n ≤ i → res.deviceSlot[i]? = prior.deviceSlot[i]? ∧
        res.deviceId[i]? = prior.deviceId[i]?) ∧
      ∀ i, i < n → ∃ slot id, res.deviceSlot[i]? = some slot ∧ res.deviceId[i]? = some id ∧
        ∀ (sys : OpenSys) (ens' : List Dirent) (h : Addr) (w₁ : World),
          sys.opendir = .ok ens' → Lists ens' functions →
          (∀ s ∈ functions, (sys.config (constructConfigFilePath s)).Yields (ids s)) →
          sys.Succeeds slot (ids slot) w₁ →
          ∃ d w₂, pciDeviceOpen sys (some h) (some slot) w₁ =
              .ok (cronoSuccess, some sys.malloc, w₂) ∧ w₂.device? sys.malloc = some d ∧
            d.pciSlot = slot ∧ d.dwVendorId = id.dwVendorId ∧ d.dwDeviceId = id.dwDeviceId := by
  have hperm := reported_perm dwVendorId dwDeviceId hstat hdir hvalid hens hread
  have hlen : (scan.reported dwVendorId dwDeviceId).length = n := by
    rw [hperm.length_eq, List.length_map, hn]
  obtain ⟨fds', -, heq⟩ := scan.pciScanDevices_eq dwVendorId dwDeviceId prior w
  obtain ⟨res, hall, hstored⟩ := storeAll_ok prior 0
    (show 0 + (scan.reported dwVendorId dwDeviceId).length ≤ pciCards by omega)
  have hcode : scan.code = cronoSuccess := by simp [ScanSys.code, hstat, hdir]
  rw [hall, hcode] at heq
  refine ⟨res, _, heq, ?_, ?_⟩
  · intro i hi
    exact hstored.rest i (by omega)
  · intro i hi
    have hlt : i < (scan.reported dwVendorId dwDeviceId).length := by omega
    have he : (scan.reported dwVendorId dwDeviceId)[i]? =
      some (scan.reported dwVendorId dwDeviceId)[i] := List.getElem?_eq_getElem hlt
    -- the entry is one of the functions with its ids
    have hmem := hperm.mem_iff.1 (List.getElem_mem hlt)
    obtain ⟨s, hs, hentry⟩ := List.mem_map.1 hmem
    rw [← hentry] at he
    obtain ⟨hslot, hid⟩ := hstored.holds he
    refine ⟨s, _, hslot, hid, ?_⟩
    intro sys ens' h w₁ hdir' hens' hread' hsucc
    obtain ⟨d, w₂, hopen, hd, hdslot, hvendor, hdevice⟩ :=
      open_listed hdir' hvalid hens' hread' (List.mem_filter.1 hs).1 h hsucc
    exact ⟨d, w₂, hopen, hd, hdslot, hvendor, hdevice⟩

/-- An Open of the function on bus 2, which `readdir` now lists first, after an
entry that is no link. -/
def OpenSys.reversed : OpenSys :=
  { OpenSys.small 2 16 none (.small [] fun _ => 0) with
    opendir := .ok [⟨4, ['.']⟩, ⟨dtLnk, kernelName (busSlot 2)⟩, ⟨dtLnk, kernelName (busSlot 1)⟩]
    config := fun _ => .small 4 }

/-- The second of two functions scanned is opened. -/
theorem open_agrees_with_scan_two : ∃ res w' id d w₂,
    pciScanDevices (.small 4) pciAnyId 0x1000 (some .zero) .boot =
        .ok (cronoSuccess, some res, w') ∧
      res.deviceSlot[1]? = some (busSlot 2) ∧ res.deviceId[1]? = some id ∧
      pciDeviceOpen .reversed (some 0) (some (busSlot 2)) .boot =
        .ok (cronoSuccess, some 16, w₂) ∧
      w₂.device? 16 = some d ∧ d.pciSlot = busSlot 2 ∧ d.dwVendorId = id.dwVendorId ∧
        d.dwDeviceId = id.dwDeviceId := by
  have hvalid : ∀ s ∈ [busSlot 1, busSlot 2], s.Valid := by decide
  have hens : Lists [⟨dtLnk, kernelName (busSlot 1)⟩, ⟨dtLnk, kernelName (busSlot 2)⟩]
      [busSlot 1, busSlot 2] := by decide
  have hyields : (ConfigSys.small 4).Yields (0x8086, 0x1000) := ⟨by decide, by decide⟩
  have hread : ∀ k, ∀ s ∈ [busSlot 1, busSlot 2],
      ((ScanSys.small 4).config k (constructConfigFilePath s)).Yields (0x8086, 0x1000) := by
    intro k s _
    have hconfig : (ScanSys.small 4).config k (constructConfigFilePath s) = .small 4 := by
      simp [ScanSys.small]
    rw [hconfig]
    exact hyields
  have hn : 2 = ([busSlot 1, busSlot 2].filter
    fun _ => FilterMatches pciAnyId 0x1000 (0x8086, 0x1000)).length := by decide
  obtain ⟨res, w', hscan, -, hopen⟩ :=
    open_agrees_with_scan hvalid rfl rfl hens hread hn (by decide) .zero .boot
  obtain ⟨slot, id, hslot, hid, hopen⟩ := hopen 1 (by decide)
  have hstored : (pciScanDevices (.small 4) pciAnyId 0x1000 (some .zero) .boot).map
      (fun r => r.2.1.bind fun res => res.deviceSlot[1]?) = .ok (some (busSlot 2)) := rfl
  rw [hscan] at hstored
  obtain rfl : slot = busSlot 2 := Option.some.inj (hslot.symm.trans (Except.ok.inj hstored))
  have hfilled : Filled (.small [] fun _ => 0) { KernelDevice.zero with pciSlot := busSlot 2 }
      .boot _ [] .empty := ⟨rfl, ⟨rfl, rfl⟩, rfl, BarTable.tailZero_empty, rfl⟩
  obtain ⟨d, w₂, h⟩ := hopen .reversed _ 0 .boot rfl (by decide) (fun s _ => hyields)
    ⟨by decide, by decide, rfl, rfl, rfl, hfilled.not_fails,
      hfilled.directory.not_overruns⟩
  exact ⟨res, w', id, d, w₂, hscan, hslot, hid, h⟩

end CronoPci
