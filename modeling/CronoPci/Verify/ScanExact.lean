import CronoPci.Verify.Scan
import CronoPci.Verify.Session

/-!
# Exactness and bounds of a scan

A scan is exact when no link whose name lacks a field, or whose ids are read
short, is taken for a match, and when the caller's count is 0 in case nothing is
expected. It stays within the arrays of the result when it takes at most
`CRONO_KERNEL_PCI_CARDS` links for matches.
-/

namespace CronoPci

open Posix

/-- The result lists exactly these devices, in order. -/
structure ScanResult.Exact (res : ScanResult) (es : List ScanEntry) : Prop where
  count : res.dwNumDevices.toNat = es.length
  entry : ∀ i e, es[i]? = some e → res.Holds i e

/-- A scan that returns has stored what it reports. -/
theorem pciScanDevices_ok {sys : ScanSys} {dwVendorId dwDeviceId : UInt32} {ret : Code}
    {prior res : ScanResult} {w w' : World}
    (h : pciScanDevices sys dwVendorId dwDeviceId (some prior) w = .ok (ret, some res, w')) :
    (sys.reported dwVendorId dwDeviceId).length ≤ pciCards ∧
      Stored 0 (sys.reported dwVendorId dwDeviceId) prior res := by
  obtain ⟨fds', -, heq⟩ := sys.pciScanDevices_eq dwVendorId dwDeviceId prior w
  rw [heq] at h
  rcases Nat.lt_or_ge pciCards (sys.reported dwVendorId dwDeviceId).length with hlt | hle
  · rw [storeAll_error (Nat.zero_le _) (by omega)] at h
    cases h
  · obtain ⟨res', hall, hstored⟩ := storeAll_ok prior 0
      (show 0 + (sys.reported dwVendorId dwDeviceId).length ≤ pciCards by omega)
    rw [hall] at h
    cases h
    exact ⟨hle, hstored⟩

namespace Stored

variable {es : List ScanEntry} {prior res : ScanResult}

theorem count_nil (h : Stored 0 es prior res) (hnil : es = []) :
    res.dwNumDevices = prior.dwNumDevices := by rw [h.count, if_pos hnil]

theorem count_length (h : Stored 0 es prior res) (hne : es ≠ []) (hle : es.length ≤ pciCards) :
    res.dwNumDevices.toNat = es.length := by
  rw [h.count, if_neg hne, Nat.zero_add, UInt32.toNat_ofNat', Nat.mod_eq_of_lt]
  exact Nat.lt_of_le_of_lt hle (by decide)

theorem holds (h : Stored 0 es prior res) {i : Nat} {e : ScanEntry} (he : es[i]? = some e) :
    res.Holds i e := by
  have := h.entry i e he
  rwa [Nat.zero_add] at this

end Stored

/-- A scan that returns success lists exactly the devices that the entries of
the directory give by themselves when it takes no incomplete link for a match,
and the caller's count was 0 if there are none. -/
theorem scan_exact_iff {sys : ScanSys} {dwVendorId dwDeviceId : UInt32} {prior res : ScanResult}
    {w w' : World} (h : pciScanDevices sys dwVendorId dwDeviceId (some prior) w =
      .ok (cronoSuccess, some res, w')) :
    res.Exact (sys.expected dwVendorId dwDeviceId) ↔
      (∀ r ∈ sys.links, r.Reported dwVendorId dwDeviceId → r.Complete) ∧
        (sys.expected dwVendorId dwDeviceId = [] → prior.dwNumDevices = 0) := by
  obtain ⟨hcards, hstored⟩ := pciScanDevices_ok h
  obtain ⟨hle, hiff⟩ := sys.expected_le dwVendorId dwDeviceId
  constructor
  · intro hexact
    have hcount := hexact.count
    by_cases hnil : sys.reported dwVendorId dwDeviceId = []
    · have hlen : (sys.expected dwVendorId dwDeviceId).length = 0 := by
        rw [hnil] at hle
        exact Nat.le_zero.1 hle
      refine ⟨hiff.1 (by rw [hlen, hnil, List.length_nil]), ?_⟩
      intro _
      rw [hstored.count_nil hnil, hlen] at hcount
      exact UInt32.toNat_inj.1 hcount
    · have hlen : (sys.expected dwVendorId dwDeviceId).length =
          (sys.reported dwVendorId dwDeviceId).length := by
        rw [← hcount, hstored.count_length hnil hcards]
      refine ⟨hiff.1 hlen, ?_⟩
      intro hempty
      rw [hempty] at hlen
      exact absurd (List.length_eq_zero_iff.1 hlen.symm) hnil
  · rintro ⟨hcomplete, hzero⟩
    have heq := sys.expected_eq_reported dwVendorId dwDeviceId hcomplete
    rw [heq] at hzero ⊢
    refine ⟨?_, fun i e => hstored.holds⟩
    by_cases hnil : sys.reported dwVendorId dwDeviceId = []
    · rw [hstored.count_nil hnil, hzero hnil, hnil]
      rfl
    · exact hstored.count_length hnil hcards

/-- A configuration file that starts with the bytes `86 80 00 10`, of which a
read gets `n` at a time. -/
def ConfigSys.small (n : Nat) : ConfigSys :=
  ⟨none, fun i => if i = 0 then 0x86 else if i = 1 then 0x80 else if i = 3 then 0x10 else 0,
    fun _ => .count n⟩

/-- The functions on the buses 1 and 2. The ids of the first are read at once,
those of the second `n` bytes at a time. -/
def ScanSys.small (n : Nat) : ScanSys where
  stat := .ok true
  errno := 0
  opendir := .ok [⟨dtLnk, kernelName (busSlot 1)⟩, ⟨dtLnk, kernelName (busSlot 2)⟩]
  slotVars := ⟨0, 0, 0, 0⟩
  ids := (0, 0)
  config k _ := .small (if k = 0 then 4 else n)

/-- A result after `memset`. -/
def ScanResult.zero : ScanResult := ⟨0, Vector.replicate _ ⟨0, 0⟩, Vector.replicate _ ⟨0, 0, 0, 0⟩⟩

/-- Two functions, the second of which is read in two pieces. -/
theorem scan_exact_two : ∃ res w', pciScanDevices (.small 2) pciAnyId pciAnyId (some .zero) .boot =
    .ok (cronoSuccess, some res, w') ∧
      res.Exact ((ScanSys.small 2).expected pciAnyId pciAnyId) := by
  obtain ⟨res, w', h⟩ : ∃ res w', pciScanDevices (.small 2) pciAnyId pciAnyId (some .zero) .boot =
    .ok (cronoSuccess, some res, w') := ⟨_, _, rfl⟩
  exact ⟨res, w', h, (scan_exact_iff h).2 ⟨by decide, by decide⟩⟩

/-- The second function's ids cannot be read, and it is listed with those of the
first. -/
theorem scan_repeats_ids : ∃ res w',
    pciScanDevices (.small 0) 0x8086 0x1000 (some .zero) .boot =
        .ok (cronoSuccess, some res, w') ∧
      res.dwNumDevices = 2 ∧ res.Holds 1 ⟨busSlot 2, (0x8086, 0x1000)⟩ ∧
      (ScanSys.small 0).expected 0x8086 0x1000 = [⟨busSlot 1, (0x8086, 0x1000)⟩] ∧
      ¬res.Exact ((ScanSys.small 0).expected 0x8086 0x1000) := by
  refine ⟨_, _, rfl, rfl, ⟨rfl, rfl⟩, by decide, ?_⟩
  intro h
  exact absurd h.count (by decide)

/-! ## The arrays of the result -/

/-- A scan stores in range and leaves a count in range when it takes at most
`CRONO_KERNEL_PCI_CARDS` links for matches, and the caller's count is in range
in case it takes none. -/
theorem scan_within_iff (sys : ScanSys) (dwVendorId dwDeviceId : UInt32) (prior : ScanResult)
    (w : World) :
    (∃ ret res w', pciScanDevices sys dwVendorId dwDeviceId (some prior) w =
        .ok (ret, some res, w') ∧ res.dwNumDevices.toNat ≤ pciCards) ↔
      (sys.reported dwVendorId dwDeviceId).length ≤ pciCards ∧
        (sys.reported dwVendorId dwDeviceId = [] → prior.dwNumDevices.toNat ≤ pciCards) := by
  constructor
  · rintro ⟨ret, res, w', h, hcount⟩
    obtain ⟨hle, hstored⟩ := pciScanDevices_ok h
    refine ⟨hle, ?_⟩
    intro hnil
    rwa [hstored.count_nil hnil] at hcount
  · rintro ⟨hle, hprior⟩
    obtain ⟨fds', -, heq⟩ := sys.pciScanDevices_eq dwVendorId dwDeviceId prior w
    obtain ⟨res, hall, hstored⟩ := storeAll_ok prior 0
      (show 0 + (sys.reported dwVendorId dwDeviceId).length ≤ pciCards by omega)
    rw [hall] at heq
    refine ⟨_, _, _, heq, ?_⟩
    by_cases hnil : sys.reported dwVendorId dwDeviceId = []
    · rw [hstored.count_nil hnil]
      exact hprior hnil
    · rw [hstored.count_length hnil hle]
      exact hle

/-- A listing all of whose entries give a device. -/
theorem length_entriesOf {config : Nat → List Char → ConfigSys} {dwVendorId dwDeviceId : UInt32}
    {ens : List Dirent} (h : ∀ en ∈ ens, ∀ k, (entryOf config dwVendorId dwDeviceId k en).isSome)
    (k : Nat) : (entriesOf config dwVendorId dwDeviceId ens k).length = ens.length := by
  induction ens generalizing k with
  | nil => rfl
  | cons en ens ih =>
    obtain ⟨hen, hens⟩ := List.forall_mem_cons.1 h
    obtain ⟨e, he⟩ := Option.isSome_iff_exists.1 (hen k)
    rw [entriesOf_cons, he, List.length_append, ih hens, List.length_cons]
    exact Nat.add_comm ..

/-- `n` functions on as many buses, all with the same ids. -/
def ScanSys.many (n : Nat) : ScanSys where
  stat := .ok true
  errno := 0
  opendir := .ok ((List.range n).map fun i => ⟨dtLnk, kernelName (busSlot (.ofNat i))⟩)
  slotVars := ⟨0, 0, 0, 0⟩
  ids := (0, 0)
  config _ _ := .small 4

/-- 101 functions match: the store of the last one is outside the arrays. -/
theorem scan_overruns : pciScanDevices (.many 101) pciAnyId pciAnyId (some .zero) .boot =
    .error (.scanIndex 100) := by
  have hall : ∀ en ∈ (ScanSys.many 101).listing, ∀ k,
      (entryOf (ScanSys.many 101).config pciAnyId pciAnyId k en).isSome := by
    intro en hen k
    obtain ⟨i, hi, rfl⟩ := List.mem_map.1 hen
    have hvalid : (busSlot (.ofNat i)).Valid := by
      have hi := List.mem_range.1 hi
      refine ⟨?_, show (0 : UInt32) ≤ 0x1F by decide, show (0 : UInt32) ≤ 7 by decide⟩
      rw [busSlot, UInt32.le_iff_toNat_le, UInt32.toNat_ofNat', Nat.mod_eq_of_lt (by omega)]
      exact Nat.le_trans (Nat.le_of_lt hi) (by decide)
    have hread : (ConfigSys.small 4).ending 4 = .full ∧
        FilterMatches pciAnyId pciAnyId (ConfigSys.small 4).fileIds := by decide
    rw [entryOf, if_neg (not_not_intro rfl), slotOfName_kernelName hvalid]
    simp only [ScanSys.many, hread, and_self, ↓reduceIte, Option.isSome_some]
  have hlen : 101 ≤ ((ScanSys.many 101).reported pciAnyId pciAnyId).length := by
    refine Nat.le_trans ?_ ((ScanSys.many 101).expected_le pciAnyId pciAnyId).1
    rw [ScanSys.expected, length_entriesOf hall]
    simp [ScanSys.listing, ScanSys.many]
  obtain ⟨fds', -, heq⟩ := (ScanSys.many 101).pciScanDevices_eq pciAnyId pciAnyId .zero .boot
  rw [heq, storeAll_error (Nat.zero_le _) (by rw [Nat.zero_add]; exact hlen)]
  rfl

end CronoPci
