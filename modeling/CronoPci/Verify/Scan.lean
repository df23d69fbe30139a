import CronoPci.Model.Scan
import CronoPci.Verify.Bars
import CronoPci.Verify.Names
import CronoPci.Verify.Transfer

/-!
# What a scan reports

The loop of `CRONO_KERNEL_PciScanDevices` reports an entry for each symbolic
link at which the ids were read without an error and pass the filter, with the
slot and the ids that its variables hold then. A name that lacks a field, or a
read that stops short, leaves values of earlier entries in the variables; and
the count is only set by a match. `reported` is the list stored, `expected` the
list that the entries themselves give, and the two are compared.
-/

namespace CronoPci

open Posix

/-! ## Entries -/

/-- A device of the result. -/
structure ScanEntry where
  slot : PciSlot
  ids : Ids
  deriving DecidableEq

def ScanEntry.id (e : ScanEntry) : PciId := ⟨e.ids.1.toUInt32, e.ids.2.toUInt32⟩

/-- A symbolic link as the loop leaves it: the variables after its name and its
configuration file were read, and that file. -/
structure Reading where
  name : List Char
  vars : SlotVars
  file : ConfigSys
  ids : Ids

/-- The `k`-th entry read, a link, with what the variables hold before it. -/
def readLink (config : Nat → List Char → ConfigSys) (k : Nat) (en : Dirent) (v : SlotVars)
    (ids : Ids) : Reading :=
  let v := sscanfSlot en.dName v
  let file := config k (constructConfigFilePath v.toSlot)
  ⟨en.dName, v, file, if file.ending 4 = .full then file.fileIds else ids⟩

/-- The links of a listing from the `k`-th entry on. -/
def readings (config : Nat → List Char → ConfigSys) : List Dirent → (k : Nat) → SlotVars → Ids →
    List Reading
  | [], _, _, _ => []
  | en :: ens, k, v, ids =>
    if en.dType ≠ dtLnk then readings config ens (k + 1) v ids
    else
      let r := readLink config k en v ids
      r :: readings config ens (k + 1) r.vars r.ids

namespace Reading

variable (dwVendorId dwDeviceId : UInt32)

/-- The loop takes the link for a match. -/
def Reported (r : Reading) : Prop :=
  (r.file.ending 4 = .full ∨ r.file.ending 4 = .short) ∧ FilterMatches dwVendorId dwDeviceId r.ids

instance (r : Reading) : Decidable (r.Reported dwVendorId dwDeviceId) :=
  inferInstanceAs (Decidable (_ ∧ _))

/-- What is stored for the link. -/
def entry (r : Reading) : Option ScanEntry :=
  if r.Reported dwVendorId dwDeviceId then some ⟨r.vars.toSlot, r.ids⟩ else none

/-- The name has all four fields and the ids were read in full, so that no
variable holds an earlier value. -/
def Complete (r : Reading) : Prop := (slotOfName r.name).isSome ∧ r.file.ending 4 = .full

instance (r : Reading) : Decidable r.Complete := inferInstanceAs (Decidable (_ ∧ _))

end Reading

/-- The device that the `k`-th entry of a listing gives by itself: a symbolic
link with a well-formed name whose ids can be read in full and pass the filter. -/
def entryOf (config : Nat → List Char → ConfigSys) (dwVendorId dwDeviceId : UInt32) (k : Nat)
    (en : Dirent) : Option ScanEntry :=
  if en.dType ≠ dtLnk then none
  else match slotOfName en.dName with
    | none => none
    | some s =>
      let file := config k (constructConfigFilePath s)
      if file.ending 4 = .full ∧ FilterMatches dwVendorId dwDeviceId file.fileIds then
        some ⟨s, file.fileIds⟩
      else none

/-- The devices of a listing, in its order. -/
def entriesOf (config : Nat → List Char → ConfigSys) (dwVendorId dwDeviceId : UInt32)
    (ens : List Dirent) (k : Nat) : List ScanEntry :=
  (ens.zipIdx k).filterMap fun en => entryOf config dwVendorId dwDeviceId en.2 en.1

variable {config : Nat → List Char → ConfigSys} {dwVendorId dwDeviceId : UInt32}

/-- An entry gives by itself what is stored for it when it is complete. -/
theorem entryOf_link {k : Nat} {en : Dirent} (hlink : en.dType = dtLnk) (v : SlotVars)
    (ids : Ids) : entryOf config dwVendorId dwDeviceId k en =
      if (readLink config k en v ids).Complete then
        (readLink config k en v ids).entry dwVendorId dwDeviceId
      else none := by
  unfold entryOf
  rw [if_neg (not_not_intro hlink)]
  cases hs : slotOfName en.dName with
  | none => simp [Reading.Complete, readLink, hs]
  | some s =>
    have hv : (sscanfSlot en.dName v).toSlot = s := by
      rw [sscanfSlot_of_slotOfName hs]
      rfl
    by_cases hfull : (config k (constructConfigFilePath s)).ending 4 = .full
    · simp [Reading.Complete, Reading.entry, Reading.Reported, readLink, hs, hv, hfull]
    · simp [Reading.Complete, readLink, hs, hv, hfull]

theorem entriesOf_cons (en : Dirent) (ens : List Dirent) (k : Nat) :
    entriesOf config dwVendorId dwDeviceId (en :: ens) k =
      (entryOf config dwVendorId dwDeviceId k en).toList ++
        entriesOf config dwVendorId dwDeviceId ens (k + 1) := by
  unfold entriesOf
  rw [List.zipIdx_cons, List.filterMap_cons]
  cases entryOf config dwVendorId dwDeviceId k en <;> rfl

/-- The devices of a listing are the complete links that are reported, whatever
the variables held at first. -/
theorem entriesOf_eq (ens : List Dirent) (k : Nat) (v : SlotVars) (ids : Ids) :
    entriesOf config dwVendorId dwDeviceId ens k =
      (readings config ens k v ids).filterMap fun r =>
        if r.Complete then r.entry dwVendorId dwDeviceId else none := by
  induction ens generalizing k v ids with
  | nil => rfl
  | cons en ens ih =>
    rw [entriesOf_cons, readings]
    by_cases hlink : en.dType = dtLnk
    · rw [if_neg (not_not_intro hlink), List.filterMap_cons, entryOf_link hlink v ids,
        ih (k + 1) (readLink config k en v ids).vars (readLink config k en v ids).ids]
      cases (if (readLink config k en v ids).Complete then
        (readLink config k en v ids).entry dwVendorId dwDeviceId else none) <;> rfl
    · rw [if_pos hlink, ih (k + 1) v ids]
      simp [entryOf, hlink]

/-! ## The result after the loop -/

/-- The devices stored one after the other. -/
def storeAll (index : Nat) (res : ScanResult) : List ScanEntry → Except Fault ScanResult
  | [] => .ok res
  | e :: es => do
    let res ← res.store index e.slot e.ids
    storeAll (index + 1) res es

/-- Element `i` of the result is the device `e`. -/
def ScanResult.Holds (res : ScanResult) (i : Nat) (e : ScanEntry) : Prop :=
  res.deviceSlot[i]? = some e.slot ∧ res.deviceId[i]? = some e.id

theorem store_eq_ok {res res' : ScanResult} {index : Nat} {e : ScanEntry} :
    res.store index e.slot e.ids = .ok res' ↔ ∃ h : index < pciCards,
      res' = ⟨UInt32.ofNat (index + 1), res.deviceId.set index e.id h,
        res.deviceSlot.set index e.slot h⟩ := by
  unfold ScanResult.store
  split
  · next h => simp [h, ScanEntry.id, eq_comm]
  · next h => simp [h]

/-- The devices `es` were stored from `index` on. The count is the index after
the last one. -/
structure Stored (index : Nat) (es : List ScanEntry) (prior res : ScanResult) : Prop where
  count : res.dwNumDevices =
    if es = [] then prior.dwNumDevices else UInt32.ofNat (index + es.length)
  entry : ∀ i e, es[i]? = some e → res.Holds (index + i) e
  rest : ∀ i, i < index ∨ index + es.length ≤ i →
    res.deviceSlot[i]? = prior.deviceSlot[i]? ∧ res.deviceId[i]? = prior.deviceId[i]?

theorem Stored.nil (index : Nat) (res : ScanResult) : Stored index [] res res :=
  ⟨rfl, fun i e he => by simp at he, fun _ _ => ⟨rfl, rfl⟩⟩

/-- A device stored before the others. -/
theorem Stored.cons {index : Nat} {e : ScanEntry} {es : List ScanEntry}
    {prior res res' : ScanResult}
    (hstore : prior.store index e.slot e.ids = .ok res) (h : Stored (index + 1) es res res') :
    Stored index (e :: es) prior res' := by
  obtain ⟨hlt, hset⟩ := store_eq_ok.1 hstore
  refine ⟨?_, ?_, ?_⟩
  · rw [h.count, hset, List.length_cons, Nat.add_comm es.length 1, ← Nat.add_assoc]
    split
    · next hnil => simp [hnil]
    · simp
  · intro i e' he'
    cases i with
    | zero =>
      obtain rfl : e = e' := by simpa using he'
      obtain ⟨hslot, hid⟩ := h.rest index (Or.inl (Nat.lt_succ_self index))
      refine ⟨?_, ?_⟩
      · rw [Nat.add_zero, hslot, hset]
        simp [hlt]
      · rw [Nat.add_zero, hid, hset]
        simp [hlt]
    | succ i =>
      have := h.entry i e' (by simpa using he')
      rwa [Nat.add_assoc, Nat.add_comm 1 i] at this
  · intro i hi
    rw [List.length_cons] at hi
    obtain ⟨hslot, hid⟩ := h.rest i (by omega)
    have hne : index ≠ i := by omega
    rw [hslot, hid, hset]
    simp [Vector.getElem?_set_ne, hne]

/-- Stores up to the end of the arrays succeed. -/
theorem storeAll_ok (res : ScanResult) (index : Nat) {es : List ScanEntry}
    (h : index + es.length ≤ pciCards) :
    ∃ res', storeAll index res es = .ok res' ∧ Stored index es res res' := by
  induction es generalizing index res with
  | nil => exact ⟨res, rfl, .nil index res⟩
  | cons e es ih =>
    rw [List.length_cons] at h
    obtain ⟨res₁, hres₁⟩ : ∃ res₁, res.store index e.slot e.ids = .ok res₁ :=
      ⟨_, store_eq_ok.2 ⟨show index < pciCards by omega, rfl⟩⟩
    obtain ⟨res', hall, hstored⟩ := ih res₁ (index + 1) (by omega)
    refine ⟨res', ?_, hstored.cons hres₁⟩
    simp only [storeAll, hres₁, bind, Except.bind, hall]

/-- One store more runs past the arrays. -/
theorem storeAll_error {res : ScanResult} {index : Nat} {es : List ScanEntry}
    (hle : index ≤ pciCards) (h : pciCards < index + es.length) :
    storeAll index res es = .error (.scanIndex pciCards) := by
  induction es generalizing index res with
  | nil =>
    simp at h
    omega
  | cons e es ih =>
    rw [List.length_cons] at h
    simp only [storeAll]
    rcases Nat.eq_or_lt_of_le hle with rfl | hlt
    · rfl
    · obtain ⟨res₁, hres₁⟩ : ∃ res₁, res.store index e.slot e.ids = .ok res₁ :=
        ⟨_, store_eq_ok.2 ⟨hlt, rfl⟩⟩
      simp only [hres₁, bind, Except.bind]
      exact ih hlt (by omega)

/-! ## The scan -/

/-- The loop at a link. -/
theorem scanLoop_link (dwVendorId dwDeviceId : UInt32) (sys : ScanSys) {en : Dirent}
    (hlink : en.dType = dtLnk) (ens : List Dirent) (k : Nat) (v : SlotVars) (ids : Ids)
    (index : Nat) (res : ScanResult)
    (fds : FdTable) :
    ∃ fds', FdTable.Balanced fds fds' ∧
      scanLoop sys dwVendorId dwDeviceId (en :: ens) k v ids index (some res) fds =
        match (readLink sys.config k en v ids).entry dwVendorId dwDeviceId with
        | none =>
          scanLoop sys dwVendorId dwDeviceId ens (k + 1) (readLink sys.config k en v ids).vars
            (readLink sys.config k en v ids).ids index (some res) fds'
        | some e => (res.store index e.slot e.ids) >>= fun res =>
            scanLoop sys dwVendorId dwDeviceId ens (k + 1) (readLink sys.config k en v ids).vars
              (readLink sys.config k en v ids).ids (index + 1) (some res) fds' := by
  have hids := cronoReadVendorDevice_result (constructConfigFilePath (sscanfSlot en.dName v).toSlot)
    (readLink sys.config k en v ids).file ids fds
  refine ⟨(cronoReadVendorDevice (constructConfigFilePath (sscanfSlot en.dName v).toSlot)
    (readLink sys.config k en v ids).file ids fds).2.2, cronoReadVendorDevice_balanced .., ?_⟩
  rw [scanLoop, if_neg (not_not_intro hlink)]
  have hread : cronoReadVendorDevice (constructConfigFilePath (sscanfSlot en.dName v).toSlot)
      (sys.config k (constructConfigFilePath (sscanfSlot en.dName v).toSlot)) ids fds =
        (endingCode ((readLink sys.config k en v ids).file.ending 4),
          (readLink sys.config k en v ids).ids,
          (cronoReadVendorDevice (constructConfigFilePath (sscanfSlot en.dName v).toSlot)
            (readLink sys.config k en v ids).file ids fds).2.2) := by
    rw [← hids.1]
    exact Prod.ext rfl (Prod.ext hids.2 rfl)
  simp only [hread, ne_eq, endingCode_eq_success, Reading.entry, Reading.Reported]
  by_cases hok : (readLink sys.config k en v ids).file.ending 4 = .full ∨
      (readLink sys.config k en v ids).file.ending 4 = .short
  · simp only [hok, not_true_eq_false, ↓reduceIte, true_and]
    split <;> rfl
  · simp only [hok, not_false_eq_true, ↓reduceIte, false_and]
    rfl

/-- The loop stores the links it takes for matches, and closes every file. -/
theorem scanLoop_eq (dwVendorId dwDeviceId : UInt32) (sys : ScanSys) (ens : List Dirent) (k : Nat)
    (v : SlotVars) (ids : Ids)
    (index : Nat) (res : ScanResult) (fds : FdTable) :
    ∃ fds', FdTable.Balanced fds fds' ∧
      scanLoop sys dwVendorId dwDeviceId ens k v ids index (some res) fds =
        (storeAll index res ((readings sys.config ens k v ids).filterMap
          (Reading.entry dwVendorId dwDeviceId))).map fun res => (some res, fds') := by
  induction ens generalizing k v ids index res fds with
  | nil => exact ⟨fds, .refl fds, rfl⟩
  | cons en ens ih =>
    by_cases hlink : en.dType = dtLnk
    · obtain ⟨fds₁, hbal, hstep⟩ := scanLoop_link dwVendorId dwDeviceId sys hlink ens k v ids
        index res fds
      rw [hstep, readings, if_neg (not_not_intro hlink), List.filterMap_cons]
      cases (readLink sys.config k en v ids).entry dwVendorId dwDeviceId with
      | none =>
        obtain ⟨fds', hbal', heq⟩ := ih (k + 1) _ _ index res fds₁
        exact ⟨fds', hbal.balanced hbal', heq⟩
      | some e =>
        simp only [storeAll]
        cases res.store index e.slot e.ids with
        | error f => exact ⟨fds, .refl fds, rfl⟩
        | ok res₁ =>
          obtain ⟨fds', hbal', heq⟩ := ih (k + 1) _ _ (index + 1) res₁ fds₁
          exact ⟨fds', hbal.balanced hbal', heq⟩
    · rw [scanLoop, if_pos hlink, readings, if_pos hlink]
      exact ih (k + 1) v ids index res fds

/-- A selection that also drops the elements without `p` is as long as before
only if it drops nothing. -/
theorem length_filterMap_ite {α β : Type} (p : α → Prop) [DecidablePred p] (f : α → Option β)
    (l : List α) :
    (l.filterMap fun a => if p a then f a else none).length ≤ (l.filterMap f).length ∧
      ((l.filterMap fun a => if p a then f a else none).length = (l.filterMap f).length ↔
        ∀ a ∈ l, (f a).isSome → p a) := by
  induction l with
  | nil => simp
  | cons a l ih =>
    obtain ⟨hle, hiff⟩ := ih
    rw [List.forall_mem_cons, ← hiff]
    by_cases hp : p a
    · cases hf : f a <;> simp [hf, hp, hle]
    · cases hf : f a with
      | none => simp [hf, hp, hle]
      | some b =>
        simp only [hp, hf, ↓reduceIte, List.filterMap_cons, List.length_cons, Option.isSome_some,
          forall_const, false_and, iff_false]
        omega

namespace ScanSys

variable (sys : ScanSys) (dwVendorId dwDeviceId : UInt32)

/-- The entries that the loop runs over. -/
def listing : List Dirent :=
  match sys.stat, sys.opendir with
  | .ok true, .ok ens => ens
  | _, _ => []

/-- The code returned. -/
def code : Code :=
  match sys.stat, sys.opendir with
  | .error e, _ => e.code
  | .ok false, _ => sys.errno
  | .ok true, .error e => e.code
  | .ok true, .ok _ => cronoSuccess

/-- The links of the listing as the loop reads them. -/
def links : List Reading := readings sys.config sys.listing 0 sys.slotVars sys.ids

/-- The devices stored. -/
def reported : List ScanEntry := sys.links.filterMap (Reading.entry dwVendorId dwDeviceId)

/-- The devices of the listing. -/
def expected : List ScanEntry := entriesOf sys.config dwVendorId dwDeviceId sys.listing 0

/-- A scan stores the devices reported, closes every file it opened and leaves
the rest of the process alone. -/
theorem pciScanDevices_eq (prior : ScanResult) (w : World) :
    ∃ fds', FdTable.Balanced w.fds fds' ∧
      pciScanDevices sys dwVendorId dwDeviceId (some prior) w =
        (storeAll 0 prior (sys.reported dwVendorId dwDeviceId)).map
          fun res => (sys.code, some res, { w with fds := fds' }) := by
  have hempty (h : sys.listing = []) : sys.reported dwVendorId dwDeviceId = [] := by
    unfold reported links
    rw [h]
    rfl
  unfold pciScanDevices
  cases hstat : sys.stat with
  | error e =>
    refine ⟨w.fds, .refl w.fds, ?_⟩
    rw [hempty (by simp [listing, hstat])]
    simp [code, hstat, storeAll, Except.map]
  | ok isDir =>
    cases isDir with
    | false =>
      refine ⟨w.fds, .refl w.fds, ?_⟩
      rw [hempty (by simp [listing, hstat])]
      simp [code, hstat, storeAll, Except.map]
    | true =>
      cases hopen : sys.opendir with
      | error e =>
        refine ⟨w.fds, .refl w.fds, ?_⟩
        rw [hempty (by simp [listing, hstat, hopen])]
        simp [code, hstat, hopen, storeAll, Except.map]
      | ok ens =>
        obtain ⟨fds', hbal, heq⟩ := scanLoop_eq dwVendorId dwDeviceId sys ens 0 sys.slotVars
          sys.ids 0 prior (w.fds.install sysBusPcidevsPath)
        refine ⟨fds'.close w.fds.lowest, hbal.bracket, ?_⟩
        have hreported : sys.reported dwVendorId dwDeviceId =
            (readings sys.config ens 0 sys.slotVars sys.ids).filterMap
              (Reading.entry dwVendorId dwDeviceId) := by
          simp [reported, links, listing, hstat, hopen]
        rw [hreported]
        simp only [Bool.not_true, Bool.false_eq_true, ↓reduceIte, heq, code, hstat, hopen]
        cases storeAll 0 prior _ <;> rfl

/-- The devices expected are among those reported, and all of them when every
link reported is complete. -/
theorem expected_le : (sys.expected dwVendorId dwDeviceId).length ≤
      (sys.reported dwVendorId dwDeviceId).length ∧
    ((sys.expected dwVendorId dwDeviceId).length = (sys.reported dwVendorId dwDeviceId).length ↔
      ∀ r ∈ sys.links, r.Reported dwVendorId dwDeviceId → r.Complete) := by
  have hsome (r : Reading) :
      (r.entry dwVendorId dwDeviceId).isSome ↔ r.Reported dwVendorId dwDeviceId := by
    unfold Reading.entry
    split <;> simp_all
  have h := length_filterMap_ite Reading.Complete (Reading.entry dwVendorId dwDeviceId) sys.links
  simp only [hsome] at h
  unfold expected reported links
  rw [entriesOf_eq sys.listing 0 sys.slotVars sys.ids]
  exact h

theorem expected_eq_reported (h : ∀ r ∈ sys.links, r.Reported dwVendorId dwDeviceId → r.Complete) :
    sys.expected dwVendorId dwDeviceId = sys.reported dwVendorId dwDeviceId := by
  unfold expected reported links
  rw [entriesOf_eq sys.listing 0 sys.slotVars sys.ids]
  apply List.filterMap_congr
  intro r hr
  split
  · rfl
  · next hnot =>
    unfold Reading.entry
    rw [if_neg (fun hrep => hnot (h r hr hrep))]

end ScanSys

end CronoPci
