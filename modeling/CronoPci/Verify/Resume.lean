import CronoPci.Verify.BarNumbers

/-!
# Releasing a device in several calls

The unmapping loop of `freeDeviceMem` is a sweep over the entries of the table
(`unmapBars_eq_sweep`): the table itself records what has been unmapped. So a
call that fails can be repeated, and takes up where the last one stopped.
`Progress` says how far the calls have come, by the number of regions that are
unmapped, until one of them gets through and frees the device.
-/

namespace CronoPci

open Posix Trans

/-! ## What the sweep unmaps -/

namespace BarTable

/-- The regions of the filled entries, mapped for the device in `dir`. -/
def regions (dir : List Char) (t : BarTable) : List (Mapping MapSource) :=
  t.filled.map (BarDesc.mapping dir)

theorem map_indices (t : BarTable) : t.indices.map t.barDescs.get = t.filled := by
  have hall : (List.finRange 6).map t.barDescs.get = t.barDescs.toList := by
    apply List.ext_getElem
    · simp
    · intro i hi hi'
      rw [List.getElem_map, List.getElem_finRange, Vector.getElem_toList]
      rfl
  rw [indices, List.map_take, hall, filled]

theorem length_indices (t : BarTable) : t.indices.length = t.barCount := by
  rw [← List.length_map (f := t.barDescs.get), map_indices, length_filled]

end BarTable

/-- What unmapping different entries does to the table and to the space. -/
theorem foldl_unmapBar (dir : List Char) {ibars : List (Fin 6)} (hnd : ibars.Nodup) (t : BarTable)
    (space : Space) :
    (ibars.foldl unmapBar (t, space)).1.barCount = t.barCount ∧
      (ibars.foldl unmapBar (t, space)).2 =
        space.munmapAll (ibars.map fun j => (t.barDescs.get j).mapping dir) := by
  induction ibars generalizing t space with
  | nil => exact ⟨rfl, rfl⟩
  | cons ibar ibars ih =>
    obtain ⟨hi, hnd⟩ := List.nodup_cons.1 hnd
    obtain ⟨hcount, hspace⟩ := ih hnd (t.clearAddress ibar)
      (space.munmap (t.barDescs.get ibar).userAddress (t.barDescs.get ibar).length.toNat)
    refine ⟨hcount, hspace.trans ?_⟩
    -- the entries after `ibar` have not changed
    have hsame : (ibars.map fun j => ((t.clearAddress ibar).barDescs.get j).mapping dir) =
        ibars.map fun j => (t.barDescs.get j).mapping dir := by
      apply List.map_congr_left
      intro j hj
      have hne : ibar ≠ j := fun he => hi (he ▸ hj)
      rw [t.clearAddress_ne hne]
    rw [hsame]
    rfl

/-! ## The regions of a device -/

/-- `t` is the table that a call of `fill_device_bar_descriptions` has set for
the device at `p`, in the directory `dir`, and the regions that the call mapped
are mapped in `w`. -/
def TableMapped (p : Addr) (dir : List Char) (t : BarTable) (w : World) : Prop :=
  ∃ sys w₀ d₀ w₁, w₀.device? p = some d₀ ∧ d₀.bars.barCount = 0 ∧
    DirectoryIs sys d₀.pciSlot dir ∧
    fillDeviceBarDescriptions sys p w₀ = .ok (cronoSuccess, w₁) ∧
    w₁.device? p = some { d₀ with bars := t } ∧
    ∀ m ∈ w₁.space.maps, m ∉ w₀.space.maps → m ∈ w.space.maps

section Table

variable {p : Addr} {dir : List Char} {t : BarTable} {w : World}

/-- The regions are mapped, at different addresses. -/
theorem TableMapped.regions (h : TableMapped p dir t w) :
    (∀ m ∈ t.regions dir, m ∈ w.space.maps) ∧ ((t.regions dir).map Mapping.start).Nodup := by
  obtain ⟨sys, w₀, d₀, w₁, hd₀, hcount, hdir, hfill, hd₁, hmaps⟩ := h
  obtain ⟨dir', descs, bars, hfilled, hd₁', hspace⟩ := fill_success hd₀ hcount hfill
  obtain rfl : dir' = dir := hfilled.directory.unique hdir
  obtain rfl : bars = t := by
    rw [hd₁, Option.some.injEq, KernelDevice.mk.injEq] at hd₁'
    exact hd₁'.2.2.2.1.symm
  have hregions : bars.regions dir' = descs.map (BarDesc.mapping dir') := by
    rw [BarTable.regions, hfilled.filled]
  have hpair := w₁.space.disjoint
  rw [hspace, hfilled.maps_eq, List.pairwise_append] at hpair
  constructor
  · intro m hm
    rw [hregions] at hm
    have hnew : m ∈ w₁.space.maps := by
      rw [hspace, hfilled.maps_eq]
      exact List.mem_append_left _ (List.mem_reverse.2 hm)
    apply hmaps m hnew
    intro hold
    have hpos := (w₀.space.pos m hold).2
    exact (hpair.2.2 m (List.mem_reverse.2 hm) m hold).start_ne hpos hpos rfl
  · rw [hregions, List.map_map]
    exact hfilled.nodup

/-- Every entry that the loop looks at has an address. -/
theorem TableMapped.hasAddress (h : TableMapped p dir t w) :
    ∀ j ∈ t.indices, HasAddress (t, w.space) j := by
  intro j hj
  have hmem : (t.barDescs.get j).mapping dir ∈ t.regions dir := by
    rw [BarTable.regions, ← t.map_indices]
    exact List.mem_map_of_mem (List.mem_map_of_mem hj)
  exact Nat.ne_of_gt (w.space.pos _ (h.regions.1 _ hmem)).1

end Table

/-! ## Repeated calls -/

/-- A process that calls `freeDeviceMem` on one device, and whether a call has
succeeded. -/
structure Releasing where
  world : World
  released : Bool

namespace Releasing

def step (pDevice : Addr) (s : Releasing) (munmap : Fin 6 → Option Errno) :
    Except Fault Releasing := do
  let (ret, w) ← freeDeviceMem munmap pDevice s.world
  return ⟨w, decide (ret = cronoSuccess)⟩

/-- What calls lead to, up to the first that succeeds. -/
def Reachable (pDevice : Addr) (w : World) (s : Releasing) : Prop :=
  Reach (step pDevice) (fun s _ => s.released = false) ⟨w, false⟩ s

end Releasing

section Run

variable {p : Addr} {d : KernelDevice} {w : World} {s s' : Releasing}

/-- Table and space of the device with the regions of `k` entries unmapped. -/
def unmappedTo (d : KernelDevice) (w : World) (k : Nat) : BarTable × Space :=
  (d.bars.indices.take k).foldl unmapBar (d.bars, w.space)

theorem unmappedTo_space (dir : List Char) (k : Nat) :
    (unmappedTo d w k).2 = w.space.munmapAll ((d.bars.regions dir).take k) := by
  have hnd : (d.bars.indices.take k).Nodup :=
    d.bars.nodup_indices.sublist (List.take_sublist k _)
  rw [unmappedTo, (foldl_unmapBar dir hnd d.bars w.space).2, BarTable.regions, ← d.bars.map_indices,
    List.map_map, ← List.map_take]
  rfl

theorem unmappedTo_indices (k : Nat) : (unmappedTo d w k).1.indices = d.bars.indices := by
  have hnd : (d.bars.indices.take k).Nodup :=
    d.bars.nodup_indices.sublist (List.take_sublist k _)
  unfold BarTable.indices
  rw [← (foldl_unmapBar [] hnd d.bars w.space).1]
  rfl

/-- The loop of a call goes on from the region that the last call stopped at. -/
theorem unmapBars_resume (haddr : ∀ j ∈ d.bars.indices, HasAddress (d.bars, w.space) j)
    {k : Nat} (hk : k ≤ d.bars.barCount) (munmap : Fin 6 → Option Errno) :
    ∃ err k', k ≤ k' ∧ k' ≤ d.bars.barCount ∧ (err = none → k' = d.bars.barCount) ∧
      unmapBars munmap (unmappedTo d w k).1.indices (unmappedTo d w k).1 (unmappedTo d w k).2 =
        (err, unmappedTo d w k') := by
  obtain ⟨k', hle, hk', hstate, hnone⟩ := sweep_resume munmap settles_unmapBar
    d.bars.nodup_indices haddr (d.bars.length_indices.symm ▸ hk)
  rw [d.bars.length_indices] at hk' hnone
  refine ⟨_, k', hle, hk', hnone, ?_⟩
  rw [unmapBars_eq_sweep, unmappedTo_indices]
  exact Prod.ext rfl hstate

/-- How far the calls have come with the device `d` at `p` of the process `w`. -/
inductive Progress (p : Addr) (d : KernelDevice) (w : World) : Releasing → Prop
  | failing {k : Nat} {w' : World} (hk : k ≤ d.bars.barCount)
      (hget : w'.heap.get = Function.update w.heap.get p
        (some (.device { d with bars := (unmappedTo d w k).1 })))
      (hfrees : w'.heap.frees = w.heap.frees) (hreg : w'.reg = w.reg) (hfds : w'.fds = w.fds)
      (hspace : w'.space = (unmappedTo d w k).2) : Progress p d w ⟨w', false⟩
  | released {w' : World} (hget : w'.heap.get = Function.update w.heap.get p none)
      (hfrees : w'.heap.frees = p :: w.heap.frees)
      (hslots : ∀ n : Nat, w.reg.devices[n]? ≠ some p → w'.reg.devices[n]? = w.reg.devices[n]?)
      (hfds : w'.fds = w.fds) (hspace : w'.space = (unmappedTo d w d.bars.barCount).2) :
      Progress p d w ⟨w', true⟩

theorem Progress.start (hd : w.device? p = some d) : Progress p d w ⟨w, false⟩ := by
  refine .failing (Nat.zero_le _) ?_ rfl rfl rfl rfl
  rw [World.device?_eq_some] at hd
  exact (Function.update_eq_self_iff.2 hd.symm).symm

/-- A further call returns, with some more regions unmapped, or with all of them
and the device freed. -/
theorem Progress.step (h : Progress p d w s) (hs : s.released = false)
    (hdist : w.reg.Distinct) (hholds : w.reg.Holds p) (hroom : w.reg.iNewDev < 8)
    (haddr : ∀ j ∈ d.bars.indices, HasAddress (d.bars, w.space) j)
    (munmap : Fin 6 → Option Errno) :
    ∃ s', s.step p munmap = .ok s' ∧ Progress p d w s' := by
  cases h with
  | released => cases hs
  | @failing k w' hk hget hfrees hreg hfds hspace =>
  have hd : w'.device? p = some { d with bars := (unmappedTo d w k).1 } := by
    rw [World.device?_eq_some, hget, Function.update_self]
  have hr := freeDeviceMem_result munmap hd (hreg ▸ hdist)
  obtain ⟨err, k', -, hk', hnone, hun⟩ := unmapBars_resume haddr hk munmap
  unfold Releasing.step
  simp only
  generalize freeDeviceMem munmap p w' = r at hr
  cases hr with
  | @unmapFails e bars space _ h =>
    rw [hspace, hun, Prod.mk.injEq, Prod.ext_iff] at h
    obtain ⟨-, rfl, rfl⟩ := h
    have hblock : (w'.heap.get p).isSome := by rw [hget, Function.update_self]; rfl
    have hret : e.code ≠ cronoSuccess := e.ne_zero
    refine ⟨_, rfl, ?_⟩
    rw [decide_eq_false hret]
    refine .failing hk' ?_ ?_ hreg hfds rfl
    · simp only [World.setDevice, Heap.get_set hblock, hget, Function.update_idem]
    · simp only [World.setDevice, Heap.frees_set, hfrees]
  | @released i bars space w₁ w₂ _ _ hp h hfreed hshrunk =>
    rw [hspace, hun, Prod.mk.injEq, Prod.ext_iff] at h
    obtain ⟨herr, rfl, rfl⟩ := h
    obtain rfl := hnone herr
    refine ⟨_, rfl, .released ?_ ?_ ?_ ?_ ?_⟩
    · rw [hshrunk.heap, hfreed.get, hget, Function.update_idem]
    · rw [hshrunk.heap, hfreed.frees, hfrees]
    · intro n hn
      rw [hreg] at hp
      rw [hshrunk.devices, hfreed.devices, hreg, if_neg]
      rintro rfl
      exact hn hp
    · rw [hshrunk.fds, hfreed.fds, hfds]
    · rw [hshrunk.space, hfreed.space_eq]
  | absent _ hnot => exact absurd (hreg ▸ hholds) hnot
  | full h8 =>
    rw [hreg] at h8
    omega

/-- What the calls have done since `w` to the device `d` at `p`, and to the rest
of the process. -/
structure Resumes (p : Addr) (dir : List Char) (d : KernelDevice) (w : World) (s : Releasing) :
    Prop where
  /-- The first regions of the device are unmapped, each by one call with the
  address and length that it was mapped with; every other region is mapped as
  before. -/
  unmapped : ∃ k, s.world.space.unmaps =
      (((d.bars.regions dir).take k).map Mapping.extent).reverse ++ w.space.unmaps ∧
    ∀ m, m ∈ s.world.space.maps ↔ m ∈ w.space.maps ∧ m ∉ (d.bars.regions dir).take k
  /-- As long as every call failed, the device is allocated and in its slot. -/
  failing : s.released = false → (∃ bars, s.world.device? p = some { d with bars }) ∧
    s.world.reg = w.reg ∧ s.world.heap.frees = w.heap.frees
  /-- The call that succeeds leaves no region, and frees the device once. -/
  freed : s.released = true → (∀ m ∈ d.bars.regions dir, m ∉ s.world.space.maps) ∧
    s.world.heap.get p = none ∧ s.world.heap.frees = p :: w.heap.frees
  blocks : ∀ a, a ≠ p → s.world.heap.get a = w.heap.get a
  slots : ∀ n : Nat, w.reg.devices[n]? ≠ some p → s.world.reg.devices[n]? = w.reg.devices[n]?
  fds : s.world.fds = w.fds

theorem Progress.resumes {dir : List Char} (h : Progress p d w s)
    (hregions : ∀ m ∈ d.bars.regions dir, m ∈ w.space.maps) : Resumes p dir d w s := by
  -- the log and the regions left, by the number of regions unmapped
  have hspace (k : Nat) : (unmappedTo d w k).2.unmaps =
        (((d.bars.regions dir).take k).map Mapping.extent).reverse ++ w.space.unmaps ∧
      ∀ m, m ∈ (unmappedTo d w k).2.maps ↔
        m ∈ w.space.maps ∧ m ∉ (d.bars.regions dir).take k := by
    rw [unmappedTo_space dir k]
    refine ⟨AddressSpace.unmaps_munmapAll, ?_⟩
    intro m
    apply AddressSpace.mem_munmapAll
    intro m' hm'
    exact hregions m' (List.mem_of_mem_take hm')
  cases h with
  | @failing k w' _ hget hfrees hreg hfds hsp =>
    refine ⟨⟨k, by rw [hsp]; exact hspace k⟩, fun _ => ⟨⟨(unmappedTo d w k).1, ?_⟩, hreg, hfrees⟩,
      fun h => (by cases h), ?_, fun n _ => by rw [hreg], hfds⟩
    · rw [World.device?_eq_some, hget, Function.update_self]
    · intro a ha
      rw [hget, Function.update_of_ne ha]
  | @released w' hget hfrees hslots hfds hsp =>
    refine ⟨⟨d.bars.barCount, by rw [hsp]; exact hspace _⟩, fun h => (by cases h),
      fun _ => ⟨?_, ?_, hfrees⟩, ?_, hslots, hfds⟩
    · intro m hm hleft
      rw [hsp, (hspace _).2, List.take_of_length_le (by simp [BarTable.regions])] at hleft
      exact hleft.2 hm
    · rw [hget, Function.update_self]
    · intro a ha
      rw [hget, Function.update_of_ne ha]

/-- A device whose table was filled can be released in several calls: however
`munmap` fails, each region is unmapped once, the call that gets through frees
the device, and nothing else changes. -/
theorem unmapping_resumable {dir : List Char} (hd : w.device? p = some d)
    (hdist : w.reg.Distinct) (hholds : w.reg.Holds p) (hroom : w.reg.iNewDev < 8)
    (hmapped : TableMapped p dir d.bars w) (hs : Releasing.Reachable p w s) :
    ((d.bars.regions dir).map Mapping.extent).Nodup ∧
      (∀ m ∈ d.bars.regions dir, m ∈ w.space.maps) ∧ Resumes p dir d w s ∧
      (s.released = false → ∀ munmap, ∃ s', s.step p munmap = .ok s') := by
  obtain ⟨hregions, hnd⟩ := hmapped.regions
  have hprogress : Progress p d w s := by
    apply Reach.invariant (I := Progress p d w) (.start hd) _ hs
    intro s s' munmap hi hg hstep
    obtain ⟨s'', hstep', hi'⟩ := hi.step hg hdist hholds hroom hmapped.hasAddress munmap
    rw [hstep] at hstep'
    cases hstep'
    exact hi'
  refine ⟨?_, hregions, hprogress.resumes hregions, ?_⟩
  · have hfst : ((d.bars.regions dir).map Mapping.extent).map Prod.fst =
        (d.bars.regions dir).map Mapping.start := by
      rw [List.map_map]
      rfl
    exact List.Nodup.of_map Prod.fst (hfst ▸ hnd)
  · intro hrel munmap
    obtain ⟨s', hstep, -⟩ := hprogress.step hrel hdist hholds hroom hmapped.hasAddress munmap
    exact ⟨s', hstep⟩

end Run

/-- A process with one device, which is in the registry. -/
def World.registered : World :=
  { World.oneDevice with
    reg := ⟨(Vector.replicate 8 0).set 0 16, 1, by omega⟩ }

/-- Its two BARs are described. -/
def World.described : World :=
  match fillDeviceBarDescriptions .two 16 .registered with
  | .ok (_, w) => w
  | .error _ => .registered

/-- The first call fails at the second BAR. -/
theorem unmapping_resumable_twice : ∃ s dir d, Releasing.Reachable 16 .described s ∧
    s.released = true ∧ s.world.space.unmaps = [(8192, 256), (4096, 4096)] ∧
    Resumes 16 dir d .described s := by
  obtain ⟨s, hs, hrel, hunmaps⟩ : ∃ s, Releasing.Reachable 16 .described s ∧ s.released = true ∧
      s.world.space.unmaps = [(8192, 256), (4096, 4096)] :=
    exists_reach_of_run [fun ibar => if ibar.1 = 1 then some .inval else none, fun _ => none]
      (by decide)
  have hfill : fillDeviceBarDescriptions .two 16 .registered =
    .ok (cronoSuccess, World.described) := rfl
  obtain ⟨dir, descs, bars, hfilled, hd, -⟩ := fill_success (w := .registered) rfl rfl hfill
  have hdist : World.described.reg.Distinct := by
    intro i j a hi hj _ _ _
    have hone : World.described.reg.iNewDev = 1 := rfl
    omega
  have hmapped : TableMapped 16 dir bars .described :=
    ⟨.two, .registered, _, .described, rfl, rfl, hfilled.directory, hfill, hd, fun _ hm _ => hm⟩
  obtain ⟨-, -, hresumes, -⟩ := unmapping_resumable hd hdist ⟨0, by decide, rfl⟩ (by decide)
    hmapped hs
  exact ⟨s, dir, _, hs, hrel, hunmaps, hresumes⟩

end CronoPci
