import CronoPci.Verify.Requests

/-!
# What the regions of a caller map

The region behind each BAR of a live handle maps the resource file of that BAR, in
the directory of the handle's own device, and the region of a contiguous buffer
maps the buffer in a misc device. Regions are mapped once and keep their files; the
files are those that the numbers name at the time.
-/

namespace CronoPci

open Posix Trans

/-! ## What is mapped -/

/-- With these links, the directory of the device in the slot. -/
def LinksTo (link : List Char → Except Errno (List Char)) (slot : PciSlot) (dir : List Char) :
    Prop :=
  ∃ linkBuf, cronoGetSysDevicesDirectoryPath link linkBuf slot = .ok (.ok dir)

/-- The path of the misc device of some function. -/
def IsMiscdev (path : List Char) : Prop :=
  ∃ deviceId, ∃ slot : PciSlot, path = "/dev/".toList ++ constructMiscdevName deviceId slot.vars

/-- The region behind each entry with an address maps the file of that BAR in
the directory of the device, and the region of a contiguous buffer maps a misc
device from the page on whose number is the id of the buffer. -/
structure MapsAs (link : List Char → Except Errno (List Char)) (pageSize : Nat) (H : Holdings) :
    Prop where
  bar : ∀ h ∈ H.live, ∀ d, H.get h.addr = some (.device d) → ∀ j : Fin 6,
    (d.bars.barDescs.get j).userAddress ≠ 0 → ∃ dir, LinksTo link d.pciSlot dir ∧
      (d.bars.barDescs.get j).mapping dir ∈ H.maps
  contig : ∀ q ∈ H.contigs, ∀ b, H.get q = some (.contig b) → ∃ path, IsMiscdev path ∧
    (⟨b.pUserAddr, b.dwBytes.toNat, ⟨path, b.id * pageSize⟩⟩ : Mapping MapSource) ∈ H.maps

section Maps

variable {w : World} {p p' : Program} {c : Call} {H : Holdings}
  {link : List Char → Except Errno (List Char)} {pageSize : Nat}

theorem Outcome.maps_subset (ho : Outcome p c H) :
    H.maps ⊆ p.world.space.maps ∨ p.world.space.maps ⊆ H.maps := by
  cases ho with
  | strayRegions _ hsub => exact Or.inr hsub
  | opened | described => exact Or.inr (mapRows_grows ..).1
  | closeFailed _ _ _ _ heff | closed _ _ _ _ heff => exact Or.inl heff.sub
  | lockedContig _ _ _ _ _ _ _ hmap =>
    obtain ⟨-, -, hmaps, -⟩ := AddressSpace.mmap_eq_some hmap
    simp only [hmaps]
    exact Or.inr (List.subset_cons_self ..)
  | unlockedContig => exact Or.inl fun m hm => (AddressSpace.mem_munmap.1 hm).1
  | _ => exact Or.inl (List.Subset.refl _)

/-- A region that is still there maps what it did. -/
theorem Outcome.mapping_kept (ho : Outcome p c H) {m : Mapping MapSource}
    (hm : m ∈ p.world.space.maps) (hstill : H.Has (.region m.start m.len)) : m ∈ H.maps := by
  rcases ho.maps_subset with hsub | hsub
  · obtain ⟨m', hm', hstart, -⟩ := hstill
    rwa [← AddressSpace.eq_of_start (hsub hm') hm hstart]
  · exact hsub hm

/-- The number of a live handle names a misc device, or nothing. -/
theorem names_miscdev (hw : w.Initial) (hp : Program.Reachable w p) {h : Handle}
    {d : KernelDevice} {f : Nat} (hh : h ∈ p.live) (hd : p.holdings.get h.addr = some (.device d))
    (hf : p.world.fds.file d.miscdevFd = some f) : IsMiscdev (p.world.fds.path f) := by
  obtain ⟨h', hh', rfl, d', hd', -⟩ := namesLive_reachable hw hp h hh d hd f hf
  have hnode := (programInv_reachable hw hp).sound.node h' hh' d' hd'
  obtain ⟨hnamed, -⟩ := named_reachable hw hp h' hh' d' hd'
  refine ⟨d'.dwDeviceId.toUInt16, d'.pciSlot, ?_⟩
  rw [show p.world.fds.path h'.file = miscdevPath d' from hnode, miscdevPath, hnamed]

/-- The call finds these links and this page size. -/
structure Call.Sees (c : Call) (link : List Char → Except Errno (List Char)) (pageSize : Nat) :
    Prop where
  link : ∀ sys, c.describes = some sys → sys.readlink = link
  size : ∀ n, c.pageSize = some n → n = pageSize

/-- An entry that the call set. -/
theorem Describes.mapped {d : KernelDevice} {bars : BarTable} (hbars : Describes p c H d bars)
    (hsees : c.Sees link pageSize) {j : Fin 6} (hj : (bars.barDescs.get j).userAddress ≠ 0) :
    ∃ dir, LinksTo link d.pciSlot dir ∧ (bars.barDescs.get j).mapping dir ∈ H.maps := by
  obtain ⟨sys, dir, descs, hsys, hfilled, hmaps⟩ := hbars
  refine ⟨dir, ⟨sys.linkBuf, ?_⟩, hmaps ▸ hfilled.mapping_mem hj⟩
  rw [← hsees.link sys hsys]
  exact hfilled.directory

/-- An entry that was there and whose region still is. -/
theorem Outcome.bar_kept (ho : Outcome p c H) (hm : MapsAs link pageSize p.holdings) {h : Handle}
    {d : KernelDevice} {j : Fin 6} (hh : h ∈ p.live)
    (hd : p.holdings.get h.addr = some (.device d)) (hj : (d.bars.barDescs.get j).userAddress ≠ 0)
    (hstill : H.Has (.region (d.bars.barDescs.get j).userAddress
      (d.bars.barDescs.get j).length.toNat)) :
    ∃ dir, LinksTo link d.pciSlot dir ∧ (d.bars.barDescs.get j).mapping dir ∈ H.maps := by
  obtain ⟨dir, hdir, hmem⟩ := hm.bar h hh d hd j hj
  exact ⟨dir, hdir, ho.mapping_kept hmem hstill⟩

theorem Outcome.bar_mapped (ho : Outcome p c H) (hi : ProgramInv p) (hs : H.Sound)
    (hsees : c.Sees link pageSize) (hm : MapsAs link pageSize p.holdings) {h : Handle}
    {d : KernelDevice} {j : Fin 6} (hh : h ∈ H.live) (hd : H.get h.addr = some (.device d))
    (hj : (d.bars.barDescs.get j).userAddress ≠ 0) :
    ∃ dir, LinksTo link d.pciSlot dir ∧ (d.bars.barDescs.get j).mapping dir ∈ H.maps := by
  have hstill := hs.owns.mem (.device h, .bar j) _ ⟨hh, _, hd, .bar hj⟩
  obtain ⟨hlive, -⟩ := ho.new_keys
  rcases hlive h hh with hin | ⟨d', hnew⟩
  · have hblock : p.holdings.PartHas (.device h, .block) (.block h.addr) := hi.block hin
    cases ho.keeps hi hblock hh with
    | same hget => exact ho.bar_kept hm hin (hget ▸ hd) hj hstill
    | described _ hget _ hbars =>
      rw [hget] at hd
      cases hd
      exact hbars.mapped hsees hj
    | unmapped hd' hget _ heff =>
      rw [hget] at hd
      cases hd
      rcases heff.desc j with he | ⟨he, -⟩
      · simp only [he] at hj hstill ⊢
        exact ho.bar_kept hm hin hd' hj hstill
      · simp only [he, ne_eq, not_true_eq_false] at hj
  · rw [hnew.get] at hd
    cases hd
    exact hnew.described.mapped hsees hj

theorem Outcome.contig_mapped (ho : Outcome p c H) (hi : ProgramInv p) (hs : H.Sound)
    (hsees : c.Sees link pageSize)
    (hmisc : ∀ h ∈ p.live, ∀ d f, p.holdings.get h.addr = some (.device d) →
      p.world.fds.file d.miscdevFd = some f → IsMiscdev (p.world.fds.path f))
    (hm : MapsAs link pageSize p.holdings) {q : Addr} {b : DmaContig} (hq : q ∈ H.contigs)
    (hb : H.get q = some (.contig b)) : ∃ path, IsMiscdev path ∧
      (⟨b.pUserAddr, b.dwBytes.toNat, ⟨path, b.id * pageSize⟩⟩ : Mapping MapSource) ∈ H.maps := by
  obtain ⟨-, hcontig, -⟩ := ho.new_keys
  rcases hcontig q hq with hin | ⟨b', hnew⟩
  · have hblock : p.holdings.PartHas (.contig q, .block) (.block q) := hi.block hin
    obtain ⟨hget⟩ := ho.keeps hi hblock hq
    obtain ⟨path, hpath, hmem⟩ := hm.contig q hin b (hget ▸ hb)
    have hstill := hs.owns.mem (.contig q, .region) _ ⟨hq, _, hb, .region⟩
    exact ⟨path, hpath, ho.mapping_kept hmem hstill⟩
  · rw [hnew.get] at hb
    cases hb
    obtain ⟨h, hh, d, f, n, hd, hf, hsize, hmem⟩ := hnew.mapped
    obtain rfl := hsees.size n hsize
    exact ⟨p.world.fds.path f, hmisc h hh d f hd hf, hmem⟩

/-- The programs of runs in which the links to the devices and the page size stay
the same. -/
def Program.ReachesLinked (link : List Char → Except Errno (List Char)) (pageSize : Nat)
    (w : World) (p : Program) : Prop :=
  Reach Program.step (fun p c => p.Legal c ∧ c.Sees link pageSize) (.start w) p

/-- While the links to the devices stay the same, every BAR of a live handle is
mapped to the resource file of that BAR in the directory of its own device, and
every contiguous buffer to its place in a misc device. -/
theorem mapped_as_described (hw : w.Initial) (hp : Program.ReachesLinked link pageSize w p) :
    MapsAs link pageSize p.holdings := by
  have hrun : Program.Reachable w p ∧ MapsAs link pageSize p.holdings := by
    refine Reach.invariant (I := fun p => Program.Reachable w p ∧ MapsAs link pageSize p.holdings)
      ?_ ?_ hp
    · refine ⟨.init, ?_, ?_⟩
      · intro h hh
        cases hh
      · intro q hq
        cases hq
    · rintro p p' c ⟨hp, hm⟩ ⟨hl, hsees⟩ hs
      have hi := programInv_reachable hw hp
      have ho := hi.outcome hl hs
      have hsound := (hi.step hl hs).sound
      refine ⟨hp.step hl hs, ?_, ?_⟩
      · intro h hh d hd j hj
        exact ho.bar_mapped hi hsound hsees hm hh hd hj
      · intro q hq b hb
        exact ho.contig_mapped hi hsound hsees
          (fun h hh d f hd hf => names_miscdev hw hp hh hd hf) hm hq hb
  exact hrun.2

/-- A device with a BAR and two buffers, and another that gets its number. -/
theorem mapped_as_described_three : ∃ p,
    Program.ReachesLinked (fun _ => .ok "../../../devices/pci0000:00".toList) 4096 World.boot p ∧
      p.live = [⟨64, 11⟩, ⟨16, 5⟩] ∧ p.contigs = [80, 32] ∧
      MapsAs (fun _ => .ok "../../../devices/pci0000:00".toList) 4096 p.holdings := by
  obtain ⟨p, hp, hlive, hcontigs⟩ : ∃ p,
      Program.ReachesLinked (fun _ => .ok "../../../devices/pci0000:00".toList) 4096 World.boot
        p ∧ p.live = [⟨64, 11⟩, ⟨16, 5⟩] ∧ p.contigs = [80, 32] := by
    refine exists_reach_and_of_run (Call.setup ++ [.use (.registry (.closeFails 16 5)),
      .use (.registry (.opens 2 64)), .locks 16 8 80 (.ok 131072)]) ?_ (by decide)
    intro c hc
    simp only [Call.setup, List.cons_append, List.nil_append, List.mem_cons, List.not_mem_nil,
      or_false] at hc
    rcases hc with rfl | rfl | rfl | rfl | rfl | rfl
    all_goals
      refine ⟨fun sys hsys => ?_, fun n hn => ?_⟩
      · cases hsys <;> rfl
      · cases hn <;> rfl
  exact ⟨p, hp, hlive, hcontigs, mapped_as_described World.boot_initial hp⟩

end Maps

end CronoPci
