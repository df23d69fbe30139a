import CronoPci.Verify.Registry

/-!
# The regions behind the BAR tables

`BarInv` says that a BAR entry with an address has its region mapped, and that
no two entries of live devices share one. The first needs the second: a Close
unmaps the regions of its own device by their addresses, and the regions of the
others stay because they start elsewhere.
-/

namespace CronoPci

open Posix Trans

/-! ## The regions of a table just filled -/

section Filled

variable {sys : BarSys} {d : KernelDevice} {w : World} {dir : List Char} {descs : List BarDesc}
  {bars : BarTable}

/-- An entry with an address is one of those found. -/
theorem Filled.getElem (h : Filled sys d w dir descs bars) {j : Fin 6}
    (hj : (bars.barDescs.get j).userAddress ≠ 0) :
    (j : Nat) < bars.barCount ∧ descs[j.1]? = some (bars.barDescs.get j) := by
  have hlt : (j : Nat) < bars.barCount := by
    by_contra hge
    rw [h.tail j (by omega)] at hj
    exact hj rfl
  refine ⟨hlt, ?_⟩
  rw [← h.filled, BarTable.filled_getElem?, if_pos hlt]

theorem Filled.maps_eq (h : Filled sys d w dir descs bars) :
    (mapRows sys dir sys.rows w.space).2.maps =
      (descs.map (BarDesc.mapping dir)).reverse ++ w.space.maps :=
  mapRows_maps h.mapped

/-- The region of an entry with an address is mapped. -/
theorem Filled.mapping_mem (h : Filled sys d w dir descs bars) {j : Fin 6}
    (hj : (bars.barDescs.get j).userAddress ≠ 0) :
    (bars.barDescs.get j).mapping dir ∈ (mapRows sys dir sys.rows w.space).2.maps := by
  rw [h.maps_eq, List.mem_append, List.mem_reverse, List.mem_map]
  exact Or.inl ⟨_, List.mem_of_getElem? (h.getElem hj).2, rfl⟩

/-- It starts where no region of before does. -/
theorem Filled.fresh (h : Filled sys d w dir descs bars) {j : Fin 6}
    (hj : (bars.barDescs.get j).userAddress ≠ 0) {m : Mapping MapSource} (hm : m ∈ w.space.maps) :
    m.start ≠ (bars.barDescs.get j).userAddress := by
  have hpair := (mapRows sys dir sys.rows w.space).2.disjoint
  rw [h.maps_eq, List.pairwise_append] at hpair
  have hmem : (bars.barDescs.get j).mapping dir ∈ (descs.map (BarDesc.mapping dir)).reverse := by
    rw [List.mem_reverse, List.mem_map]
    exact ⟨_, List.mem_of_getElem? (h.getElem hj).2, rfl⟩
  have hpos := ((mapRows sys dir sys.rows w.space).2.pos _ (h.mapping_mem hj)).2
  exact ((hpair.2.2 _ hmem _ hm).start_ne hpos (w.space.pos m hm).2).symm

theorem Filled.nodup (h : Filled sys d w dir descs bars) :
    (descs.map BarDesc.userAddress).Nodup := by
  have hpair := (mapRows sys dir sys.rows w.space).2.disjoint
  have hpos := (mapRows sys dir sys.rows w.space).2.pos
  rw [h.maps_eq] at hpair hpos
  have hnew := (List.pairwise_append.1 hpair).1
  rw [List.pairwise_reverse, List.pairwise_map] at hnew
  rw [List.Nodup, List.pairwise_map]
  apply hnew.imp_of_mem
  intro a b ha hb hab
  have hmem (c : BarDesc) (hc : c ∈ descs) : 0 < c.length.toNat :=
    (hpos (c.mapping dir) (List.mem_append_left _ (List.mem_reverse.2
      (List.mem_map_of_mem hc)))).2
  exact (hab.start_ne (hmem b hb) (hmem a ha)).symm

theorem Filled.inj (h : Filled sys d w dir descs bars) {j j' : Fin 6}
    (hj : (bars.barDescs.get j).userAddress ≠ 0)
    (he : (bars.barDescs.get j).userAddress = (bars.barDescs.get j').userAddress) : j = j' := by
  have hget := (h.getElem hj).2
  have hget' := (h.getElem (he ▸ hj)).2
  have hlt := (List.getElem?_eq_some_iff.1 hget).1
  refine Fin.ext ((List.getElem?_inj (by simpa using hlt) h.nodup).1 ?_)
  rw [List.getElem?_map, List.getElem?_map, hget, hget', Option.map_some, Option.map_some, he]

end Filled

/-! ## The invariant -/

/-- What ties the tables of the live devices to the address space. -/
structure BarInv (live : List Handle) (w : World) : Prop where
  tail : ∀ h ∈ live, ∀ d, w.device? h.addr = some d → d.bars.TailZero
  mapped : ∀ h ∈ live, ∀ d, w.device? h.addr = some d → ∀ j : Fin 6,
    (d.bars.barDescs.get j).userAddress ≠ 0 → ∃ m ∈ w.space.maps,
      m.start = (d.bars.barDescs.get j).userAddress ∧ m.len = (d.bars.barDescs.get j).length.toNat
  owner : ∀ h ∈ live, ∀ h' ∈ live, ∀ d d', w.device? h.addr = some d →
    w.device? h'.addr = some d' → ∀ j j' : Fin 6, (d.bars.barDescs.get j).userAddress ≠ 0 →
      (d.bars.barDescs.get j).userAddress = (d'.bars.barDescs.get j').userAddress → h = h' ∧ j = j'

namespace BarInv

variable {live live' : List Handle} {w w' : World}

/-- Handles and addresses may go, while the regions behind what is left stay. -/
theorem restrict (hi : BarInv live w) (hsub : live' ⊆ live)
    (hold : ∀ h ∈ live', ∀ d', w'.device? h.addr = some d' → ∃ d, w.device? h.addr = some d ∧
      d'.bars.TailZero ∧ ∀ j : Fin 6, (d'.bars.barDescs.get j).userAddress ≠ 0 →
        d'.bars.barDescs.get j = d.bars.barDescs.get j)
    (hmaps : ∀ h ∈ live', ∀ d', w'.device? h.addr = some d' → ∀ j : Fin 6,
      (d'.bars.barDescs.get j).userAddress ≠ 0 → ∀ m ∈ w.space.maps,
        m.start = (d'.bars.barDescs.get j).userAddress → m ∈ w'.space.maps) : BarInv live' w' where
  tail h hh d' hd' := by
    obtain ⟨d, -, htail, -⟩ := hold h hh d' hd'
    exact htail
  mapped h hh d' hd' j hj := by
    obtain ⟨d, hd, -, hsame⟩ := hold h hh d' hd'
    obtain ⟨m, hm, hstart, hlen⟩ := hi.mapped h (hsub hh) d hd j (by rw [← hsame j hj]; exact hj)
    rw [← hsame j hj] at hstart hlen
    exact ⟨m, hmaps h hh d' hd' j hj m hm hstart, hstart, hlen⟩
  owner h₁ hh₁ h₂ hh₂ d₁' d₂' hd₁' hd₂' j₁ j₂ hj he := by
    obtain ⟨d₁, hd₁, -, hsame₁⟩ := hold h₁ hh₁ d₁' hd₁'
    obtain ⟨d₂, hd₂, -, hsame₂⟩ := hold h₂ hh₂ d₂' hd₂'
    have hj₂ : (d₂'.bars.barDescs.get j₂).userAddress ≠ 0 := he ▸ hj
    rw [hsame₁ j₁ hj, hsame₂ j₂ hj₂] at he
    rw [hsame₁ j₁ hj] at hj
    exact hi.owner h₁ (hsub hh₁) h₂ (hsub hh₂) d₁ d₂ hd₁ hd₂ j₁ j₂ hj he

/-- Devices as before, and regions only added. -/
theorem frame (hi : BarInv live w) (hsub : live' ⊆ live)
    (hdev : ∀ h ∈ live', w'.device? h.addr = w.device? h.addr)
    (hmaps : w.space.maps ⊆ w'.space.maps) : BarInv live' w' := by
  refine hi.restrict hsub ?_ fun _ _ _ _ _ _ m hm _ => hmaps hm
  intro h hh d' hd'
  rw [hdev h hh] at hd'
  exact ⟨d', hd', hi.tail h (hsub hh) d' hd', fun _ _ => rfl⟩

/-- Unmapping entries of the device of `h`. -/
theorem unmap (hi : BarInv live w) {h : Handle} {d : KernelDevice} {bars : BarTable}
    (hh : h ∈ live) (hd : w.device? h.addr = some d)
    (heff : UnmapEffect d.bars w.space bars w'.space)
    (hother : ∀ h' ∈ live, h' ≠ h → w'.device? h'.addr = w.device? h'.addr)
    (hself : ∀ d', w'.device? h.addr = some d' → d'.bars = bars) : BarInv live w' := by
  have hdesc (j : Fin 6) (hj : (bars.barDescs.get j).userAddress ≠ 0) :
      bars.barDescs.get j = d.bars.barDescs.get j := by
    rcases heff.desc j with he | ⟨he, -⟩
    · exact he
    · rw [he] at hj
      exact absurd rfl hj
  have htail : bars.TailZero := by
    intro j hj
    have hzero := hi.tail h hh d hd j (by rw [← heff.count]; exact hj)
    rcases heff.desc j with he | ⟨he, -⟩ <;> rw [he, hzero]
    rfl
  have hold (h' : Handle) (hh' : h' ∈ live) (d' : KernelDevice)
      (hd' : w'.device? h'.addr = some d') : ∃ d₀, w.device? h'.addr = some d₀ ∧
        d'.bars.TailZero ∧ ∀ j : Fin 6, (d'.bars.barDescs.get j).userAddress ≠ 0 →
          d'.bars.barDescs.get j = d₀.bars.barDescs.get j := by
    by_cases hne : h' = h
    · subst hne
      rw [hself d' hd']
      exact ⟨d, hd, htail, hdesc⟩
    · rw [hother h' hh' hne] at hd'
      exact ⟨d', hd', hi.tail h' hh' d' hd', fun _ _ => rfl⟩
  apply hi.restrict (fun _ h => h) hold
  intro h' hh' d' hd' j hj m hm hstart
  rcases heff.kept m hm with hkept | ⟨k, hk, hk', hmk, -⟩
  · exact hkept
  -- the region would be that of an entry of `h`, which has no address left
  · obtain ⟨d₀, hd₀, -, hsame⟩ := hold h' hh' d' hd'
    rw [hsame j hj] at hstart
    obtain ⟨rfl, rfl⟩ := hi.owner h hh h' hh' d d₀ hd hd₀ k j hk (hmk.symm.trans hstart)
    rw [hself d' hd'] at hj
    exact absurd hk' hj

/-- Filling the table of the device of `h`, which may be new. -/
theorem fill (hi : BarInv live w) {h : Handle} {sys : BarSys} {d d' : KernelDevice}
    {dir : List Char} {descs : List BarDesc} (hd' : w'.device? h.addr = some d')
    (hlive : ∀ h' ∈ live', h' = h ∨ h' ∈ live ∧ w'.device? h'.addr = w.device? h'.addr)
    (hfilled : Filled sys d w dir descs d'.bars)
    (hspace : w'.space = (mapRows sys dir sys.rows w.space).2) : BarInv live' w' := by
  have hgrows : w.space.maps ⊆ w'.space.maps := by
    rw [hspace]
    exact (mapRows_grows sys dir sys.rows w.space).1
  -- an address of the new table is no address of an old one
  have hnew {h' : Handle} {d₀ : KernelDevice} {j j' : Fin 6} (hh' : h' ∈ live)
      (hd₀ : w.device? h'.addr = some d₀) (hj : (d'.bars.barDescs.get j).userAddress ≠ 0)
      (he : (d₀.bars.barDescs.get j').userAddress = (d'.bars.barDescs.get j).userAddress) :
      False := by
    obtain ⟨m, hm, hstart, -⟩ := hi.mapped h' hh' d₀ hd₀ j' (he ▸ hj)
    exact hfilled.fresh hj hm (hstart.trans he)
  refine ⟨?_, ?_,
    ?_⟩
  · intro h' hh' d₀ hd₀
    rcases hlive h' hh' with rfl | ⟨hh', hsame⟩
    · rw [hd', Option.some.injEq] at hd₀
      exact hd₀ ▸ hfilled.tail
    · rw [hsame] at hd₀
      exact hi.tail h' hh' d₀ hd₀
  · intro h' hh' d₀ hd₀ j hj
    rcases hlive h' hh' with rfl | ⟨hh', hsame⟩
    · rw [hd', Option.some.injEq] at hd₀
      subst hd₀
      exact ⟨_, hspace ▸ hfilled.mapping_mem hj, rfl, rfl⟩
    · rw [hsame] at hd₀
      obtain ⟨m, hm, hstart, hlen⟩ := hi.mapped h' hh' d₀ hd₀ j hj
      exact ⟨m, hgrows hm, hstart, hlen⟩
  · intro h₁ hh₁ h₂ hh₂ d₁ d₂ hd₁ hd₂ j₁ j₂ hj he
    rcases hlive h₁ hh₁ with rfl | ⟨hh₁, hsame₁⟩ <;>
      rcases hlive h₂ hh₂ with rfl | ⟨hh₂, hsame₂⟩
    · rw [hd', Option.some.injEq] at hd₁ hd₂
      subst hd₁
      subst hd₂
      exact ⟨rfl, hfilled.inj hj he⟩
    · rw [hd', Option.some.injEq] at hd₁
      subst hd₁
      rw [hsame₂] at hd₂
      exact (hnew hh₂ hd₂ hj he.symm).elim
    · rw [hd', Option.some.injEq] at hd₂
      subst hd₂
      rw [hsame₁] at hd₁
      exact (hnew hh₁ hd₁ (he ▸ hj) he).elim
    · rw [hsame₁] at hd₁
      rw [hsame₂] at hd₂
      exact hi.owner h₁ hh₁ h₂ hh₂ d₁ d₂ hd₁ hd₂ j₁ j₂ hj he

end BarInv

/-! ## Runs -/

/-- A Close that returns has unmapped some entries, and changed the device's
table accordingly where the device is still there. -/
theorem CloseResult.effect {munmap : Fin 6 → Option Errno} {p : Addr} {d : KernelDevice}
    {w w' : World} {ret : Code} (hd : w.device? p = some d)
    (h : CloseResult munmap p d w (.ok (ret, w'))) :
    ∃ bars, UnmapEffect d.bars w.space bars w'.space ∧
      ∀ d', w'.device? p = some d' → d'.bars = bars := by
  have hsame {w' : World} (hspace : w'.space = w.space) (hget : w'.heap = w.heap) :
      ∃ bars, UnmapEffect d.bars w.space bars w'.space ∧
        ∀ d', w'.device? p = some d' → d'.bars = bars := by
    have hdev : w'.device? p = w.device? p := World.device?_congr (by rw [hget])
    refine ⟨d.bars, hspace ▸ .refl _ _, ?_⟩
    intro d' hd'
    rw [hdev, hd, Option.some.injEq] at hd'
    rw [hd']
  cases h with
  | invalid => exact hsame rfl rfl
  | badFd => exact hsame rfl rfl
  | closed _ _ hr =>
    cases hr with
    | @unmapFails e bars space _ hun =>
      have heff := unmapBars_effect munmap d.bars.indices d.bars (closeMisc d w).space
      rw [hun] at heff
      refine ⟨bars, heff, ?_⟩
      intro d' hd'
      rw [device?_setDevice (by simp [closeMisc, World.device?_eq_some.1 hd]),
        Option.some.injEq] at hd'
      rw [← hd']
    | @released i bars space w₁ _ _ _ _ hun hfreed hshrunk =>
      have heff := unmapBars_effect munmap d.bars.indices d.bars (closeMisc d w).space
      rw [hun] at heff
      refine ⟨bars, ?_, ?_⟩
      · rw [hshrunk.space, hfreed.space_eq]
        exact heff
      · intro d' hd'
        rw [World.device?_eq_some, hshrunk.heap, hfreed.get, Function.update_self] at hd'
        cases hd'
    | absent _ _ hshrunk => exact hsame hshrunk.space hshrunk.heap

theorem barInv_step {s s' : Session} {op : Op} (hreg : RegInv s.live s.world)
    (hi : BarInv s.live s.world) (hl : s.Legal op) (hs : s.step op = .ok s') :
    BarInv s'.live s'.world := by
  cases op with
  | openDev sys slot =>
    cases step_openDev hs with
    | nothing => exact hi.frame (fun _ h => h) (fun _ _ => rfl) fun _ h => h
    | dropped hdrop _ hmaps =>
      exact hi.frame (fun _ h => h) (fun h _ => World.device?_congr (congrFun hdrop.get _)) hmaps
    | @opened _ _ w hv hopened =>
      obtain ⟨dir, descs, hfilled, hspace⟩ := hopened.bars
      have hdev := World.device?_update hopened.get
      refine hi.fill (h := ⟨sys.malloc, Session.fileOf w sys.malloc⟩)
        ((hdev sys.malloc).trans (if_pos rfl)) ?_ hfilled hspace
      intro h' hh'
      rcases List.mem_cons.1 hh' with rfl | hh'
      · exact Or.inl rfl
      · exact Or.inr ⟨hh', (hdev h'.addr).trans (if_neg (hreg.ne_fresh hv.fresh hh'))⟩
  | closeDev munmap h =>
    obtain ⟨d, hd⟩ := hreg.device h hl
    obtain ⟨ret, w, hc, hor⟩ := step_closeDev hs
    have hr := pciDeviceClose_result munmap hd hreg.distinct
    rw [hc] at hr
    obtain ⟨bars, heff, hself⟩ := hr.effect hd
    have hinv : BarInv s.live w := hi.unmap hl hd heff
      (fun h' hh' hne => World.device?_congr (hr.get_ne (hreg.addr_ne hl hh' hne))) hself
    rcases hor with ⟨-, rfl⟩ | ⟨-, rfl⟩
    · exact hinv.frame (fun _ => List.mem_of_mem_erase) (fun _ _ => rfl) fun _ h => h
    · exact hinv
  | getBars sys h =>
    obtain ⟨d, hd⟩ := hreg.device h hl
    obtain ⟨w, rfl, rfl | ⟨ret, hends⟩⟩ := step_getBars hd hs
    · exact hi
    cases hends with
    | already => exact hi
    | failed _ _ _ _ _ _ hmaps => exact hi.frame (fun _ h => h) (fun _ _ => rfl) hmaps
    | @filled dir descs bars fds _ hfilled =>
      have hblock : (s.world.heap.get h.addr).isSome := by rw [World.device?_eq_some.1 hd]; rfl
      refine hi.fill (device?_setDevice hblock) (fun h' hh' => ?_) hfilled rfl
      by_cases hne : h' = h
      · exact Or.inl hne
      · refine Or.inr ⟨hh', World.device?_congr ?_⟩
        simp only [World.setDevice, Heap.get_set_ne (hreg.addr_ne hl hh' hne)]
  | unload =>
    obtain ⟨as, w, -, -, rfl⟩ := step_unload hreg hs
    exact ⟨by simp, by simp, by simp⟩

theorem barInv_reaches {w : World} {s : Session} {G : Session → Op → Prop} (hw : w.Initial)
    (hs : Session.Reaches G w s) : BarInv s.live s.world :=
  Reach.invariant_of (I := fun s => BarInv s.live s.world)
    ⟨by simp [Session.start], by simp [Session.start], by simp [Session.start]⟩
    (fun _ ht => regInv_reaches hw ht)
    (fun _ _ _ hreg hi hg hstep => barInv_step hreg hi hg.1 hstep) hs

end CronoPci
