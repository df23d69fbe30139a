import CronoPci.Verify.Resources

/-!
# What calls give and take

One lemma for each kind of outcome: a call that succeeds in getting something
makes one key grow by what is new to the process (`Grows`), and a call that
gives something back shrinks one key by what is gone (`Shrinks`).
-/

namespace CronoPci

open Posix Trans

/-! ## Calls that get something -/

section Grows

variable {p : Program}

/-- A region of a table just filled is mapped, and was not. -/
theorem Filled.region {sys : BarSys} {d : KernelDevice} {dir : List Char} {descs : List BarDesc}
    {bars : BarTable} (h : Filled sys d p.world dir descs bars) {j : Fin 6}
    (hj : (bars.barDescs.get j).userAddress ≠ 0) :
    (∃ m ∈ (mapRows sys dir sys.rows p.world.space).2.maps,
      m.start = (bars.barDescs.get j).userAddress ∧
        m.len = (bars.barDescs.get j).length.toNat) ∧
      ¬p.holdings.Has (.region (bars.barDescs.get j).userAddress
        (bars.barDescs.get j).length.toNat) := by
  refine ⟨⟨_, h.mapping_mem hj, rfl, rfl⟩, ?_⟩
  rintro ⟨m, hm, hstart, -⟩
  exact h.fresh hj hm hstart

/-- What filling a table maps is behind its entries. -/
theorem Filled.covers {sys : BarSys} {d : KernelDevice} {dir : List Char} {descs : List BarDesc}
    {bars : BarTable} (h : Filled sys d p.world dir descs bars) {m : Mapping MapSource}
    (hm : m ∈ (mapRows sys dir sys.rows p.world.space).2.maps) : m ∈ p.world.space.maps ∨
      ∃ j : Fin 6, (bars.barDescs.get j).userAddress ≠ 0 ∧
        m.start = (bars.barDescs.get j).userAddress ∧
        m.len = (bars.barDescs.get j).length.toNat := by
  have hpos := ((mapRows sys dir sys.rows p.world.space).2.pos m hm).1
  rw [h.maps_eq, List.mem_append, List.mem_reverse, List.mem_map] at hm
  rcases hm with ⟨desc, hdesc, rfl⟩ | hold
  · right
    obtain ⟨j, hj⟩ := List.getElem?_of_mem hdesc
    rw [← h.filled] at hj
    have hlt : j < 6 := by
      have hlen := (List.getElem?_eq_some_iff.1 hj).1
      have hcount := bars.le
      rw [BarTable.filled, List.length_take] at hlen
      omega
    have hget := BarTable.filled_getElem? bars ⟨j, hlt⟩
    rw [hj] at hget
    split at hget
    · cases hget
      exact ⟨⟨j, hlt⟩, Nat.ne_of_gt hpos, rfl, rfl⟩
    · cases hget
  · exact Or.inl hold

/-- A file opened at a free number is none of those opened before. -/
theorem update_file_iff {n n' f g next : Nat} {file : Nat → Option Nat} (hfree : file n = none)
    (hf : next ≤ f) (hg : g < next) :
    Function.update file n (some f) n' = some g ↔ file n' = some g := by
  by_cases hn : n' = n
  · subst hn
    have hne : f ≠ g := by omega
    simp [hfree, hne]
  · rw [Function.update_of_ne hn]

/-- An Open that succeeds. -/
theorem grows_opened (hi : ProgramInv p) {sys : BarSys} {a : Addr} {f next : Nat}
    {d : KernelDevice} {dir : List Char} {descs : List BarDesc}
    {path : Nat → List Char} (hfresh : p.world.heap.get a = none)
    (hnum : p.world.fds.file d.miscdevFd = none) (hf : p.world.fds.next ≤ f)
    (hfilled : Filled sys d p.world dir descs d.bars) {H : Holdings} (hH : H = { p.holdings with
      live := ⟨a, f⟩ :: p.live
      get := Function.update p.world.heap.get a (some (.device d))
      maps := (mapRows sys dir sys.rows p.world.space).2.maps
      file := Function.update p.world.fds.file d.miscdevFd (some f)
      next
      path }) :
    Grows (fun k => k.1 = .device ⟨a, f⟩) p.holdings.PartHas p.holdings.Has H.PartHas H.Has := by
  have hget (a' : Addr) : H.get a' = Function.update p.world.heap.get a (some (.device d)) a' := by
    rw [hH]
  have hfile (n : Nat) : H.file n = Function.update p.world.fds.file d.miscdevFd (some f) n := by
    rw [hH]
  have hmaps : H.maps = (mapRows sys dir sys.rows p.world.space).2.maps := by rw [hH]
  have hother {n : Nat} (hn : p.world.fds.file n ≠ none) : H.file n = p.world.fds.file n := by
    rw [hfile, Function.update_of_ne]
    rintro rfl
    exact hn hnum
  refine Holdings.grows_held (k := .device ⟨a, f⟩) (b := .device d) hi.sound (fun _ => hi.used)
    hfresh ?_ ?_ ?_ ?_ ?_ ?_ ?_ ?_
  · intro k
    cases k <;> simp [hH, Holdings.Holds, Program.holdings]
  · rw [hget]
    exact Function.update_self ..
  · intro a' ha
    rw [hget, Function.update_of_ne]
    · rfl
    · rintro rfl
      exact ha hfresh
  · intro n g hg
    rw [hfile]
    exact update_file_iff hnum hf hg
  · refine Holdings.has_mono ?_ ?_ ?_ ?_ ?_
    · intro a' ha
      rw [hget, Function.update_apply]
      split
      · simp
      · exact ha
    · rw [hmaps]
      exact (mapRows_grows ..).1
    · intro n g hn
      rw [hother (by simp [show p.world.fds.file n = some g from hn])]
      exact hn
    · rw [hH]
    · rw [hH]
  · intro i r hp
    cases hp with
    | device => exact ⟨by simp [Holdings.Has, hget], fun hold => hold hfresh⟩
    | bar hj =>
      obtain ⟨hmem, hnew⟩ := hfilled.region hj
      exact ⟨by rw [Holdings.Has, hmaps]; exact hmem, hnew⟩
    | file hfile' => exact ⟨hfile', fun hold => by cases hnum.symm.trans hold⟩
  · intro i i' r hp hp'
    refine hp.part_inj hp' ?_ (fun c hc => by cases hc)
    rintro d' hd j j' hj
    cases hd
    exact hfilled.inj hj
  · intro r hr
    cases r with
    | block a' =>
      by_cases ha : a' = a
      · subst ha
        exact Or.inr ⟨.block, .device⟩
      · rw [Holdings.Has, hget, Function.update_of_ne ha] at hr
        exact Or.inl hr
    | region start len =>
      obtain ⟨m, hm, rfl, rfl⟩ := hr
      rw [hmaps] at hm
      rcases hfilled.covers hm with hold | ⟨j, hj, hstart, hlen⟩
      · exact Or.inl ⟨m, hold, rfl, rfl⟩
      · rw [hstart, hlen]
        exact Or.inr ⟨.bar j, .bar hj⟩
    | file n g =>
      by_cases hn : n = d.miscdevFd
      · subst hn
        rw [Holdings.Has, hfile, Function.update_self] at hr
        cases hr
        refine Or.inr ⟨.file, .file (h := ⟨a, f⟩) ?_⟩
        rw [Holdings.Own, hfile, Function.update_self]
      · rw [Holdings.Has, hfile, Function.update_of_ne hn] at hr
        exact Or.inl hr
    | contigBuf | sgBuf =>
      rw [hH] at hr
      exact Or.inl hr

/-- A Lock of a contiguous buffer that succeeds. -/
theorem grows_lockedContig (hi : ProgramInv p) {q : Addr} {b : DmaContig} {source : MapSource}
    {space : Space} (hfresh : p.world.heap.get q = none)
    (hid : b.id ∉ p.world.kernel.contigLocked)
    (hmap : p.world.space.mmap ⟨b.pUserAddr, b.dwBytes.toNat, source⟩ = some space)
    {H : Holdings} (hH : H = { p.holdings with
      contigs := q :: p.contigs
      get := Function.update p.world.heap.get q (some (.contig b))
      maps := space.maps
      contigLocked := insert b.id p.world.kernel.contigLocked }) :
    Grows (fun k => k.1 = .contig q) p.holdings.PartHas p.holdings.Has H.PartHas H.Has := by
  obtain ⟨hpos, hdisjoint, hmaps, -⟩ := AddressSpace.mmap_eq_some hmap
  have hmem (m : Mapping MapSource) : m ∈ H.maps ↔
      m = ⟨b.pUserAddr, b.dwBytes.toNat, source⟩ ∨ m ∈ p.world.space.maps := by
    rw [hH, ← List.mem_cons, ← hmaps]
  have hget (a : Addr) : H.get a = Function.update p.world.heap.get q (some (.contig b)) a := by
    rw [hH]
  have hfile : H.file = p.world.fds.file := by
    rw [hH]
    rfl
  have hlocked (id : Int) : id ∈ H.contigLocked ↔ id = b.id ∨ id ∈ p.world.kernel.contigLocked := by
    rw [hH, Finset.mem_insert]
  refine Holdings.grows_held (k := .contig q) (b := .contig b) hi.sound (fun _ => hi.used) hfresh
    ?_ ?_ ?_ ?_ ?_ ?_ ?_ ?_
  · intro k
    cases k <;> simp [hH, Holdings.Holds, Program.holdings]
  · rw [hget]
    exact Function.update_self ..
  · intro a ha
    rw [hget, Function.update_of_ne]
    · rfl
    · rintro rfl
      exact ha hfresh
  · intro n g _
    rw [hfile]
    rfl
  · refine Holdings.has_mono ?_ ?_ ?_ ?_ ?_
    · intro a ha
      rw [hget, Function.update_apply]
      split
      · simp
      · exact ha
    · intro m hm
      exact (hmem m).2 (Or.inr hm)
    · rw [hfile]
      exact fun _ _ hn => hn
    · intro id hid'
      exact (hlocked id).2 (Or.inr hid')
    · rw [hH]
  · intro i r hp
    cases hp with
    | contig => exact ⟨by simp [Holdings.Has, hget], fun hold => hold hfresh⟩
    | region =>
      refine ⟨⟨_, (hmem _).2 (Or.inl rfl), rfl, rfl⟩, ?_⟩
      rintro ⟨m, hm, hstart, -⟩
      exact (hdisjoint m hm).start_ne hpos.2 (p.world.space.pos m hm).2 hstart.symm
    | contigBuf => exact ⟨(hlocked _).2 (Or.inl rfl), hid⟩
  · intro i i' r hp hp'
    exact hp.part_inj hp' (fun d hd => by cases hd) (fun c hc => by cases hc)
  · intro r hr
    cases r with
    | block a =>
      by_cases ha : a = q
      · subst ha
        exact Or.inr ⟨.block, .contig⟩
      · rw [Holdings.Has, hget, Function.update_of_ne ha] at hr
        exact Or.inl hr
    | region start len =>
      obtain ⟨m, hm, rfl, rfl⟩ := hr
      rcases (hmem m).1 hm with rfl | hold
      · exact Or.inr ⟨.region, .region⟩
      · exact Or.inl ⟨m, hold, rfl, rfl⟩
    | contigBuf id =>
      rcases (hlocked id).1 hr with rfl | hold
      · exact Or.inr ⟨.buffer, .contigBuf⟩
      · exact Or.inl hold
    | file | sgBuf =>
      rw [hH] at hr
      exact Or.inl hr

/-- A scatter/gather Lock that succeeds. -/
theorem grows_lockedSg (hi : ProgramInv p) {q : Addr} {b : DmaSg} {page : List DmaPage}
    (hfresh : p.world.heap.get q = none) (hpage : p.world.heap.get b.page = none)
    (hne : b.page ≠ q) (hid : b.id ∉ p.world.kernel.sgLocked) {H : Holdings}
    (hH : H = { p.holdings with
      sgs := q :: p.sgs
      get := Function.update (Function.update p.world.heap.get q (some (.sg b))) b.page
        (some (.pages page))
      sgLocked := insert b.id p.world.kernel.sgLocked }) :
    Grows (fun k => k.1 = .sg q) p.holdings.PartHas p.holdings.Has H.PartHas H.Has := by
  have hget (a : Addr) : H.get a = if a = b.page then some (.pages page)
      else if a = q then some (.sg b) else p.world.heap.get a := by
    rw [hH]
    simp only [Function.update_apply]
  have hfile : H.file = p.world.fds.file := by
    rw [hH]
    rfl
  have hlocked (id : Int) : id ∈ H.sgLocked ↔ id = b.id ∨ id ∈ p.world.kernel.sgLocked := by
    rw [hH, Finset.mem_insert]
  have hblock : H.get q = some (.sg b) := by rw [hget, if_neg hne.symm, if_pos rfl]
  refine Holdings.grows_held (k := .sg q) (b := .sg b) hi.sound (fun _ => hi.used) hfresh
    ?_ hblock ?_ ?_ ?_ ?_ ?_ ?_
  · intro k
    cases k <;> simp [hH, Holdings.Holds, Program.holdings]
  · intro a ha
    rw [hget, if_neg, if_neg]
    · rfl
    · rintro rfl
      exact ha hfresh
    · rintro rfl
      exact ha hpage
  · intro n g _
    rw [hfile]
    rfl
  · refine Holdings.has_mono ?_ ?_ ?_ ?_ ?_
    · intro a ha
      rw [hget]
      split
      · simp
      split
      · simp
      · exact ha
    · rw [hH]
      exact List.Subset.refl _
    · rw [hfile]
      exact fun _ _ hn => hn
    · rw [hH]
    · intro id hid'
      exact (hlocked id).2 (Or.inr hid')
  · intro i r hp
    cases hp with
    | sg => exact ⟨by simp [Holdings.Has, hblock], fun hold => hold hfresh⟩
    | pages => exact ⟨by simp [Holdings.Has, hget], fun hold => hold hpage⟩
    | sgBuf => exact ⟨(hlocked _).2 (Or.inl rfl), hid⟩
  · intro i i' r hp hp'
    refine hp.part_inj hp' (fun d hd => by cases hd) ?_
    intro c hc
    cases hc
    exact hne
  · intro r hr
    cases r with
    | block a =>
      by_cases hap : a = b.page
      · exact Or.inr ⟨.pages, by rw [hap]; exact .pages⟩
      by_cases haq : a = q
      · exact Or.inr ⟨.block, by rw [haq]; exact .sg⟩
      · rw [Holdings.Has, hget, if_neg hap, if_neg haq] at hr
        exact Or.inl hr
    | sgBuf id =>
      rcases (hlocked id).1 hr with rfl | hold
      · exact Or.inr ⟨.buffer, .sgBuf⟩
      · exact Or.inl hold
    | file | region | contigBuf =>
      rw [hH] at hr
      exact Or.inl hr

/-- The other parts of a device do not look at its table, and the other keys do
not look at the device. -/
theorem partHas_described (hi : ProgramInv p) {h : Handle} {d : KernelDevice} {bars : BarTable}
    {H : Holdings} (hh : h ∈ p.live) (hd : p.holdings.get h.addr = some (.device d))
    (hholds : ∀ k, H.Holds k ↔ p.holdings.Holds k) (hfile : H.file = p.holdings.file)
    (hget : ∀ a, H.get a =
      Function.update p.holdings.get h.addr (some (.device { d with bars })) a)
    {k : Key × Part} (hk : ¬∃ j, k = (.device h, .bar j)) (r : Resource) :
    H.PartHas k r ↔ p.holdings.PartHas k r := by
  obtain ⟨k, i⟩ := k
  by_cases he : k = .device h
  · subst he
    have hself : H.get h.addr = some (.device { d with bars }) := by
      rw [hget]
      exact Function.update_self ..
    constructor
    · rintro ⟨-, b, hb, hp⟩
      rw [show H.get (Key.addr (.device h)) = _ from hself] at hb
      cases hb
      refine ⟨hh, _, hd, ?_⟩
      rw [Holdings.own_congr hfile] at hp
      cases hp with
      | device => exact .device
      | bar hj => exact absurd ⟨_, rfl⟩ hk
      | file hf => exact .file (d := d) hf
    · rintro ⟨-, b, hb, hp⟩
      rw [show p.holdings.get (Key.addr (.device h)) = _ from hd] at hb
      cases hb
      refine ⟨(hholds _).2 hh, _, hself, ?_⟩
      rw [Holdings.own_congr hfile]
      cases hp with
      | device => exact .device
      | bar hj => exact absurd ⟨_, rfl⟩ hk
      | file hf => exact .file (d := { d with bars }) hf
  · apply Holdings.partHas_congr (hholds k)
    · intro hheld
      rw [hget, Function.update_of_ne]
      exact fun ha => he (hi.addr_inj hheld (show p.holdings.Holds (.device h) from hh) ha)
    · intro _ _ _ _ _
      rw [hfile]

/-- A description of BARs that is set. -/
theorem grows_described (hi : ProgramInv p) {sys : BarSys} {h : Handle} {d : KernelDevice}
    {bars : BarTable} {dir : List Char} {descs : List BarDesc} {next : Nat}
    {path : Nat → List Char} (hh : h ∈ p.live) (hd : p.world.device? h.addr = some d)
    (hcount : d.bars.barCount = 0)
    (hfilled : Filled sys d p.world dir descs bars) {H : Holdings} (hH : H = { p.holdings with
      get := Function.update p.world.heap.get h.addr (some (.device { d with bars }))
      maps := (mapRows sys dir sys.rows p.world.space).2.maps
      next
      path }) :
    Grows (fun k => ∃ j, k = (.device h, .bar j)) p.holdings.PartHas p.holdings.Has H.PartHas
      H.Has := by
  have hd' : p.holdings.get h.addr = some (.device d) := World.device?_eq_some.1 hd
  have hget (a : Addr) : H.get a =
      Function.update p.world.heap.get h.addr (some (.device { d with bars })) a := by
    rw [hH]
  have hmaps : H.maps = (mapRows sys dir sys.rows p.world.space).2.maps := by rw [hH]
  have hholds (k : Key) : H.Holds k ↔ p.holdings.Holds k := by
    rw [hH]
    cases k <;> rfl
  have hfile : H.file = p.holdings.file := by rw [hH]
  have hself : H.get h.addr = some (.device { d with bars }) := by
    rw [hget]
    exact Function.update_self ..
  have hbar {j : Fin 6} {r : Resource} (hr : H.PartHas (.device h, .bar j) r) :
      (bars.barDescs.get j).userAddress ≠ 0 ∧ r = .region (bars.barDescs.get j).userAddress
        (bars.barDescs.get j).length.toNat := by
    obtain ⟨-, b, hb, hp⟩ := hr
    rw [show H.get (Key.addr (.device h)) = _ from hself] at hb
    cases hb
    cases hp with
    | bar hj => exact ⟨hj, rfl⟩
  refine ⟨?_, ?_, ?_, ?_, ?_, ?_⟩
  · refine Holdings.has_mono ?_ ?_ ?_ ?_ ?_
    · intro a ha
      rw [hget, Function.update_apply]
      split
      · simp
      · exact ha
    · rw [hmaps]
      exact (mapRows_grows ..).1
    · rw [hfile]
      exact fun _ _ hn => hn
    · rw [hH]
    · rw [hH]
  · intro k r hold
    exact partHas_described hi hh hd' hholds hfile hget hold r
  · rintro ⟨_, _⟩ r ⟨j, he⟩ ⟨-, b, hb, hp⟩
    cases he
    rw [show p.holdings.get (Key.addr (.device h)) = _ from hd'] at hb
    cases hb
    cases hp with
    | bar hj =>
      rw [hi.sound.tail h hh d hd' j (by omega)] at hj
      exact hj rfl
  · rintro ⟨_, _⟩ r ⟨j, he⟩ hr
    cases he
    obtain ⟨hj, rfl⟩ := hbar hr
    obtain ⟨hmem, hnew⟩ := hfilled.region hj
    exact ⟨by rw [Holdings.Has, hmaps]; exact hmem, hnew⟩
  · rintro ⟨_, _⟩ ⟨_, _⟩ r ⟨j, he⟩ ⟨j', he'⟩ hr hr'
    cases he
    cases he'
    obtain ⟨hj, hr⟩ := hbar hr
    obtain ⟨-, hr'⟩ := hbar hr'
    rw [hr, Resource.region.injEq] at hr'
    rw [hfilled.inj hj hr'.1]
  · intro r hr
    cases r with
    | block a =>
      left
      by_cases ha : a = h.addr
      · subst ha
        simp [Holdings.Has, hd']
      · rw [Holdings.Has, hget, Function.update_of_ne ha] at hr
        exact hr
    | region start len =>
      obtain ⟨m, hm, rfl, rfl⟩ := hr
      rw [hmaps] at hm
      rcases hfilled.covers hm with hold | ⟨j, hj, hstart, hlen⟩
      · exact Or.inl ⟨m, hold, rfl, rfl⟩
      · rw [hstart, hlen]
        exact Or.inr ⟨(.device h, .bar j), (hholds _).2 hh, _, hself, .bar hj⟩
    | file | contigBuf | sgBuf =>
      rw [hH] at hr
      exact Or.inl hr

end Grows

/-! ## Calls that give something back -/

section Shrinks

variable {p : Program}

/-- The file behind the number. -/
def IsFile (n : Nat) (r : Resource) : Prop := ∃ f, r = .file n f

theorem not_partHas_closed {H : Holdings} {n : Nat} (hn : H.file n = none) {k : Key × Part}
    {r : Resource} (hr : IsFile n r) : ¬H.PartHas k r := by
  obtain ⟨k, i⟩ := k
  obtain ⟨f, rfl⟩ := hr
  rintro ⟨-, b, -, hp⟩
  generalize hr : Resource.file _ _ = r at hp
  cases hp with
  | file hf =>
    rw [Resource.file.injEq] at hr
    rw [Holdings.Own, ← hr.1, hn] at hf
    cases hf
  | _ => cases hr

/-- A Close that succeeds, or fails after the number of the device was closed. -/
structure Closing (p : Program) (h : Handle) (d : KernelDevice) (bars : BarTable) (space : Space)
    (H : Holdings) : Prop where
  live : h ∈ p.live
  device : p.world.device? h.addr = some d
  effect : UnmapEffect d.bars p.world.space bars space
  holds : ∀ k, k ≠ .device h → (H.Holds k ↔ p.holdings.Holds k)
  get : ∀ a, a ≠ h.addr → H.get a = p.holdings.get a
  self : (H.Holds (.device h) ∧ H.get h.addr = some (.device { d with bars })) ∨
    (¬H.Holds (.device h) ∧ H.get h.addr = none ∧ ∀ j, (bars.barDescs.get j).userAddress = 0)
  maps : H.maps = space.maps
  file : H.file = Function.update p.world.fds.file d.miscdevFd none
  contigLocked : H.contigLocked = p.holdings.contigLocked
  sgLocked : H.sgLocked = p.holdings.sgLocked

namespace Closing

variable {h : Handle} {d : KernelDevice} {bars : BarTable} {space : Space} {H : Holdings}

theorem block (hc : Closing p h d bars space H) : p.holdings.get h.addr = some (.device d) :=
  World.device?_eq_some.1 hc.device

theorem file_old (hc : Closing p h d bars space H) {n f : Nat} (hf : H.file n = some f) :
    p.holdings.file n = some f := by
  rw [hc.file, Function.update_apply] at hf
  split at hf
  · cases hf
  · exact hf

theorem get_other (hc : Closing p h d bars space H) (hi : ProgramInv p) {k : Key}
    (hk : k ≠ .device h) (hheld : p.holdings.Holds k) :
    H.get k.addr = p.holdings.get k.addr := by
  have hdev : p.holdings.Holds (.device h) := hc.live
  exact hc.get _ fun he => hk (hi.addr_inj hheld hdev he)

/-- What is left of the device. -/
theorem left (hc : Closing p h d bars space H) {i : Part} {r : Resource}
    (hr : H.PartHas (.device h, i) r) :
    PartOf H.Own (.device h) (.device { d with bars }) i r := by
  obtain ⟨hheld, b, hb, hp⟩ := hr
  rcases hc.self with ⟨-, hblock⟩ | ⟨hno, -⟩
  · rw [show H.get (Key.addr (.device h)) = _ from hblock] at hb
    cases hb
    exact hp
  · exact absurd hheld hno

/-- The process and the keys get nothing. -/
theorem sub (hc : Closing p h d bars space H) (r : Resource) (hr : H.Has r) :
    p.holdings.Has r := by
  refine Holdings.has_mono ?_ ?_ (fun _ _ => hc.file_old) ?_ ?_ r hr
  · intro a ha
    by_cases he : a = h.addr
    · rw [he, hc.block]
      exact Option.some_ne_none _
    · rwa [← hc.get a he]
  · rw [hc.maps]
    exact hc.effect.sub
  · rw [hc.contigLocked]
  · rw [hc.sgLocked]

theorem old (hc : Closing p h d bars space H) (hi : ProgramInv p) (k : Key × Part) (r : Resource)
    (hr : H.PartHas k r) : p.holdings.PartHas k r := by
  obtain ⟨k, i⟩ := k
  by_cases hk : k = .device h
  · subst hk
    have hp := hc.left hr
    refine ⟨hc.live, _, hc.block, ?_⟩
    cases hp with
    | device => exact .device
    | @bar _ _ j hj =>
      have hsame : bars.barDescs.get j = d.bars.barDescs.get j := by
        rcases hc.effect.desc j with he | ⟨he, -⟩
        · exact he
        · simp only [he, ne_eq, not_true_eq_false] at hj
      simp only [hsame] at hj ⊢
      exact .bar hj
    | file hf => exact .file (d := d) (hc.file_old hf)
  · obtain ⟨hheld, b, hb, hp⟩ := hr
    have hheld' := (hc.holds k hk).1 hheld
    rw [hc.get_other hi hk hheld'] at hb
    refine ⟨hheld', b, hb, hp.of_own ?_⟩
    intro _ _ _ _ _ hf
    exact hc.file_old hf

/-- What goes was a part of the device, or the file under its number. -/
theorem lost (hc : Closing p h d bars space H) (hi : ProgramInv p) (r : Resource)
    (hr : p.holdings.Has r) : H.Has r ∨
      (∃ k : Key × Part, k.1 = .device h ∧ p.holdings.PartHas k r ∧ ¬H.PartHas k r) ∨
      IsFile d.miscdevFd r := by
  cases r with
  | block a =>
    by_cases he : a = h.addr
    · subst he
      rcases hc.self with ⟨-, hblock⟩ | ⟨hno, -⟩
      · left
        rw [Holdings.Has, hblock]
        exact Option.some_ne_none _
      · exact Or.inr (Or.inl ⟨(.device h, .block), rfl, hi.block (k := .device h) hc.live,
          fun hp => hno hp.1⟩)
    · left
      rw [Holdings.Has, hc.get a he]
      exact hr
  | region start len =>
    obtain ⟨m, hm, rfl, rfl⟩ := hr
    rcases hc.effect.kept m hm with hmem | ⟨j, hj, hzero, hstart, hlen⟩
    · left
      exact ⟨m, hc.maps ▸ hmem, rfl, rfl⟩
    · right
      left
      rw [hstart, hlen]
      refine ⟨(.device h, .bar j), rfl, ⟨hc.live, _, hc.block, .bar hj⟩, ?_⟩
      intro hp
      have hp := hc.left hp
      generalize hr : Resource.region _ _ = r at hp
      cases hp with
      | bar hj' => exact hj' hzero
  | file n f =>
    by_cases hn : n = d.miscdevFd
    · exact Or.inr (Or.inr ⟨f, by rw [hn]⟩)
    · left
      rw [Holdings.Has, hc.file, Function.update_of_ne hn]
      exact hr
  | contigBuf id =>
    left
    rw [Holdings.Has, hc.contigLocked]
    exact hr
  | sgBuf id =>
    left
    rw [Holdings.Has, hc.sgLocked]
    exact hr

theorem shrinks (hc : Closing p h d bars space H) (hi : ProgramInv p) :
    Shrinks (fun k => k.1 = .device h) (IsFile d.miscdevFd) p.holdings.PartHas p.holdings.Has
      H.PartHas H.Has where
  sub := hc.sub
  old := hc.old hi
  lost := hc.lost hi
  loose _ _ := not_partHas_closed (by rw [hc.file, Function.update_self])

/-- What a key had and the process still has, the key still has. -/
theorem gone (hc : Closing p h d bars space H) (hi : ProgramInv p) (k : Key × Part) (r : Resource)
    (hr : p.holdings.PartHas k r) (hpool : H.Has r) : H.PartHas k r := by
  obtain ⟨k, i⟩ := k
  obtain ⟨hheld, b, hb, hp⟩ := hr
  by_cases hk : k = .device h
  · subst hk
    rw [show p.holdings.get (Key.addr (.device h)) = _ from hc.block] at hb
    cases hb
    cases hp with
    | device =>
      rcases hc.self with ⟨hheld', hblock⟩ | ⟨-, hnone, -⟩
      · exact ⟨hheld', _, hblock, .device⟩
      · exact absurd hnone hpool
    | @bar _ _ j hj =>
      have hsame : bars.barDescs.get j = d.bars.barDescs.get j := by
        rcases hc.effect.desc j with he | ⟨-, hgone⟩
        · exact he
        · obtain ⟨m, hm, he⟩ := hpool
          exact absurd he (hgone m (hc.maps ▸ hm))
      rw [← hsame] at hj ⊢
      rcases hc.self with ⟨hheld', hblock⟩ | ⟨-, -, hzero⟩
      · exact ⟨hheld', _, hblock, .bar hj⟩
      · exact absurd (hzero j) hj
    | file =>
      rw [Holdings.Has, hc.file, Function.update_self] at hpool
      cases hpool
  · refine ⟨(hc.holds k hk).2 hheld, b, by rw [hc.get_other hi hk hheld, hb], hp.of_own ?_⟩
    rintro _ _ - - rfl -
    exact hpool

end Closing

theorem shrinks_closeFailed (hi : ProgramInv p) {h : Handle} {d : KernelDevice} {bars : BarTable}
    {space : Space} {H : Holdings} (hh : h ∈ p.live) (hd : p.world.device? h.addr = some d)
    (heff : UnmapEffect d.bars p.world.space bars space) (hH : H = { p.holdings with
      get := Function.update p.world.heap.get h.addr (some (.device { d with bars }))
      maps := space.maps
      file := Function.update p.world.fds.file d.miscdevFd none }) :
    Shrinks (fun k => k.1 = .device h) (IsFile d.miscdevFd) p.holdings.PartHas p.holdings.Has
        H.PartHas H.Has ∧
      ∀ k r, p.holdings.PartHas k r → H.Has r → H.PartHas k r := by
  subst hH
  have hc : Closing p h d bars space { p.holdings with
      get := Function.update p.world.heap.get h.addr (some (.device { d with bars }))
      maps := space.maps
      file := Function.update p.world.fds.file d.miscdevFd none } := by
    refine ⟨hh, hd, heff, ?_, ?_, Or.inl ⟨hh, Function.update_self ..⟩, rfl, rfl, rfl, rfl⟩
    · intro k _
      cases k <;> rfl
    · intro a ha
      exact Function.update_of_ne ha ..
  exact ⟨hc.shrinks hi, hc.gone hi⟩

theorem shrinks_closed (hi : ProgramInv p) {h : Handle} {d : KernelDevice} {bars : BarTable}
    {space : Space} {H : Holdings} (hh : h ∈ p.live) (hd : p.world.device? h.addr = some d)
    (heff : UnmapEffect d.bars p.world.space bars space)
    (hzero : ∀ j, (bars.barDescs.get j).userAddress = 0) (hH : H = { p.holdings with
      live := p.live.erase h
      get := Function.update p.world.heap.get h.addr none
      maps := space.maps
      file := Function.update p.world.fds.file d.miscdevFd none }) :
    Shrinks (fun k => k.1 = .device h) (IsFile d.miscdevFd) p.holdings.PartHas p.holdings.Has
        H.PartHas H.Has ∧
      ∀ k r, p.holdings.PartHas k r → H.Has r → H.PartHas k r := by
  subst hH
  have hnodup : p.live.Nodup := .of_map _ hi.client.reg.nodup
  have hc : Closing p h d bars space { p.holdings with
      live := p.live.erase h
      get := Function.update p.world.heap.get h.addr none
      maps := space.maps
      file := Function.update p.world.fds.file d.miscdevFd none } := by
    refine ⟨hh, hd, heff, ?_, ?_, Or.inr ⟨fun hheld => hnodup.not_mem_erase hheld,
      Function.update_self .., hzero⟩, rfl, rfl, rfl, rfl⟩
    · intro k hk
      cases k with
      | device h' =>
        have hne : h' ≠ h := fun he => hk (by rw [he])
        exact hnodup.mem_erase_iff.trans ⟨And.right, fun hh' => ⟨hne, hh'⟩⟩
      | _ => rfl
    · intro a ha
      exact Function.update_of_ne ha ..
  exact ⟨hc.shrinks hi, hc.gone hi⟩

/-- A Close that succeeds on a device that is not in range. -/
theorem shrinks_closedAbsent {h : Handle} {n : Nat} {H : Holdings} (hH : H = { p.holdings with
      live := p.live.erase h
      file := Function.update p.world.fds.file n none }) :
    Shrinks (fun k => k.1 = .device h) (IsFile n) p.holdings.PartHas p.holdings.Has H.PartHas
      H.Has := by
  have hfile : H.file = Function.update p.holdings.file n none := by rw [hH]; rfl
  have hclosed {n' f : Nat} (hf : H.file n' = some f) : p.holdings.file n' = some f := by
    rw [hfile, Function.update_apply] at hf
    split at hf
    · cases hf
    · exact hf
  refine ⟨?_, ?_, ?_, ?_⟩
  · refine Holdings.has_mono ?_ ?_ (fun _ _ => hclosed) ?_ ?_
    all_goals simp [hH]
  · rintro ⟨k, i⟩ r ⟨hk, b, hb, hp⟩
    refine ⟨?_, b, by rw [hH] at hb; exact hb, hp.of_own ?_⟩
    · rw [hH] at hk
      cases k with
      | device => exact List.mem_of_mem_erase hk
      | _ => exact hk
    · intro _ _ _ _ _ hf
      exact hclosed hf
  · intro r hr
    cases r with
    | file n' f =>
      by_cases hn : n' = n
      · exact Or.inr (Or.inr ⟨f, by rw [hn]⟩)
      · left
        rw [Holdings.Has, hfile, Function.update_of_ne hn]
        exact hr
    | _ =>
      left
      rw [hH]
      exact hr
  · intro k r
    exact not_partHas_closed (by rw [hfile, Function.update_self])

/-- The unload frees the blocks of the devices in range and forgets the handles. -/
theorem shrinks_unloaded (hi : ProgramInv p) {as : List Addr} {H : Holdings}
    (has : ∀ a, a ∈ as ↔ a ≠ 0 ∧ p.world.reg.Holds a) (hH : H = { p.holdings with
      live := []
      get := fun a => if a ∈ as then none else p.world.heap.get a }) :
    Shrinks (fun k => ∃ h, k.1 = .device h) (fun _ => False) p.holdings.PartHas p.holdings.Has
      H.PartHas H.Has := by
  have hget (a : Addr) : H.get a = if a ∈ as then none else p.holdings.get a := by rw [hH]; rfl
  have hheld {k : Key} (hk : H.Holds k) : p.holdings.Holds k := by
    rw [hH] at hk
    cases k with
    | device => cases hk
    | _ => exact hk
  refine ⟨?_, ?_, ?_, fun _ _ h => absurd h id⟩
  · refine Holdings.has_mono ?_ ?_ ?_ ?_ ?_
    · intro a ha
      rw [hget] at ha
      split at ha
      · exact absurd rfl ha
      · exact ha
    all_goals simp [hH]
  · rintro ⟨k, i⟩ r ⟨hk, b, hb, hp⟩
    simp only at hb hp
    rw [hget] at hb
    split at hb
    · cases hb
    · refine ⟨hheld hk, b, hb, ?_⟩
      rw [hH] at hp
      exact hp
  · intro r hr
    cases r with
    | block a =>
      by_cases ha : a ∈ as
      · obtain ⟨hne, hreg⟩ := (has a).1 ha
        obtain ⟨h, hh, rfl⟩ := hi.client.reg.registered a hne hreg
        refine Or.inr (Or.inl ⟨(.device h, .block), ⟨h, rfl⟩, hi.block hh, ?_⟩)
        rintro ⟨hno, -⟩
        rw [hH] at hno
        cases hno
      · left
        rw [Holdings.Has, hget, if_neg ha]
        exact hr
    | _ =>
      left
      rw [hH]
      exact hr

/-- When every device is in range with its file closed and its BARs unmapped, all
that the handles had is gone. -/
theorem unloaded_gone (hi : ProgramInv p) {as : List Addr} {H : Holdings}
    (has : ∀ a, a ∈ as ↔ a ≠ 0 ∧ p.world.reg.Holds a) (hH : H = { p.holdings with
      live := []
      get := fun a => if a ∈ as then none else p.world.heap.get a })
    (hclean : ¬p.Lossy (.use (.registry .unload))) (k : Key × Part) (r : Resource)
    (hr : p.holdings.PartHas k r) (hpool : H.Has r) : H.PartHas k r := by
  obtain ⟨k, i⟩ := k
  have hget (a : Addr) : H.get a = if a ∈ as then none else p.holdings.get a := by rw [hH]; rfl
  simp only [Program.Lossy, not_exists, not_and, not_or, not_not, Option.mem_def] at hclean
  by_cases hk : ∃ h, k = .device h
  · obtain ⟨h, rfl⟩ := hk
    obtain ⟨hh, b, hb, hp⟩ := hr
    obtain ⟨hin, hrest⟩ := hclean h hh
    cases hp with
    | device =>
      rw [Holdings.Has, hget, if_pos ((has _).2 ⟨hi.client.reg.ne_zero hh, hin⟩)] at hpool
      exact absurd rfl hpool
    | bar hj => exact absurd ((hrest _ (World.device?_eq_some.2 hb)).2 _) hj
    | file hf => exact absurd hf (hrest _ (World.device?_eq_some.2 hb)).1
  · refine (Holdings.partHas_congr ?_ ?_ ?_ r).2 hr
    · rw [hH]
      cases k with
      | device h => exact absurd ⟨h, rfl⟩ hk
      | _ => rfl
    · intro hheld
      rw [hget, if_neg]
      intro hin
      obtain ⟨hne, hreg⟩ := (has _).1 hin
      obtain ⟨h, hh, he⟩ := hi.client.reg.registered _ hne hreg
      exact hk ⟨h, hi.addr_inj hheld (show p.holdings.Holds (.device h) from hh) he.symm⟩
    · intro h d he
      exact absurd ⟨h, he⟩ hk

/-- An Unlock of a contiguous buffer, which unmaps the region or not. -/
theorem shrinks_unlock (hi : ProgramInv p) {q : Addr} {b : DmaContig}
    {maps : List (Mapping MapSource)} {H : Holdings} (hq : q ∈ p.contigs)
    (hb : p.world.contig? q = some b) (hsub : maps ⊆ p.world.space.maps)
    (hkept : ∀ m ∈ p.world.space.maps, m ∈ maps ∨
      (m.start = b.pUserAddr ∧ m.len = b.dwBytes.toNat)) (hH : H = { p.holdings with
      contigs := p.contigs.erase q
      get := Function.update p.world.heap.get q none
      maps
      contigLocked := p.world.kernel.contigLocked.erase b.id }) :
    Shrinks (fun k => k.1 = .contig q) (fun _ => False) p.holdings.PartHas p.holdings.Has
        H.PartHas H.Has ∧
      ((∀ m ∈ maps, ¬(m.start = b.pUserAddr ∧ m.len = b.dwBytes.toNat)) →
        ∀ k r, p.holdings.PartHas k r → H.Has r → H.PartHas k r) := by
  have hb' : p.holdings.get q = some (.contig b) := World.contig?_eq_some.1 hb
  have hkey : p.holdings.Holds (.contig q) := hq
  have hget (a : Addr) : H.get a = Function.update p.holdings.get q none a := by rw [hH]; rfl
  have hmaps : H.maps = maps := by rw [hH]
  have hlocked (id : Int) : id ∈ H.contigLocked ↔ id ≠ b.id ∧ id ∈ p.holdings.contigLocked := by
    rw [hH]
    exact Finset.mem_erase
  have hfile : H.file = p.holdings.file := by rw [hH]
  have hshrinks := Holdings.shrinks_held hkey hb' ?_ ?_ hfile ?_ ?_
  · refine ⟨hshrinks.1, fun hunmapped => hshrinks.2 ?_⟩
    intro i r hp hpool
    cases hp with
    | contig =>
      rw [Holdings.Has, hget, Function.update_self] at hpool
      exact absurd rfl hpool
    | region =>
      obtain ⟨m, hm, he⟩ := hpool
      exact hunmapped m (hmaps ▸ hm) he
    | contigBuf => exact ((hlocked _).1 hpool).1 rfl
  · intro k
    rw [hH]
    cases k with
    | contig q' =>
      simp only [Holdings.Holds, ne_eq, Key.contig.injEq]
      exact hi.sound.contigs.mem_erase_iff
    | _ => simp [Holdings.Holds]
  · intro k hk hheld
    rw [hget, Function.update_of_ne]
    exact fun he => hk (hi.addr_inj hheld hkey he)
  · refine Holdings.has_mono ?_ ?_ ?_ ?_ ?_
    · intro a ha
      rw [hget, Function.update_apply] at ha
      split at ha
      · exact absurd rfl ha
      · exact ha
    · rw [hmaps]
      exact hsub
    · rw [hfile]
      exact fun _ _ hn => hn
    · exact fun id hid => ((hlocked id).1 hid).2
    · rw [hH]
  · intro r hr
    cases r with
    | block a =>
      by_cases ha : a = q
      · subst ha
        exact Or.inr ⟨_, .contig⟩
      · left
        rw [Holdings.Has, hget, Function.update_of_ne ha]
        exact hr
    | region start len =>
      obtain ⟨m, hm, rfl, rfl⟩ := hr
      rcases hkept m hm with hmem | ⟨hstart, hlen⟩
      · exact Or.inl ⟨m, hmaps ▸ hmem, rfl, rfl⟩
      · right
        rw [hstart, hlen]
        exact ⟨_, .region⟩
    | contigBuf id =>
      by_cases hid : id = b.id
      · subst hid
        exact Or.inr ⟨_, .contigBuf⟩
      · exact Or.inl ((hlocked id).2 ⟨hid, hr⟩)
    | file | sgBuf =>
      left
      rw [hH]
      exact hr

theorem shrinks_unlockedContig (hi : ProgramInv p) {q : Addr} {b : DmaContig} {H : Holdings}
    (hq : q ∈ p.contigs) (hb : p.world.contig? q = some b) (hH : H = { p.holdings with
      contigs := p.contigs.erase q
      get := Function.update p.world.heap.get q none
      maps := (p.world.space.munmap b.pUserAddr b.dwBytes.toNat).maps
      contigLocked := p.world.kernel.contigLocked.erase b.id }) :
    Shrinks (fun k => k.1 = .contig q) (fun _ => False) p.holdings.PartHas p.holdings.Has
        H.PartHas H.Has ∧
      ∀ k r, p.holdings.PartHas k r → H.Has r → H.PartHas k r := by
  have hkept (m : Mapping MapSource) (hm : m ∈ p.world.space.maps) :
      m ∈ (p.world.space.munmap b.pUserAddr b.dwBytes.toNat).maps ∨
        (m.start = b.pUserAddr ∧ m.len = b.dwBytes.toNat) := by
    rw [AddressSpace.mem_munmap]
    tauto
  obtain ⟨hs, hgone⟩ := shrinks_unlock hi hq hb
    (fun m hm => (AddressSpace.mem_munmap.1 hm).1) hkept hH
  exact ⟨hs, hgone fun m hm => (AddressSpace.mem_munmap.1 hm).2⟩

/-- A scatter/gather Unlock. -/
theorem shrinks_unlockedSg (hi : ProgramInv p) {q : Addr} {b : DmaSg} {H : Holdings}
    (hq : q ∈ p.sgs) (hb : p.world.sg? q = some b) (hH : H = { p.holdings with
      sgs := p.sgs.erase q
      get := Function.update (Function.update p.world.heap.get b.page none) q none
      sgLocked := p.world.kernel.sgLocked.erase b.id }) :
    Shrinks (fun k => k.1 = .sg q) (fun _ => False) p.holdings.PartHas p.holdings.Has
        H.PartHas H.Has ∧
      ∀ k r, p.holdings.PartHas k r → H.Has r → H.PartHas k r := by
  have hb' : p.holdings.get q = some (.sg b) := World.sg?_eq_some.1 hb
  have hkey : p.holdings.Holds (.sg q) := hq
  have hpages : p.holdings.PartHas (.sg q, .pages) (.block b.page) := ⟨hkey, _, hb', .pages⟩
  have hget (a : Addr) : H.get a = if a = q ∨ a = b.page then none else p.holdings.get a := by
    rw [hH]
    by_cases haq : a = q
    · simp [haq]
    · simp only [Function.update_apply, haq, ↓reduceIte, false_or]
      rfl
  have hlocked (id : Int) : id ∈ H.sgLocked ↔ id ≠ b.id ∧ id ∈ p.holdings.sgLocked := by
    rw [hH]
    exact Finset.mem_erase
  have hfile : H.file = p.holdings.file := by rw [hH]
  have hshrinks := Holdings.shrinks_held hkey hb' ?_ ?_ hfile ?_ ?_
  · refine ⟨hshrinks.1, hshrinks.2 ?_⟩
    intro i r hp hpool
    cases hp with
    | sg | pages =>
      rw [Holdings.Has, hget, if_pos (by simp)] at hpool
      exact absurd rfl hpool
    | sgBuf => exact ((hlocked _).1 hpool).1 rfl
  · intro k
    rw [hH]
    cases k with
    | sg q' =>
      simp only [Holdings.Holds, ne_eq, Key.sg.injEq]
      exact hi.client.sg.nodup.mem_erase_iff
    | _ => simp [Holdings.Holds]
  · intro k hk hheld
    rw [hget, if_neg]
    rintro (he | he)
    · exact hk (hi.addr_inj hheld hkey he)
    · -- the array of pages is no key's block
      have hblock := hi.block hheld
      rw [he] at hblock
      cases hi.sound.owns.inj _ _ _ hblock hpages
  · refine Holdings.has_mono ?_ ?_ ?_ ?_ ?_
    · intro a ha
      rw [hget] at ha
      split at ha
      · exact absurd rfl ha
      · exact ha
    · rw [hH]
      exact List.Subset.refl _
    · rw [hfile]
      exact fun _ _ hn => hn
    · rw [hH]
    · exact fun id hid => ((hlocked id).1 hid).2
  · intro r hr
    cases r with
    | block a =>
      by_cases haq : a = q
      · subst haq
        exact Or.inr ⟨_, .sg⟩
      by_cases hap : a = b.page
      · subst hap
        exact Or.inr ⟨_, .pages⟩
      · left
        rw [Holdings.Has, hget, if_neg (by simp [haq, hap])]
        exact hr
    | sgBuf id =>
      by_cases hid : id = b.id
      · subst hid
        exact Or.inr ⟨_, .sgBuf⟩
      · exact Or.inl ((hlocked id).2 ⟨hid, hr⟩)
    | file | region | contigBuf =>
      left
      rw [hH]
      exact hr

end Shrinks

end CronoPci
