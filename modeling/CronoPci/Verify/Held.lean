import CronoPci.Verify.Exchanges

/-!
# What stays while it is held

A key that is held before and after a call keeps its block. The descriptors of
locked buffers are constant, and a device changes its table of BARs alone: a
table without entries may be filled, and entries only lose their addresses.
-/

namespace CronoPci

open Posix Trans

/-- A table without entries may be filled; else entries keep all but their
addresses, which `munmap` clears. -/
def BarTable.Becomes (t t' : BarTable) : Prop :=
  t.barCount = 0 ∨ (t'.barCount = t.barCount ∧ ∀ j : Fin 6,
    t'.barDescs.get j = t.barDescs.get j ∨
      t'.barDescs.get j = { t.barDescs.get j with userAddress := 0 })

theorem BarTable.Becomes.refl (t : BarTable) : t.Becomes t := Or.inr ⟨rfl, fun _ => Or.inl rfl⟩

theorem BarTable.Becomes.trans {t t' t'' : BarTable} (h : t.Becomes t') (h' : t'.Becomes t'') :
    t.Becomes t'' := by
  rcases h with hzero | ⟨hcount, hdesc⟩
  · exact Or.inl hzero
  rcases h' with hzero' | ⟨hcount', hdesc'⟩
  · exact Or.inl (hcount ▸ hzero')
  refine Or.inr ⟨hcount'.trans hcount, ?_⟩
  intro j
  rcases hdesc' j with he' | he' <;> rcases hdesc j with he | he <;> rw [he', he]
  · exact Or.inl rfl
  · exact Or.inr rfl
  · exact Or.inr rfl
  · exact Or.inr rfl

theorem UnmapEffect.becomes {t t' : BarTable} {space space' : Space}
    (h : UnmapEffect t space t' space') : t.Becomes t' :=
  Or.inr ⟨h.count, fun j => (h.desc j).imp id And.left⟩

theorem UnmapEffect.tailZero {t t' : BarTable} {space space' : Space}
    (h : UnmapEffect t space t' space') (htail : t.TailZero) : t'.TailZero := by
  intro j hj
  rw [h.count] at hj
  rcases h.desc j with he | ⟨he, -⟩
  · rw [he, htail j hj]
  · rw [he, htail j hj]
    rfl

section Outcomes

variable {p : Program} {c : Call} {H : Holdings} {k : Key} {i : Part} {a : Addr}

/-- A block of a key stays when the update is at a free address or at a block of
another key. -/
theorem ProgramInv.get_update (hi : ProgramInv p) {a' : Addr} {b : Option Block}
    (hk : p.holdings.PartHas (k, i) (.block a)) (ha : p.world.heap.get a' = none ∨
      ∃ k' i', p.holdings.PartHas (k', i') (.block a') ∧ k' ≠ k) :
    Function.update p.world.heap.get a' b a = p.holdings.get a := by
  rw [Function.update_of_ne]
  · rfl
  · rintro rfl
    rcases ha with hfree | ⟨k', i', hk', hne⟩
    · exact hi.sound.owns.mem _ _ hk hfree
    · exact hne (congrArg Prod.fst (hi.sound.owns.inj _ _ _ hk' hk))

/-- The call set the table of `d` to `bars`. -/
def Describes (p : Program) (c : Call) (H : Holdings) (d : KernelDevice) (bars : BarTable) : Prop :=
  ∃ sys dir descs, c.describes = some sys ∧ Filled sys d p.world dir descs bars ∧
    H.maps = (mapRows sys dir sys.rows p.world.space).2.maps

/-- What a call leaves of the block `a` of the key: the block is as it was, or it
is the device of a handle whose table was set, or lost addresses in a Close. -/
inductive Keeps (p : Program) (c : Call) (H : Holdings) : Key → Addr → Prop
  | same {k : Key} {a : Addr} (hget : H.get a = p.holdings.get a) : Keeps p c H k a
  | described {h : Handle} {d : KernelDevice} {bars : BarTable}
      (hd : p.holdings.get h.addr = some (.device d))
      (hget : H.get h.addr = some (.device { d with bars })) (hcount : d.bars.barCount = 0)
      (hbars : Describes p c H d bars) : Keeps p c H (.device h) h.addr
  | unmapped {h : Handle} {d : KernelDevice} {bars : BarTable} {space : Space}
      (hd : p.holdings.get h.addr = some (.device d))
      (hget : H.get h.addr = some (.device { d with bars })) (htail : bars.TailZero)
      (heff : UnmapEffect d.bars p.world.space bars space) (hmaps : H.maps = space.maps)
      (hgives : ∀ k, c.Gives k ↔ k = .device h) : Keeps p c H (.device h) h.addr

/-- Only the device whose table changed has the block at its address. -/
theorem ProgramInv.device_or_same (hi : ProgramInv p) {h : Handle} (hh : h ∈ p.live)
    (b : Option Block) (hk : p.holdings.PartHas (k, i) (.block a)) :
    (k = .device h ∧ a = h.addr) ∨
      Function.update p.world.heap.get h.addr b a = p.holdings.get a := by
  have hblock : p.holdings.PartHas (.device h, .block) (.block h.addr) := hi.block hh
  by_cases he : a = h.addr
  · subst he
    exact Or.inl ⟨congrArg Prod.fst (hi.sound.owns.inj _ _ _ hk hblock), rfl⟩
  · exact Or.inr (Function.update_of_ne he ..)

/-- A key that is held before and after a call keeps its blocks. -/
theorem Outcome.keeps (ho : Outcome p c H) (hi : ProgramInv p)
    (hk : p.holdings.PartHas (k, i) (.block a)) (hk' : H.Holds k) : Keeps p c H k a := by
  cases ho with
  | same | strayRegions | strayBuffer | closedAbsent => exact .same rfl
  | opened _ hfresh => exact .same (hi.get_update hk (Or.inl hfresh))
  | described _ hh hd hcount hfilled _ hsys =>
    rcases hi.device_or_same hh _ hk with ⟨rfl, rfl⟩ | hsame
    · exact .described (World.device?_eq_some.1 hd) (Function.update_self ..) hcount
        ⟨_, _, _, hsys, hfilled, rfl⟩
    · exact .same hsame
  | closeFailed hgives hh hd _ heff =>
    have hd' := World.device?_eq_some.1 hd
    rcases hi.device_or_same hh _ hk with ⟨rfl, rfl⟩ | hsame
    · exact .unmapped hd' (Function.update_self ..) (heff.tailZero (hi.sound.tail _ hh _ hd')) heff
        rfl hgives
    · exact .same hsame
  | @closed h _ _ _ _ hh =>
    have hne : .device h ≠ k := by
      rintro rfl
      have hnodup : p.live.Nodup := .of_map _ hi.client.reg.nodup
      exact hnodup.not_mem_erase hk'
    exact .same (hi.get_update hk (Or.inr ⟨.device h, .block, hi.block hh, hne⟩))
  | @unloaded as _ has =>
    apply Keeps.same
    have hout : a ∉ as := by
      intro hin
      obtain ⟨hne, hreg⟩ := (has _).1 hin
      obtain ⟨h, hh, rfl⟩ := hi.client.reg.registered _ hne hreg
      cases hi.sound.owns.inj _ _ _ hk (hi.block (k := .device h) hh)
      cases hk'
    simp only [hout, ↓reduceIte]
    rfl
  | lockedContig _ hfresh => exact .same (hi.get_update hk (Or.inl hfresh))
  | @unlockedContig q _ _ _ hq | @unlockedMapped q _ _ hq =>
    have hne : .contig q ≠ k := by
      rintro rfl
      exact hi.sound.contigs.not_mem_erase hk'
    exact .same (hi.get_update hk (Or.inr ⟨.contig q, .block, hi.block hq, hne⟩))
  | lockedSg _ hfresh hpage =>
    apply Keeps.same
    simp only
    rw [Function.update_of_ne, hi.get_update hk (Or.inl hfresh)]
    intro he
    exact hi.sound.owns.mem _ _ hk (he ▸ hpage)
  | @unlockedSg q b _ _ _ hq hb =>
    apply Keeps.same
    have hne : .sg q ≠ k := by
      rintro rfl
      exact hi.client.sg.nodup.not_mem_erase hk'
    have hpages : p.holdings.PartHas (.sg q, .pages) (.block b.page) :=
      ⟨hq, _, World.sg?_eq_some.1 hb, .pages⟩
    simp only
    rw [Function.update_of_ne, hi.get_update hk (Or.inr ⟨.sg q, .pages, hpages, hne⟩)]
    intro he
    have hblock : p.holdings.PartHas (.sg q, .block) (.block q) := hi.block hq
    rw [he] at hk
    exact hne (congrArg Prod.fst (hi.sound.owns.inj _ _ _ hblock hk))

/-- What a handle that a call adds stands for: a device named for its own id and
slot, with its table set and its misc device open under its number. -/
structure NewHandle (p : Program) (c : Call) (H : Holdings) (h : Handle) (d : KernelDevice) :
    Prop where
  get : H.get h.addr = some (.device d)
  named : d.Named
  number : d.miscdevFd ≠ 0
  described : Describes p c H d d.bars
  lt_next : h.file < H.next
  file : H.file d.miscdevFd = some h.file
  path : H.path h.file = miscdevPath d

/-- What a descriptor that a call adds stands for: a buffer that is mapped, from
the file that the number of a live handle names. -/
structure NewContig (p : Program) (c : Call) (H : Holdings) (q : Addr) (b : DmaContig) : Prop where
  get : H.get q = some (.contig b)
  mapped : ∃ h ∈ p.live, ∃ d f n, p.holdings.get h.addr = some (.device d) ∧
    p.world.fds.file d.miscdevFd = some f ∧ c.pageSize = some n ∧
    (⟨b.pUserAddr, b.dwBytes.toNat, ⟨p.world.fds.path f, b.id * n⟩⟩ : Mapping MapSource) ∈ H.maps

/-- Which keys a call can add, and what they stand for then. -/
theorem Outcome.new_keys (ho : Outcome p c H) :
    (∀ h ∈ H.live, h ∈ p.live ∨ ∃ d, NewHandle p c H h d) ∧
    (∀ q ∈ H.contigs, q ∈ p.contigs ∨ ∃ b, NewContig p c H q b) ∧
    p.Extends H.next H.path := by
  have hrefl : p.Extends p.holdings.next p.holdings.path := ⟨le_rfl, fun _ _ => rfl⟩
  cases ho with
  | same _ hlog | strayRegions _ _ _ hlog | described _ _ _ _ _ hlog =>
    exact ⟨fun h hh => Or.inl hh, fun q hq => Or.inl hq, hlog⟩
  | strayBuffer | closeFailed | lockedSg | unlockedSg =>
    exact ⟨fun h hh => Or.inl hh, fun q hq => Or.inl hq, hrefl⟩
  | closed | closedAbsent =>
    exact ⟨fun h hh => Or.inl (List.mem_of_mem_erase hh), fun q hq => Or.inl hq, hrefl⟩
  | unlockedContig | unlockedMapped =>
    exact ⟨fun h hh => Or.inl hh, fun q hq => Or.inl (List.mem_of_mem_erase hq), hrefl⟩
  | unloaded => exact ⟨fun h hh => (by cases hh), fun q hq => Or.inl hq, hrefl⟩
  | @opened sys a f next path d dir descs _ _ _ _ hnext hfilled hsys hnamed hpos hlog hpath =>
    refine ⟨?_, fun q hq => Or.inl hq, hlog⟩
    intro h hh
    rcases List.mem_cons.1 hh with rfl | hh
    · refine Or.inr ⟨d, ?_⟩
      exact {
        get := Function.update_self ..
        named := hnamed
        number := hpos
        described := ⟨sys, dir, descs, hsys, hfilled, rfl⟩
        lt_next := hnext
        file := Function.update_self ..
        path := hpath }
    · exact Or.inl hh
  | @lockedContig q b h d f n space _ _ _ hh hd hf hsize hmap =>
    refine ⟨fun h hh => Or.inl hh, ?_, hrefl⟩
    intro q' hq'
    rcases List.mem_cons.1 hq' with rfl | hq'
    · obtain ⟨-, -, hmaps, -⟩ := AddressSpace.mmap_eq_some hmap
      refine Or.inr ⟨b, Function.update_self .., h, hh, d, f, n, World.device?_eq_some.1 hd, hf,
        hsize, ?_⟩
      simp only [hmaps, List.mem_cons, true_or]
    · exact Or.inl hq'

/-- A device of a handle of before keeps its name, its slot and its number. -/
theorem Outcome.device_kept (ho : Outcome p c H) (hi : ProgramInv p) {h : Handle}
    {d : KernelDevice} (hh : h ∈ p.live) (hh' : h ∈ H.live)
    (hd : H.get h.addr = some (.device d)) :
    ∃ bars, p.holdings.get h.addr = some (.device { d with bars }) := by
  have hblock : p.holdings.PartHas (.device h, .block) (.block h.addr) := hi.block hh
  cases ho.keeps hi hblock hh' with
  | same hget => exact ⟨d.bars, hget ▸ hd⟩
  | described hold hget | unmapped hold hget =>
    rw [hget] at hd
    cases hd
    exact ⟨_, hold⟩

/-- Every outcome keeps the invariant. -/
theorem Outcome.sound (ho : Outcome p c H) (hi : ProgramInv p)
    (howns : Owns H.PartHas H.Has) : H.Sound := by
  obtain ⟨hlive, hcontig, hlog⟩ := ho.new_keys
  refine ⟨?_, ?_, ?_, ?_, ?_, howns⟩
  · intro h hh d hd
    rcases hlive h hh with hold | ⟨d', hnew⟩
    · have hblock : p.holdings.PartHas (.device h, .block) (.block h.addr) := hi.block hold
      cases ho.keeps hi hblock hh with
      | same hget => exact hi.sound.tail h hold d (hget ▸ hd)
      | described _ hget _ hbars =>
        rw [hget] at hd
        cases hd
        obtain ⟨_, _, _, -, hfilled, -⟩ := hbars
        exact hfilled.tail
      | unmapped _ hget htail =>
        rw [hget] at hd
        cases hd
        exact htail
    · rw [hnew.get] at hd
      cases hd
      obtain ⟨_, _, _, -, hfilled, -⟩ := hnew.described
      exact hfilled.tail
  · intro q hq
    rcases hcontig q hq with hold | ⟨b, hnew⟩
    · have hblock : p.holdings.PartHas (.contig q, .block) (.block q) := hi.block hold
      obtain ⟨hget⟩ := ho.keeps hi hblock hq
      rw [hget]
      exact hi.sound.contig q hold
    · exact ⟨b, hnew.get⟩
  · cases ho with
    | lockedContig _ hfresh =>
      exact List.nodup_cons.2 ⟨fun hq => hi.used (k := .contig _) hq hfresh, hi.sound.contigs⟩
    | unlockedContig | unlockedMapped => exact hi.sound.contigs.erase _
    | _ => exact hi.sound.contigs
  · intro h hh
    rcases hlive h hh with hold | ⟨d, hnew⟩
    · exact (hi.sound.file h hold).trans_le hlog.le
    · exact hnew.lt_next
  · intro h hh d hd
    rcases hlive h hh with hold | ⟨d', hnew⟩
    · obtain ⟨bars, hd'⟩ := ho.device_kept hi hold hh hd
      rw [hlog.path_eq _ (hi.sound.file h hold)]
      have hnode := hi.sound.node h hold _ hd'
      exact hnode
    · rw [hnew.get] at hd
      cases hd
      exact hnew.path

end Outcomes

end CronoPci
