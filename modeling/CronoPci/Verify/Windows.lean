import CronoPci.Verify.Reliance

/-!
# BARs as memories of their own

Of the calls of the library only the accessors change device memory, and an
accepted access stays within the entry it is made on. So each BAR of a live
handle is a byte memory of its own, in every run and whatever is called on other
handles in between: a byte holds what the latest accepted write through the
handle stored there. Device memory is taken as plain memory behind addresses, so
that a second mapping of the same file counts as a second memory.
-/

namespace CronoPci

open Posix Trans

/-! ## Calls that leave device memory alone -/

section Mem

variable {p p' : Program} {c : Call} {w w' : World} {hDev : Addr} {ret : Code}

theorem fillDeviceBarDescriptions_mem {sys : BarSys} {a : Addr} {d : KernelDevice}
    (hd : w.device? a = some d) (h : fillDeviceBarDescriptions sys a w = .ok (ret, w')) :
    w'.mem = w.mem := by
  cases fill_ok hd h <;> rfl

theorem Session.step_mem {s s' : Session} {op : Op} (hi : RegInv s.live s.world)
    (hl : s.Legal op) (hs : s.step op = .ok s') : s'.world.mem = s.world.mem := by
  cases op with
  | openDev sys slot =>
    obtain ⟨ret, p, w, hr, -, rfl⟩ := Session.step_openDev_eq hs
    cases hr with
    | noDirectory | notFound => rfl
    | failed _ _ _ hdrop | noBars _ _ _ hdrop => exact hdrop.mem
    | opened _ hopened => exact hopened.mem
  | closeDev munmap h =>
    obtain ⟨d, hd⟩ := hi.device h hl
    obtain ⟨ret, w, hc, hor⟩ := step_closeDev hs
    have hr := pciDeviceClose_result munmap hd hi.distinct
    rw [hc] at hr
    have hmem : w.mem = s.world.mem := by
      cases hr with
      | invalid | badFd => rfl
      | closed _ _ hfree =>
        cases hfree with
        | unmapFails => rfl
        | released _ _ _ _ hfreed hshrunk => exact hshrunk.mem.trans hfreed.mem
        | absent _ _ hshrunk => exact hshrunk.mem
    rcases hor with ⟨-, rfl⟩ | ⟨-, rfl⟩ <;> exact hmem
  | getBars sys h =>
    obtain ⟨d, hd⟩ := hi.device h hl
    obtain ⟨w, rfl, ⟨-, rfl⟩ | ⟨-, ret, hfill⟩⟩ := Session.step_getBars_eq hd hs
    · rfl
    · exact fillDeviceBarDescriptions_mem hd hfill
  | unload =>
    obtain ⟨as, w, hw, hfreed, -⟩ := hi.onUnload
    simp only [Session.step, Session.unload, hw] at hs
    cases hs
    exact hfreed.mem

theorem lockContig_mem {sys : LockSys} {ppBuf buf q ppDma : Option Addr} {size : UInt32}
    (h : dmaContigBufLock sys hDev ppBuf size ppDma w = .ok (ret, buf, q, w')) :
    w'.mem = w.mem := by
  unfold dmaContigBufLock at h
  simp only [bind, Except.bind, pure, Except.pure] at h
  repeat' split at h
  all_goals cases h
  all_goals first
    | rfl
    | obtain ⟨heap, he⟩ := World.free_heap ‹World.free _ _ = .ok _›
      rw [he]

theorem unlockContig_mem {sys : UnlockSys} {q : Addr}
    (h : dmaContigBufUnlock sys hDev q w = .ok (ret, w')) : w'.mem = w.mem := by
  unfold dmaContigBufUnlock at h
  simp only [bind, Except.bind, pure, Except.pure] at h
  repeat' split at h
  all_goals cases h
  all_goals first
    | rfl
    | obtain ⟨heap, he⟩ := World.free_heap ‹World.free _ _ = .ok _›
      rw [he]
      split <;> rfl

/-- Only the accessors change device memory. -/
theorem Program.step_mem (hi : ProgramInv p) (hl : p.Legal c) (hs : p.step c = .ok p')
    (hc : ∀ a, c ≠ .use (.access a)) : p'.world.mem = p.world.mem := by
  cases c with
  | cleanup sys hDev cmd n =>
    obtain ⟨⟨ret, calls, w⟩, he, hs⟩ := bind_eq_ok hs
    cases hs
    obtain ⟨heap, rfl⟩ := cardCleanupSetup_heap he
    rfl
  | query q =>
    obtain ⟨ret, -, hs⟩ := bind_eq_ok hs
    cases hs
    rfl
  | use u =>
  cases u with
  | access a => exact absurd rfl (hc a)
  | registry op =>
    obtain ⟨s, hstep, rfl⟩ := Program.step_registry hs
    exact Session.step_mem hi.client.reg hl.2 hstep
  | scan | readCfg | writeCfg =>
    obtain ⟨c', hc', hs⟩ := bind_eq_ok hs
    obtain ⟨r, he, hc'⟩ := bind_eq_ok hc'
    cases hs
    cases hc'
    obtain ⟨fds, -, hw⟩ : ∃ fds, FdTable.Balanced p.client.world.fds fds ∧
        r.2.2 = { p.client.world with fds } := by
      first
        | exact pciScanDevices_files he
        | exact pciReadCfg32_files he
        | exact pciWriteCfg32_files he
    have hmem := congrArg World.mem hw
    exact hmem
  | lockContig =>
    obtain ⟨⟨ret, buf, q, w⟩, he, hs⟩ := bind_eq_ok hs
    cases hs
    exact lockContig_mem he
  | unlockContig =>
    obtain ⟨⟨ret, w⟩, he, hs⟩ := bind_eq_ok hs
    cases hs
    exact unlockContig_mem he
  | lockSg sys hDev pBuf size ppDma =>
    obtain ⟨c', hc', hs⟩ := bind_eq_ok hs
    obtain ⟨⟨ret, q, w⟩, he, hc'⟩ := bind_eq_ok hc'
    cases hs
    cases hc'
    have hr := sgLock_result sys hDev pBuf size ppDma p.client.world
    rw [he] at hr
    cases hr <;> rfl
  | unlockSg sys hDev q =>
    obtain ⟨c', hc', hs⟩ := bind_eq_ok hs
    obtain ⟨⟨ret, w⟩, he, hc'⟩ := bind_eq_ok hc'
    cases hs
    cases hc'
    obtain ⟨b, page, hb, hpage⟩ := hi.client.sg.block q hl.2
    have hr := sgUnlock_result sys hDev hb hpage
    rw [he] at hr
    cases hr <;> rfl

end Mem

/-! ## Accepted accesses -/

section Access

variable {p p' : Program} {a : Access}

/-- The accesses of the caller: the index is one of the table, and the entry has
not lost its region in a Close that failed. -/
def Program.Guarded (p : Program) : Call → Prop
  | .use (.access a) => a.call.index < 6 ∧ ∀ d ∈ p.world.device? a.hDev,
      (a.call.desc d).userAddress = 0 → (a.call.desc d).length = 0
  | _ => True

instance (p : Program) (c : Call) : Decidable (p.Guarded c) := by
  unfold Program.Guarded
  split <;> infer_instance

/-- An accepted access is made on an entry with a region, and stays within it. -/
theorem Access.within {d : KernelDevice} (hg : p.Guarded (.use (.access a)))
    (hd : p.world.device? a.hDev = some d)
    (hrange : ¬ExceedsRange a.dwOffset a.call.checkedSize (a.call.desc d)) :
    (a.call.desc d).userAddress ≠ 0 ∧
      a.dwOffset.toNat + a.call.width ≤ (a.call.desc d).length.toNat := by
  rw [exceedsRange_iff a.call.checkedSize_le] at hrange
  have hwidth := a.call.width_le
  have hpos := a.call.width_pos
  refine ⟨?_, by omega⟩
  intro hzero
  have hlen := hg.2 d hd hzero
  rw [hlen] at hrange
  have h0 : (0 : UInt32).toNat = 0 := rfl
  omega

/-- Regions of different parts have no address in common. -/
theorem ProgramInv.regions_disjoint (hi : ProgramInv p) {k k' : Key × Part}
    {start len start' len' : Nat} (hk : p.holdings.PartHas k (.region start len))
    (hk' : p.holdings.PartHas k' (.region start' len')) (hne : k ≠ k') :
    start + len ≤ start' ∨ start' + len' ≤ start := by
  obtain ⟨m, hm, rfl, rfl⟩ := hi.sound.owns.mem _ _ hk
  obtain ⟨m', hm', rfl, rfl⟩ := hi.sound.owns.mem _ _ hk'
  have hmm : m ≠ m' := by
    rintro rfl
    exact hne (hi.sound.owns.inj _ _ _ hk hk')
  exact p.world.space.disjoint.forall hm hm' hmm

/-- What a caller wrote: the handle, the index of the entry, and the bytes by
their offset. -/
structure WindowWrite where
  hDev : Addr
  index : Nat
  write : ByteWrite
  deriving DecidableEq

/-- The write of a call that is an accepted write. -/
def Program.accepted (p : Program) : Call → List WindowWrite
  | .use (.access a) =>
    match a.exec p.world, a.call.written with
    | .ok (ret, _, _), some v =>
      if ret = cronoSuccess then
        [⟨a.hDev, a.call.index, ⟨a.dwOffset.toNat, a.call.width, v⟩⟩]
      else []
    | _, _ => []
  | _ => []

/-- An accessor call writes nothing, or it is accepted for a live handle and
writes within the region of the entry. -/
theorem Access.step_writes (hg : p.Guarded (.use (.access a)))
    (hl : p.Legal (.use (.access a))) (hs : p.step (.use (.access a)) = .ok p') :
    (p'.world.mem = p.world.mem ∧ p.accepted (.use (.access a)) = []) ∨
      ∃ h ∈ p.live, ∃ d v, h.addr = a.hDev ∧ p.world.device? h.addr = some d ∧
        p.holdings.PartHas (.device h, .bar ⟨a.call.index, hg.1⟩)
          (.region (a.call.desc d).userAddress (a.call.desc d).length.toNat) ∧
        a.dwOffset.toNat + a.call.width ≤ (a.call.desc d).length.toNat ∧
        p'.world.mem = storeBytes p.world.mem (a.call.target d a.dwOffset) a.call.width v ∧
        p.accepted (.use (.access a)) =
          [⟨a.hDev, a.call.index, ⟨a.dwOffset.toNat, a.call.width, v⟩⟩] := by
  obtain ⟨c', hc', hs⟩ := bind_eq_ok hs
  obtain ⟨⟨ret, val, w⟩, he, hc'⟩ := bind_eq_ok hc'
  cases hs
  cases hc'
  have he' : a.exec p.world = .ok (ret, val, w) := he
  simp only [Program.accepted, he']
  rcases a.exec_ok hg.1 he' with
    ⟨hret, rfl⟩ | ⟨hret, d, hd, hrange, ⟨hwritten, rfl, -⟩ | ⟨v, hwritten, rfl⟩⟩
  · left
    refine ⟨rfl, ?_⟩
    cases a.call.written <;> simp [hret]
  · left
    exact ⟨rfl, by simp [hwritten]⟩
  · right
    obtain ⟨haddr, hfit⟩ := a.within hg hd hrange
    -- a device stands behind no null handle
    have hne : a.hDev ≠ 0 := Heap.ne_zero_of_get (World.device?_eq_some.1 hd)
    obtain ⟨h, hh, hea⟩ := hl.1.resolve_left hne
    have hea' : h.addr = a.hDev := hea
    have hd' : p.world.device? h.addr = some d := hea' ▸ hd
    refine ⟨h, hh, d, v, hea', hd', ⟨hh, .device d, World.device?_eq_some.1 hd', ?_⟩, hfit, rfl,
      by simp [hwritten, hret]⟩
    · rw [Accessor.desc, getD_barDescs d hg.1] at haddr ⊢
      exact .bar haddr

end Access

/-! ## Runs -/

/-- A program and the log of the accepted writes, the latest first. -/
structure Traced where
  program : Program
  log : List WindowWrite

namespace Traced

def step (t : Traced) (c : Call) : Except Fault Traced := do
  let program ← t.program.step c
  return ⟨program, t.program.accepted c ++ t.log⟩

/-- The writes to the entry `j` of the device at `a`, by offset. -/
def writesTo (t : Traced) (a : Addr) (j : Fin 6) : List ByteWrite :=
  t.log.filterMap fun e => if e.hDev = a ∧ e.index = j.1 then some e.write else none

/-- The programs that guarded calls lead to for as long as `h` is live. -/
def ReachesLive (h : Handle) (p : Program) (t : Traced) : Prop :=
  Reach step (fun t c => t.program.Legal c ∧ t.program.Guarded c ∧ h ∈ t.program.live) ⟨p, []⟩ t

end Traced

section Runs

variable {w : World} {p : Program} {t : Traced} {h : Handle} {d d' : KernelDevice} {j : Fin 6}

/-- The entry has lost its region, or it is as it was and its bytes are those
written last. -/
def WindowKept (p : Program) (h : Handle) (desc : BarDesc) (j : Fin 6) (t : Traced) : Prop :=
  ∃ d, t.program.world.device? h.addr = some d ∧ d.bars.barCount ≠ 0 ∧
    ((d.bars.barDescs.get j).userAddress = 0 ∨ (d.bars.barDescs.get j = desc ∧
      ∀ o, o < desc.length.toNat → t.program.world.mem (desc.userAddress + o) =
        latest (fun o => p.world.mem (desc.userAddress + o)) (t.writesTo h.addr j) o))

/-- A table with an address in it has entries. -/
theorem ProgramInv.barCount_ne_zero (hi : ProgramInv p) (hh : h ∈ p.live)
    (hd : p.world.device? h.addr = some d) (hj : (d.bars.barDescs.get j).userAddress ≠ 0) :
    d.bars.barCount ≠ 0 := by
  intro hzero
  rw [hi.sound.tail h hh d (World.device?_eq_some.1 hd) j (by omega)] at hj
  exact hj rfl

/-- A table with entries stays one with entries, and an entry that has an address
is as it was. -/
theorem Outcome.entry_kept {c : Call} {H : Holdings} (ho : Outcome p c H) (hi : ProgramInv p)
    (hh : h ∈ p.live) (hh' : h ∈ H.live) (hd : p.world.device? h.addr = some d)
    (hcount : d.bars.barCount ≠ 0) : ∃ d', H.get h.addr = some (.device d') ∧
      d'.bars.barCount ≠ 0 ∧ ((d'.bars.barDescs.get j).userAddress = 0 ∨
        d'.bars.barDescs.get j = d.bars.barDescs.get j) := by
  have hget := World.device?_eq_some.1 hd
  obtain ⟨b, hb, hbecomes⟩ := ho.becomes hi (hi.block (k := .device h) hh) hh' hget
  cases hbecomes with
  | same => exact ⟨d, hb, hcount, Or.inr rfl⟩
  | @device _ bars hbars =>
    obtain ⟨hcount', hdesc⟩ := hbars.resolve_left hcount
    refine ⟨_, hb, hcount' ▸ hcount, ?_⟩
    rcases hdesc j with he | he
    · exact Or.inr he
    · left
      rw [he]

theorem Program.accepted_of_not_access {c : Call} (hc : ∀ a, c ≠ .use (.access a)) :
    p.accepted c = [] := by
  cases c with
  | cleanup | query => rfl
  | use u =>
    cases u with
    | access a => exact absurd rfl (hc a)
    | _ => rfl

/-- A store at an offset of a window, seen from the window. -/
theorem storeBytes_window {mem init : Addr → UInt8} {start offset n v o : Nat}
    {log : List ByteWrite} (h : mem (start + o) = latest (fun o => init (start + o)) log o) :
    storeBytes mem (start + offset) n v (start + o) =
      latest (fun o => init (start + o)) (⟨offset, n, v⟩ :: log) o := by
  rw [latest_cons, storeBytes, ← h]
  have hiff : (start + offset ≤ start + o ∧ start + o < start + offset + n) ↔
      (ByteWrite.mk offset n v).Covers o := by
    rw [Nat.add_assoc, Nat.add_le_add_iff_left, Nat.add_lt_add_iff_left]
    exact Iff.rfl
  by_cases hcovers : (ByteWrite.mk offset n v).Covers o
  · rw [if_pos (hiff.2 hcovers), if_pos hcovers, ByteWrite.byte, Nat.add_sub_add_left]
  · rw [if_neg (fun h => hcovers (hiff.1 h)), if_neg hcovers]

/-- Every call keeps the window of a handle that stays live. -/
theorem windowKept_step {desc : BarDesc} {t' : Traced} {c : Call} (hi : ProgramInv t.program)
    (hkept : WindowKept p h desc j t) (hl : t.program.Legal c) (hg : t.program.Guarded c)
    (hh : h ∈ t.program.live) (hs : t.step c = .ok t') (hh' : h ∈ t'.program.live) :
    WindowKept p h desc j t' := by
  obtain ⟨p', hstep, hs⟩ := bind_eq_ok hs
  cases hs
  have ho := hi.outcome hl hstep
  obtain ⟨d, hd, hcount, hentry⟩ := hkept
  obtain ⟨d', hd', hcount', hentry'⟩ := ho.entry_kept hi hh hh' hd hcount (j := j)
  refine ⟨d', World.device?_eq_some.2 hd', hcount', ?_⟩
  rcases hentry' with hgone | hsame
  · exact Or.inl hgone
  rw [hsame]
  rcases hentry with hgone | ⟨hdesc, hbytes⟩
  · exact Or.inl hgone
  by_cases haddr : desc.userAddress = 0
  · exact Or.inl (by rw [hdesc, haddr])
  refine Or.inr ⟨hdesc, ?_⟩
  intro o hlt
  have hbyte := hbytes o hlt
  simp only [Traced.writesTo, List.filterMap_append]
  by_cases hc : ∃ a, c = .use (.access a)
  case neg =>
    have hc' (a : Access) : c ≠ .use (.access a) := fun he => hc ⟨a, he⟩
    rw [Program.accepted_of_not_access hc', t.program.step_mem hi hl hstep hc']
    exact hbyte
  obtain ⟨a, rfl⟩ := hc
  rcases a.step_writes hg hl hstep with ⟨hmem, hlog⟩ |
    ⟨h₁, hh₁, d₁, v, haddr₁, hd₁, hpart, hfit, hmem, hlog⟩
  · rw [hmem, hlog]
    exact hbyte
  rw [hmem, hlog, List.filterMap_cons, List.filterMap_nil]
  by_cases hsame : h₁ = h ∧ a.call.index = j.1
  · -- the write is one to the window
    obtain ⟨rfl, hidx⟩ := hsame
    obtain rfl : d = d₁ := Option.some.inj (hd.symm.trans hd₁)
    have hentry : a.call.desc d = desc := by
      rw [Accessor.desc, getD_barDescs d hg.1, ← hdesc]
      exact congrArg d.bars.barDescs.get (Fin.ext hidx)
    simp only [haddr₁, hidx, and_self, ↓reduceIte, List.singleton_append, Accessor.target, hentry]
    exact storeBytes_window (haddr₁ ▸ hbyte)
  · -- it goes to another region
    have hwindow : t.program.holdings.PartHas (.device h, .bar j)
        (.region desc.userAddress desc.length.toNat) := by
      refine ⟨hh, .device d, World.device?_eq_some.1 hd, ?_⟩
      rw [← hdesc] at haddr ⊢
      exact .bar haddr
    have hne : (Key.device h₁, Part.bar ⟨a.call.index, hg.1⟩) ≠ (Key.device h, Part.bar j) := by
      intro he
      rw [Prod.mk.injEq, Key.device.injEq, Part.bar.injEq] at he
      exact hsame ⟨he.1, congrArg Fin.val he.2⟩
    have hskip : ¬(a.hDev = h.addr ∧ a.call.index = j.1) := by
      rintro ⟨he, hidx⟩
      exact hsame ⟨hi.client.reg.addr_inj hh₁ hh (haddr₁.trans he), hidx⟩
    simp only [hskip, ↓reduceIte, List.nil_append]
    rw [← Traced.writesTo, ← hbyte]
    have hend : a.call.target d₁ a.dwOffset + a.call.width ≤
        (a.call.desc d₁).userAddress + (a.call.desc d₁).length.toNat := by
      rw [Accessor.target, Nat.add_assoc]
      exact Nat.add_le_add_left hfit _
    apply storeBytes_outside t.program.world.mem v (Nat.le_add_right (a.call.desc d₁).userAddress _)
      hend
    rcases hi.regions_disjoint hpart hwindow hne with hbelow | habove
    · exact Or.inr (hbelow.trans (Nat.le_add_right ..))
    · exact Or.inl ((Nat.add_lt_add_left hlt desc.userAddress).trans_le habove)

/-- In every run in which a handle stays live and its accesses are guarded,
whatever is called on other handles and buffers in between, a read of a BAR
returns at each byte what the latest accepted write through the same handle and
index stored there, or what was there at the start of the run. -/
theorem window_coherent (hw : w.Initial) (hp : Program.Reachable w p) (hh : h ∈ p.live)
    (hd : p.world.device? h.addr = some d) (hj : (d.bars.barDescs.get j).userAddress ≠ 0)
    (ht : Traced.ReachesLive h p t) (hlive : h ∈ t.program.live)
    (hd' : t.program.world.device? h.addr = some d')
    (hj' : (d'.bars.barDescs.get j).userAddress ≠ 0) {a : Access} (ha : a.hDev = h.addr)
    (hidx : a.call.index = j) {val : Option Nat} {w' : World}
    (hread : a.call.written = none) (hcall : a.exec t.program.world = .ok (cronoSuccess, val, w')) :
    d'.bars.barDescs.get j = d.bars.barDescs.get j ∧
      ∃ v, val = some v ∧ ∀ k, k < a.call.width → v / 2 ^ (8 * k) % 2 ^ 8 =
        (latest (fun o => p.world.mem ((d.bars.barDescs.get j).userAddress + o))
          (t.writesTo h.addr j) (a.dwOffset.toNat + k)).toNat := by
  have hi := programInv_reachable hw hp
  have hcount := hi.barCount_ne_zero hh hd hj
  have hrun : ProgramInv t.program ∧
      (h ∈ t.program.live → WindowKept p h (d.bars.barDescs.get j) j t) := by
    refine Reach.invariant (I := fun t => ProgramInv t.program ∧
      (h ∈ t.program.live → WindowKept p h (d.bars.barDescs.get j) j t))
      ⟨hi, fun _ => ⟨d, hd, hcount, Or.inr ⟨rfl, fun _ _ => rfl⟩⟩⟩ ?_ ht
    rintro s s' c ⟨hi, hkept⟩ ⟨hl, hg, hlive⟩ hs
    refine ⟨?_, windowKept_step hi (hkept hlive) hl hg hlive hs⟩
    obtain ⟨p', hstep, hs⟩ := bind_eq_ok hs
    cases hs
    exact hi.step hl hstep
  obtain ⟨d₁, hd₁, -, hentry⟩ := hrun.2 hlive
  obtain rfl : d' = d₁ := Option.some.inj (hd'.symm.trans hd₁)
  obtain ⟨hsame, hbytes⟩ := hentry.resolve_left hj'
  refine ⟨hsame, ?_⟩
  have hlt : a.call.index < 6 := by
    rw [hidx]
    exact j.isLt
  rcases a.exec_ok hlt hcall with
    ⟨hret, -⟩ | ⟨-, d₂, hd₂, hrange, ⟨-, -, rfl⟩ | ⟨v, hwritten, -⟩⟩
  · exact absurd rfl hret
  · rw [ha, hd'] at hd₂
    cases hd₂
    have hdesc : a.call.desc d' = d.bars.barDescs.get j := by
      rw [Accessor.desc, getD_barDescs d' hlt, ← hsame]
      exact congrArg d'.bars.barDescs.get (Fin.ext hidx)
    rw [hdesc, exceedsRange_iff a.call.checkedSize_le] at hrange
    have hwidth := a.call.width_le
    refine ⟨_, rfl, ?_⟩
    intro k hk
    rw [loadBytes_byte _ _ hk, Accessor.target, hdesc, Nat.add_assoc, hbytes _ (by omega)]
  · rw [hread] at hwritten
    cases hwritten

/-- Writes to the BARs of two devices take turns, and the second device is closed
on the way. -/
def Call.turns : List Call :=
  [.use (.access ⟨16, 0, .writeAddr32 0x04030201⟩), .use (.access ⟨32, 0, .writeAddr32 0xFFFFFFFF⟩),
    .use (.access ⟨16, 2, .writeAddr8 0xAA⟩), .use (.registry (.closes 32 11))]

theorem window_coherent_turns : ∃ p t d w', Program.Reachable World.boot p ∧
    Traced.ReachesLive ⟨16, 5⟩ p t ∧ t.program.live = [⟨16, 5⟩] ∧
    p.world.device? 16 = some d ∧
    (Access.mk 16 0 (.readAddr32 (some 0))).exec t.program.world =
      .ok (cronoSuccess, some 0x04AA0201, w') ∧
    ∃ v, some 0x04AA0201 = some v ∧ ∀ k, k < 4 → v / 2 ^ (8 * k) % 2 ^ 8 =
      (latest (fun o => p.world.mem ((d.bars.barDescs.get 0).userAddress + o)) (t.writesTo 16 0)
        (0 + k)).toNat := by
  obtain ⟨p, hp, hlive, hrun⟩ : ∃ p, Program.Reachable World.boot p ∧ ⟨16, 5⟩ ∈ p.live ∧
      (runFrom Traced.step (fun t c => t.program.Legal c ∧ t.program.Guarded c ∧
        ⟨16, 5⟩ ∈ t.program.live) ⟨p, []⟩ Call.turns).any (fun t => decide (
          (t.program.live = [⟨16, 5⟩] ∧
            (p.world.device? 16).any (fun d => decide ((d.bars.barDescs.get 0).userAddress ≠ 0)) ∧
            (t.program.world.device? 16).any
              (fun d => decide ((d.bars.barDescs.get 0).userAddress ≠ 0))) ∧
          ((Access.mk 16 0 (.readAddr32 (some 0))).exec t.program.world).map
            (fun r => (r.1, r.2.1)) = .ok (cronoSuccess, some 0x04AA0201))) = true :=
    exists_reach_of_run [.opensBarAt 1 16 4096, .opensBarAt 2 32 8192] (by decide)
  obtain ⟨t, ht, ⟨hlive', hbar, hbar'⟩, hread⟩ := exists_reach_of_run Call.turns hrun
  obtain ⟨d, hd, hj⟩ := (Option.any_eq_true ..).1 hbar
  obtain ⟨d', hd', hj'⟩ := (Option.any_eq_true ..).1 hbar'
  cases hcall : (Access.mk 16 0 (.readAddr32 (some 0))).exec t.program.world with
  | error f =>
    rw [hcall] at hread
    cases hread
  | ok r =>
    obtain ⟨ret, val, w'⟩ := r
    rw [hcall] at hread
    cases hread
    have hmem : ⟨16, 5⟩ ∈ t.program.live := by
      rw [hlive']
      exact List.mem_singleton_self _
    exact ⟨p, t, d, w', hp, ht, hlive', hd, hcall, (window_coherent World.boot_initial hp hlive hd
      (by simpa using hj) ht hmem hd' (by simpa using hj') rfl rfl rfl hcall).2⟩

end Runs

end CronoPci
