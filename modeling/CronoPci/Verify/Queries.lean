import CronoPci.Verify.Failures
import CronoPci.Verify.NodeNames
import CronoPci.Verify.Windows

/-!
# What the queries answer

The answers of `CRONO_KERNEL_GetDeviceMiscName` and
`CRONO_KERNEL_GetDeviceBARMem` hold good for as long as the handle is live,
whatever is called in between: the name is that of the device in its slot, and
the window of the first BAR stays where it is and leads to the device, until a
Close that fails takes it away.
-/

namespace CronoPci

open Posix Posix.Text Trans

/-! ## Copies of strings -/

section Named

variable {w : World} {p t : Program} {c : Call} {H : Holdings} {h : Handle} {d : KernelDevice}

/-- While a handle is live its device changes nothing but the table of BARs. -/
theorem Program.ReachesHolding.device (ht : Program.ReachesHolding (.device h) p t)
    (hi : ProgramInv p) (hh : h ∈ p.live) (hd : p.world.device? h.addr = some d)
    (hlive : h ∈ t.live) : ProgramInv t ∧
      ∃ bars, t.world.device? h.addr = some { d with bars } ∧ d.bars.Becomes bars := by
  have hblock : p.holdings.PartHas (.device h, .block) (.block h.addr) := hi.block hh
  obtain ⟨hi', hkept⟩ := ht.kept hi hblock (World.device?_eq_some.1 hd)
  obtain ⟨-, b, hb, hbecomes⟩ := hkept hlive
  refine ⟨hi', ?_⟩
  cases hbecomes with
  | same => exact ⟨d.bars, World.device?_eq_some.2 hb, .refl _⟩
  | device hbars => exact ⟨_, World.device?_eq_some.2 hb, hbars⟩

/-- A device, with file `file`, is opened and closed beside the handle, and the BARs
of the handle are written. -/
def Call.beside (file : Nat) : List Call :=
  [.opensBarAt 2 32 8192, .use (.access ⟨16, 0, .writeAddr32 7⟩),
    .use (.registry (.closes 32 file))]

end Named

/-! ## The window of the first BAR -/

section Bar

variable {w : World} {p t : Program} {h : Handle} {d : KernelDevice} {x x' a : Addr}
  {y n : UInt64}

theorem getDeviceBarMem_of_device (x : Addr) (y : UInt64) (hd : w.device? a = some d)
    (hid : d.dwDeviceId ≠ 0) : getDeviceBarMem a (some x) (some y) w =
      .ok (cronoSuccess, some (d.bars.barDescs.get 0).userAddress,
        some (d.bars.barDescs.get 0).length.toUInt64) := by
  simp only [getDeviceBarMem, initHDevFunc_of_device hd, hid, ↓reduceIte, bind, Except.bind, pure,
    Except.pure, Option.isNone_some, Bool.false_eq_true]

theorem getDeviceBarMem_ok (hd : w.device? x = some d)
    (hq : getDeviceBarMem x (some x') (some y) w = .ok (cronoSuccess, some a, some n)) :
    d.dwDeviceId ≠ 0 ∧ (d.bars.barDescs.get 0).userAddress = a ∧
      (d.bars.barDescs.get 0).length.toNat = n.toNat := by
  by_cases hid : d.dwDeviceId = 0
  · simp only [getDeviceBarMem, initHDevFunc_of_device hd, hid, ↓reduceIte, bind, Except.bind,
      pure, Except.pure] at hq
    cases hq
  · rw [getDeviceBarMem_of_device x' y hd hid] at hq
    cases hq
    exact ⟨hid, rfl, (UInt32.toNat_toUInt64 _).symm⟩

/-- The `n` bytes from `a` on are mapped for the first BAR of the handle: an
access of that BAR that succeeds is one to these bytes, and no other handle is
told of a window with one of them. -/
structure Window (t : Program) (h : Handle) (a : Addr) (n : Nat) : Prop where
  mapped : ∃ m ∈ t.world.space.maps, m.start = a ∧ m.len = n
  access : ∀ acc : Access, acc.hDev = h.addr → acc.call.index = 0 → ∀ val w',
    acc.exec t.world = .ok (cronoSuccess, val, w') → acc.dwOffset.toNat + acc.call.width ≤ n ∧
      match acc.call.written with
      | none => w' = t.world ∧
          val = some (loadBytes t.world.mem (a + acc.dwOffset.toNat) acc.call.width)
      | some v => w' = { t.world with
          mem := storeBytes t.world.mem (a + acc.dwOffset.toNat) acc.call.width v }
  apart : ∀ h' ∈ t.live, h' ≠ h → ∀ a' n', getDeviceBarMem h'.addr (some 0) (some 0) t.world =
    .ok (cronoSuccess, some a', some n') → a' ≠ 0 → a + n ≤ a' ∨ a' + n'.toNat ≤ a

/-- The first entry of a live handle, where it has an address, is a window. -/
theorem ProgramInv.window (hi : ProgramInv t) (hh : h ∈ t.live)
    (hd : t.world.device? h.addr = some d) (ha : (d.bars.barDescs.get 0).userAddress ≠ 0) :
    Window t h (d.bars.barDescs.get 0).userAddress (d.bars.barDescs.get 0).length.toNat := by
  have hpart {h : Handle} {d : KernelDevice} (hh : h ∈ t.live)
      (hd : t.world.device? h.addr = some d) (ha : (d.bars.barDescs.get 0).userAddress ≠ 0) :
      t.holdings.PartHas (.device h, .bar 0) (.region (d.bars.barDescs.get 0).userAddress
        (d.bars.barDescs.get 0).length.toNat) :=
    ⟨hh, .device d, World.device?_eq_some.1 hd, .bar ha⟩
  refine ⟨hi.sound.owns.mem _ _ (hpart hh hd ha), ?_, ?_⟩
  · intro acc hacc hidx val w' hcall
    have hlt : acc.call.index < 6 := by omega
    have hdesc : acc.call.desc d = d.bars.barDescs.get 0 := by
      rw [Accessor.desc, getD_barDescs d hlt]
      exact congrArg d.bars.barDescs.get (Fin.ext hidx)
    rcases acc.exec_ok hlt hcall with ⟨hret, -⟩ | ⟨-, d', hd', hrange, hdone⟩
    · exact absurd rfl hret
    rw [hacc, hd] at hd'
    cases hd'
    rw [hdesc, exceedsRange_iff acc.call.checkedSize_le] at hrange
    have hwidth := acc.call.width_le
    refine ⟨by omega, ?_⟩
    rw [Accessor.target, hdesc] at hdone
    rcases hdone with ⟨hwritten, rfl, rfl⟩ | ⟨v, hwritten, rfl⟩ <;> rw [hwritten]
    exact ⟨rfl, rfl⟩
  · intro h' hh' hne a' n' hq ha'
    obtain ⟨d', hd'⟩ := hi.client.reg.device h' hh'
    obtain ⟨-, rfl, hlen⟩ := getDeviceBarMem_ok hd' hq
    rw [← hlen]
    refine hi.regions_disjoint (hpart hh hd ha) (hpart hh' hd' ha') ?_
    intro he
    cases he
    exact hne rfl

/-- The call is a Close of the handle that fails, and it unmaps the window. -/
structure LosesWindow (h : Handle) (a : Addr) (n : Nat) (s : Program) (c : Call) (s' : Program) :
    Prop where
  close : ∃ munmap, c = .use (.registry (.closeDev munmap h))
  fails : s.Fails c
  before : Window s h a n
  after : ∀ m ∈ s'.world.space.maps, m.start + m.len ≤ a ∨ a + n ≤ m.start

/-- A Close after which the handle is live has failed. -/
theorem Program.fails_of_live {p' : Program} {munmap : Fin 6 → Option Errno} (hi : ProgramInv p)
    (hs : p.step (.use (.registry (.closeDev munmap h))) = .ok p') (hh : h ∈ p'.live) :
    p.Fails (.use (.registry (.closeDev munmap h))) := by
  obtain ⟨s, hstep, rfl⟩ := Program.step_registry hs
  obtain ⟨ret, w, hc, ⟨-, rfl⟩ | ⟨hret, -⟩⟩ := step_closeDev hstep
  · have hnodup : p.live.Nodup := .of_map _ hi.client.reg.nodup
    exact absurd hh hnodup.not_mem_erase
  · simp only [Program.Fails, Program.ret]
    rw [show pciDeviceClose munmap h.addr p.world = _ from hc]
    exact hret

/-- A call leaves the first entry of a live handle as it is, or loses its window. -/
theorem ProgramInv.first_entry {p' : Program} {c : Call} (hi : ProgramInv p) (hl : p.Legal c)
    (hs : p.step c = .ok p') (hh : h ∈ p.live) (hh' : h ∈ p'.live)
    (hd : p.world.device? h.addr = some d) (ha : (d.bars.barDescs.get 0).userAddress ≠ 0) :
    (∃ d', p'.world.device? h.addr = some d' ∧
      d'.bars.barDescs.get 0 = d.bars.barDescs.get 0) ∨
      LosesWindow h (d.bars.barDescs.get 0).userAddress
        (d.bars.barDescs.get 0).length.toNat p c p' := by
  have hd' : p.holdings.get h.addr = some (.device d) := World.device?_eq_some.1 hd
  cases (hi.outcome hl hs).keeps hi (hi.block (k := .device h) hh) hh' with
  | same hget =>
    have hblock : p'.world.device? h.addr = some d := World.device?_eq_some.2 (hget.trans hd')
    exact Or.inl ⟨d, hblock, rfl⟩
  | described hold _ hcount =>
    rw [hd'] at hold
    cases hold
    exact absurd hcount (hi.barCount_ne_zero hh hd ha)
  | @unmapped _ _ bars space hold hget _ heff hmaps hgives =>
    rw [hd'] at hold
    cases hold
    rcases heff.desc 0 with he | ⟨-, hgone⟩
    · exact Or.inl ⟨_, World.device?_eq_some.2 hget, he⟩
    right
    obtain ⟨munmap, h₀, rfl⟩ := Call.eq_closeDev hgives
    obtain rfl : h = h₀ := (hgives (.device h)).2 rfl
    have hwindow := hi.window hh hd ha
    refine ⟨⟨munmap, rfl⟩, Program.fails_of_live hi hs hh', hwindow, ?_⟩
    -- what is left was mapped beside the window
    intro m hm
    have hm : m ∈ space.maps := hmaps ▸ hm
    obtain ⟨m₀, hm₀, hstart, hlen⟩ := hwindow.mapped
    have hne : m ≠ m₀ := by
      rintro rfl
      exact hgone m hm ⟨hstart, hlen⟩
    rw [← hstart, ← hlen]
    exact p.world.space.disjoint.forall (heff.sub hm) hm₀ hne

/-- The first entry of a handle is as it was until a call loses its window. -/
theorem Program.ReachesHolding.first_entry (ht : Program.ReachesHolding (.device h) p t)
    (hi : ProgramInv p) (hd : p.world.device? h.addr = some d)
    (ha : (d.bars.barDescs.get 0).userAddress ≠ 0) :
    (h ∈ t.live → ∃ e, t.world.device? h.addr = some e ∧
      e.bars.barDescs.get 0 = d.bars.barDescs.get 0) ∨
    ∃ s c s', Program.ReachesHolding (.device h) p s ∧ s.step c = .ok s' ∧
      LosesWindow h (d.bars.barDescs.get 0).userAddress (d.bars.barDescs.get 0).length.toNat
        s c s' ∧ Program.ReachesHolding (.device h) s' t := by
  refine (Reach.holds_or_broken (P := fun t => ProgramInv t ∧ (h ∈ t.live →
    ∃ e, t.world.device? h.addr = some e ∧ e.bars.barDescs.get 0 = d.bars.barDescs.get 0))
    ⟨hi, fun _ => ⟨d, hd, rfl⟩⟩ ?_ ht).imp_left And.right
  rintro s s' c ⟨hi, hentry⟩ ⟨hl, hheld⟩ hs
  obtain ⟨e, he, hsame⟩ := hentry hheld
  by_cases hheld' : h ∈ s'.live
  · refine (hi.first_entry hl hs hheld hheld' he (hsame ▸ ha)).imp ?_ ?_
    · rintro ⟨e', he', hsame'⟩
      exact ⟨hi.step hl hs, fun _ => ⟨e', he', hsame'.trans hsame⟩⟩
    · rw [hsame]
      exact id
  · exact Or.inl ⟨hi.step hl hs, fun hheld => absurd hheld hheld'⟩

/-- What a handle was told of the window of its first BAR holds good for as long
as it is live, whatever is called in between: when it asks again, it is told the
same, and the window is still mapped, its accesses still go there and no other
window overlaps it; or else a Close of the handle has failed and unmapped the
window, and the handle is told the address 0. -/
theorem bar_mem_window (hw : w.Initial) (hp : Program.Reachable w p) (hh : h ∈ p.live)
    (hquery : getDeviceBarMem h.addr (some x) (some y) p.world =
      .ok (cronoSuccess, some a, some n)) (ha : a ≠ 0)
    (ht : Program.ReachesHolding (.device h) p t) (hlive : h ∈ t.live) :
    ∃ a', (∀ x' y', getDeviceBarMem h.addr (some x') (some y') t.world =
      .ok (cronoSuccess, some a', some n)) ∧ (a' = a ∧ Window t h a n.toNat ∨
        a' = 0 ∧ ∃ s c s', Program.ReachesHolding (.device h) p s ∧ s.step c = .ok s' ∧
          LosesWindow h a n.toNat s c s' ∧ Program.ReachesHolding (.device h) s' t) := by
  have hi := programInv_reachable hw hp
  obtain ⟨d, hd⟩ : ∃ d, p.world.device? h.addr = some d := hi.client.reg.device h hh
  obtain ⟨hid, rfl, hlen⟩ := getDeviceBarMem_ok hd hquery
  rw [getDeviceBarMem_of_device x y hd hid] at hquery
  cases hquery
  have hcount := hi.barCount_ne_zero hh hd ha
  obtain ⟨hi', bars, hd', hbars⟩ := ht.device hi hh hd hlive
  have hquery (x' : Addr) (y' : UInt64) := getDeviceBarMem_of_device x' y' hd' hid
  rcases (hbars.resolve_left hcount).2 0 with he | he
  · have hwindow := hi'.window hlive hd' (he ▸ ha)
    simp only [he] at hquery hwindow
    exact ⟨_, hquery, Or.inl ⟨rfl, hlen ▸ hwindow⟩⟩
  · simp only [he] at hquery
    refine ⟨0, hquery, Or.inr ⟨rfl, ?_⟩⟩
    rw [← hlen]
    refine (ht.first_entry hi hd ha).resolve_left ?_
    intro hentry
    obtain ⟨e, he', hsame⟩ := hentry hlive
    rw [hd'] at he'
    cases he'
    rw [← hsame, he] at ha
    exact ha rfl

/-- The device on bus 1 has two BARs; its Close unmaps the first and fails. -/
def Call.losesFirst : List Call :=
  [.use (.registry (.closeDev (fun j => if j.1 = 0 then none else some .inval) ⟨16, 5⟩))]

/-- The window of a device stays while another is opened and closed beside it; a
Close that fails at the second BAR takes it away. -/
theorem bar_mem_window_beside : ∃ p t t', Program.Reachable World.boot p ∧
    Program.ReachesHolding (.device ⟨16, 5⟩) p t ∧ t.live = [⟨16, 5⟩] ∧
    Program.ReachesHolding (.device ⟨16, 5⟩) p t' ∧ t'.live = [⟨16, 5⟩] ∧
    getDeviceBarMem 16 (some 0) (some 0) p.world = .ok (cronoSuccess, some 4096, some 4096) ∧
    Window t ⟨16, 5⟩ 4096 4096 ∧
    getDeviceBarMem 16 (some 0) (some 0) t'.world = .ok (cronoSuccess, some 0, some 4096) ∧
    ∃ s c s', s.step c = .ok s' ∧ LosesWindow ⟨16, 5⟩ 4096 4096 s c s' := by
  obtain ⟨p, hp, ⟨hmem, hquery⟩, hrun, hrun'⟩ : ∃ p, Program.Reachable World.boot p ∧
      (⟨16, 5⟩ ∈ p.live ∧ getDeviceBarMem 16 (some 0) (some 0) p.world =
        .ok (cronoSuccess, some 4096, some 4096)) ∧
      (runFrom Program.step (fun p c => p.Legal c ∧ p.holdings.Holds (.device ⟨16, 5⟩)) p
        (Call.beside 12)).any (fun t => decide (t.live = [⟨16, 5⟩] ∧
          getDeviceBarMem 16 (some 0) (some 0) t.world =
            .ok (cronoSuccess, some 4096, some 4096))) = true ∧
      (runFrom Program.step (fun p c => p.Legal c ∧ p.holdings.Holds (.device ⟨16, 5⟩)) p
        Call.losesFirst).any (fun t => decide (t.live = [⟨16, 5⟩] ∧
          getDeviceBarMem 16 (some 0) (some 0) t.world =
            .ok (cronoSuccess, some 0, some 4096))) = true :=
    exists_reach_of_run [.use (.registry (.openDev (.small 1 16 none
      (.small "1000 1fff 200\n2000 2fff 200".toList fun j => if j = 0 then 4096 else 65536))
      (busSlot 1)))] (by decide)
  obtain ⟨t, ht, hlive, hsame⟩ := exists_reach_of_run (Call.beside 12) hrun
  obtain ⟨t', ht', hlive', hzero⟩ := exists_reach_of_run Call.losesFirst hrun'
  have hheld (t : Program) (hlive : t.live = [⟨16, 5⟩]) : ⟨16, 5⟩ ∈ t.live := by
    rw [hlive]
    exact List.mem_singleton_self _
  obtain ⟨a', hagain, hwindow⟩ := bar_mem_window World.boot_initial hp hmem hquery (by decide) ht
    (hheld t hlive)
  obtain ⟨a'', hagain', hlost⟩ := bar_mem_window World.boot_initial hp hmem hquery (by decide) ht'
    (hheld t' hlive')
  obtain rfl : a' = 4096 := by
    have he := (hagain 0 0).symm.trans hsame
    cases he
    rfl
  obtain rfl : a'' = 0 := by
    have he := (hagain' 0 0).symm.trans hzero
    cases he
    rfl
  obtain ⟨-, s, c, s', -, hs, hloses, -⟩ := hlost.resolve_left (by simp)
  exact ⟨p, t, t', hp, ht, hlive, ht', hlive', hquery, (hwindow.resolve_right (by simp)).2, hzero,
    s, c, s', hs, hloses⟩

end Bar

end CronoPci
