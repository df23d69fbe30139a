import CronoPci.Verify.CloseOnce
import CronoPci.Verify.Returns

/-!
# Where the requests of a handle go

A handle sends its requests to whatever file its number names. This is the misc
device of the handle until a Close, which closes the number first and may fail
after it; from then on the number may be given to a device opened later. But it
never names a file that is not the misc device of some live handle.
-/

namespace CronoPci

open Posix Trans

section Requests

variable {w : World} {p p' : Program} {c : Call} {H : Holdings} {h : Handle} {d : KernelDevice}

/-- A file that the number of a live handle names is that of a live handle with
this number. -/
def Holdings.NamesLive (H : Holdings) : Prop :=
  ∀ h ∈ H.live, ∀ d, H.get h.addr = some (.device d) → ∀ f, H.file d.miscdevFd = some f →
    ∃ h' ∈ H.live, h'.file = f ∧
      ∃ d', H.get h'.addr = some (.device d') ∧ d'.miscdevFd = d.miscdevFd

/-- A handle keeps its number. -/
theorem Outcome.number (ho : Outcome p c H) (hi : ProgramInv p) (hh : h ∈ p.live)
    (hh' : h ∈ H.live) : ∃ d d', p.holdings.get h.addr = some (.device d) ∧
      H.get h.addr = some (.device d') ∧ d'.miscdevFd = d.miscdevFd := by
  obtain ⟨d, hd⟩ : ∃ d, p.world.device? h.addr = some d := hi.client.reg.device h hh
  have hd' := World.device?_eq_some.1 hd
  obtain ⟨b, hb, hbecomes⟩ := ho.becomes hi (hi.block (k := .device h) hh) hh' hd'
  cases hbecomes with
  | same => exact ⟨d, d, hd', hb, rfl⟩
  | device => exact ⟨d, _, hd', hb, rfl⟩

/-- What the number of a handle of before names is named by a handle of before,
and by it still unless the call gave it back. -/
theorem Outcome.names_old (ho : Outcome p c H) (hi : ProgramInv p) (hnames : p.holdings.NamesLive)
    (hh : h ∈ p.live) (hh' : h ∈ H.live) (hd : H.get h.addr = some (.device d)) {f : Nat}
    (hf : p.world.fds.file d.miscdevFd = some f)
    (hkept : ∀ h' ∈ p.live, (∀ d', p.holdings.get h'.addr = some (.device d') →
      d'.miscdevFd = d.miscdevFd) → h' ∈ H.live) :
    ∃ h' ∈ H.live, h'.file = f ∧
      ∃ d', H.get h'.addr = some (.device d') ∧ d'.miscdevFd = d.miscdevFd := by
  obtain ⟨d₀, d', hd₀, hd', hnum⟩ := ho.number hi hh hh'
  rw [hd] at hd'
  cases hd'
  obtain ⟨h', hmem, hfile, e, he, hsame⟩ := hnames h hh d₀ hd₀ f (hnum ▸ hf)
  have hmem' : h' ∈ H.live := by
    refine hkept h' hmem ?_
    intro e' he'
    rw [he] at he'
    cases he'
    exact hsame.trans hnum.symm
  obtain ⟨e₀, e', he₀, he', hnum'⟩ := ho.number hi hmem hmem'
  rw [he] at he₀
  cases he₀
  exact ⟨h', hmem', hfile, e', he', hnum'.trans (hsame.trans hnum.symm)⟩

theorem Outcome.namesLive (ho : Outcome p c H) (hi : ProgramInv p)
    (hnames : p.holdings.NamesLive) : H.NamesLive := by
  intro h hh d hd f hf
  have hold (hin : h ∈ p.live) := ho.names_old hi hnames hin hh hd (f := f)
  -- where a number is closed, `f` was named before under another one
  have hother {n : Nat} (hf : Function.update p.world.fds.file n none d.miscdevFd = some f) :
      d.miscdevFd ≠ n ∧ p.world.fds.file d.miscdevFd = some f := by
    by_cases hn : d.miscdevFd = n
    · rw [hn, Function.update_self] at hf
      cases hf
    · rw [Function.update_of_ne hn] at hf
      exact ⟨hn, hf⟩
  -- and the handle that is closed has that number
  have herase {h₀ : Handle} {d₀ : KernelDevice} (hd₀ : p.world.device? h₀.addr = some d₀)
      (hn : d.miscdevFd ≠ d₀.miscdevFd) (h' : Handle) (hh' : h' ∈ p.live)
      (hnum : ∀ d', p.holdings.get h'.addr = some (.device d') → d'.miscdevFd = d.miscdevFd) :
      h' ∈ p.live.erase h₀ := by
    refine hi.client.reg.mem_erase.2 ⟨?_, hh'⟩
    rintro rfl
    exact hn (hnum d₀ (World.device?_eq_some.1 hd₀)).symm
  cases ho with
  | @opened _ a f₀ _ _ d₁ =>
    by_cases hn : d.miscdevFd = d₁.miscdevFd
    · rw [hn] at hf
      simp only [Function.update_self, Option.some.injEq] at hf
      exact ⟨⟨a, f₀⟩, List.mem_cons_self, hf, d₁, Function.update_self .., hn.symm⟩
    · rcases List.mem_cons.1 hh with rfl | hin
      · simp only [Function.update_self, Option.some.injEq] at hd
        cases hd
        exact absurd rfl hn
      · simp only [Function.update_of_ne hn] at hf
        exact hold hin hf fun h' hh' _ => List.mem_cons_of_mem _ hh'
  | closeFailed => exact hold hh (hother hf).2 fun h' hh' _ => hh'
  | closed _ _ hd₀ | closedAbsent _ _ hd₀ =>
    obtain ⟨hn, hf⟩ := hother hf
    exact hold (List.mem_of_mem_erase hh) hf (herase hd₀ hn)
  | unloaded => cases hh
  | _ => exact hold hh hf fun h' hh' _ => hh'

theorem namesLive_reachable (hw : w.Initial) (hp : Program.Reachable w p) :
    p.holdings.NamesLive := by
  refine Reach.invariant_of (I := fun p => p.holdings.NamesLive) ?_
    (fun _ => programInv_reachable hw) ?_ hp
  · intro h hh
    cases hh
  · intro s s' c hi hnames hl hs
    exact (hi.outcome hl hs).namesLive hi hnames

/-- The call is a Close of a valid handle with the number `n`. -/
def Program.ClosesNumber (p : Program) (n : Nat) : Call → Prop
  | .use (.registry (.closeDev _ h)) =>
    ∃ d ∈ p.world.device? h.addr, d.dwDeviceId ≠ 0 ∧ d.miscdevFd = n
  | _ => False

/-- What a Close that returns does to the files. -/
theorem Program.step_closeDev_fds {munmap : Fin 6 → Option Errno} (hi : ProgramInv p)
    (hd : p.world.device? h.addr = some d)
    (hs : p.step (.use (.registry (.closeDev munmap h))) = .ok p') :
    p'.world.fds = if d.dwDeviceId = 0 then p.world.fds else p.world.fds.close d.miscdevFd := by
  obtain ⟨s, hstep, rfl⟩ := Program.step_registry hs
  obtain ⟨ret, w, hc, hor⟩ := step_closeDev hstep
  have hr := pciDeviceClose_result munmap hd hi.client.reg.distinct
  rw [show pciDeviceClose munmap h.addr p.world = _ from hc] at hr
  have hworld : s.world = w := by
    rcases hor with ⟨-, rfl⟩ | ⟨-, rfl⟩ <;> rfl
  change s.world.fds = _
  rw [hworld]
  split
  · next hid => rw [hr.invalid_eq hid]
  · next hid => exact hr.fds hid

/-- Only a Close is given one handle. -/
theorem Call.eq_closeDev (hgives : ∀ k, c.Gives k ↔ k = .device h) :
    ∃ munmap h₀, c = .use (.registry (.closeDev munmap h₀)) := by
  have hgiven := (hgives (.device h)).2 rfl
  unfold Call.Gives at hgiven
  split at hgiven
  · exact ⟨_, _, rfl⟩
  · have he := (hgives (.device ⟨h.addr, h.file + 1⟩)).1 trivial
    simp only [Key.device.injEq] at he
    have hfile := congrArg Handle.file he
    simp only at hfile
    omega
  all_goals trivial

/-- Calls that are no Close leave the file of a live handle under its number. -/
theorem Outcome.file_stays (ho : Outcome p c H) (hh : h ∈ H.live)
    (hclose : ¬∃ munmap h₀, c = .use (.registry (.closeDev munmap h₀))) {n f : Nat}
    (hf : p.world.fds.file n = some f) : H.file n = some f := by
  cases ho with
  | opened _ _ hnum => exact FdTable.update_of_free hnum hf _
  | closeFailed hgives | closed hgives | closedAbsent _ _ _ hgives =>
    exact absurd (Call.eq_closeDev hgives) hclose
  | unloaded => cases hh
  | _ => exact hf

/-- The file of a live handle leaves a number with a Close of that number, and with
no other call. -/
theorem ProgramInv.own_file_iff (hi : ProgramInv p) (hl : p.Legal c) (hs : p.step c = .ok p')
    (hh : h ∈ p.live) (hh' : h ∈ p'.live) (n : Nat) :
    p'.world.fds.file n = some h.file ↔
      p.world.fds.file n = some h.file ∧ ¬p.ClosesNumber n c := by
  have ho := hi.outcome hl hs
  constructor
  · intro hown
    refine ⟨ho.file_old hown (hi.sound.file h hh), ?_⟩
    intro hcloses
    unfold Program.ClosesNumber at hcloses
    split at hcloses
    case h_2 => exact hcloses
    obtain ⟨d₀, hd₀, hid, hnum⟩ := hcloses
    rw [Program.step_closeDev_fds hi hd₀ hs, if_neg hid, hnum, FdTable.file_close,
      Function.update_self] at hown
    cases hown
  · rintro ⟨hown, hnot⟩
    by_cases hclose : ∃ munmap h₀, c = .use (.registry (.closeDev munmap h₀))
    case neg => exact ho.file_stays hh' hclose hown
    obtain ⟨munmap, h₀, rfl⟩ := hclose
    obtain ⟨d₀, hd₀⟩ : ∃ d₀, p.world.device? h₀.addr = some d₀ := hi.client.reg.device h₀ hl.2
    rw [Program.step_closeDev_fds hi hd₀ hs]
    split
    · exact hown
    · next hid =>
      rw [FdTable.file_close, Function.update_of_ne]
      · exact hown
      · intro hnum
        exact hnot ⟨d₀, hd₀, hid, hnum.symm⟩

/-- A number that a live handle sends requests to names the misc device of a live
handle with that number, or nothing. It stops naming the handle's own file with a
Close of a valid handle that has the number, and with no other call. -/
theorem requests_routed (hw : w.Initial) (hp : Program.Reachable w p) (hh : h ∈ p.live)
    (hd : p.world.device? h.addr = some d) :
    (∀ f, p.world.fds.file d.miscdevFd = some f → ∃ h' ∈ p.live, h'.file = f ∧
      ∃ d', p.world.device? h'.addr = some d' ∧ d'.miscdevFd = d.miscdevFd) ∧
    ∀ c p', p.Legal c → p.step c = .ok p' → h ∈ p'.live →
      (p'.world.fds.file d.miscdevFd = some h.file ↔
        p.world.fds.file d.miscdevFd = some h.file ∧ ¬p.ClosesNumber d.miscdevFd c) := by
  have hi := programInv_reachable hw hp
  refine ⟨?_, ?_⟩
  · intro f hf
    obtain ⟨h', hh', hfile, d', hd', hnum⟩ :=
      namesLive_reachable hw hp h hh d (World.device?_eq_some.1 hd) f hf
    exact ⟨h', hh', hfile, d', World.device?_eq_some.2 hd', hnum⟩
  · intro c p' hl hs hh'
    exact hi.own_file_iff hl hs hh hh' d.miscdevFd

/-- Device 2 gets the number of device 1, whose Close failed. -/
theorem requests_routed_reused : ∃ p d, Program.Reachable World.boot p ∧
    p.live = [⟨32, 11⟩, ⟨16, 5⟩] ∧ p.world.device? 16 = some d ∧
    ∃ h' ∈ p.live, h'.file = 11 ∧
      ∃ d', p.world.device? h'.addr = some d' ∧ d'.miscdevFd = d.miscdevFd := by
  obtain ⟨p, hp, hlive, hnum⟩ : ∃ p, Program.Reachable World.boot p ∧
      p.live = [⟨32, 11⟩, ⟨16, 5⟩] ∧
      (p.world.device? 16).any (fun d => decide (p.world.fds.file d.miscdevFd = some 11)) = true :=
    exists_reach_of_run [.use (.registry (.opensBar 1 16)), .use (.registry (.closeFails 16 5)),
      .use (.registry (.opens 2 32))] (by decide)
  obtain ⟨d, hd, hf⟩ := (Option.any_eq_true ..).1 hnum
  have hh : ⟨16, 5⟩ ∈ p.live := by
    rw [hlive]
    exact List.mem_cons_of_mem _ List.mem_cons_self
  have hroute := (requests_routed World.boot_initial hp hh hd).1 11 (of_decide_eq_true hf)
  exact ⟨p, d, hp, hlive, hd, hroute⟩

end Requests

end CronoPci
