import CronoPci.Verify.Requests

/-!
# Calls that fail

A call that returns an error leaves the keys, the blocks, the regions, the files
and the locked buffers as they were, exactly when it is not lossy and is no Close
of a device whose number is open: a Close closes the number before anything that
can fail.
-/

namespace CronoPci

open Posix Trans

/-! ## Return codes -/

/-- What the call returns; the unload hook returns nothing. -/
def Program.ret (p : Program) : Call → Except Fault Code
  | .use (.registry (.openDev sys slot)) =>
    (pciDeviceOpen sys (some 0) (some slot) p.world).map Prod.fst
  | .use (.registry (.closeDev munmap h)) => (pciDeviceClose munmap h.addr p.world).map Prod.fst
  | .use (.registry (.getBars sys h)) =>
    (getBarDescriptions sys h.addr (some 0) (some (Vector.replicate 6 .zero)) p.world).map Prod.fst
  | .use (.registry .unload) => .ok cronoSuccess
  | .use (.scan sys dwVendorId dwDeviceId res) =>
    (pciScanDevices sys dwVendorId dwDeviceId res p.world).map Prod.fst
  | .use (.access a) => (a.exec p.world).map Prod.fst
  | .use (.readCfg sys hDev dwOffset val) =>
    (pciReadCfg32 sys hDev dwOffset val p.world).map Prod.fst
  | .use (.writeCfg sys hDev dwOffset val) =>
    (pciWriteCfg32 sys hDev dwOffset val p.world).map Prod.fst
  | .use (.lockContig sys hDev ppBuf dwDMABufSize ppDma) =>
    (dmaContigBufLock sys hDev ppBuf dwDMABufSize ppDma p.world).map Prod.fst
  | .use (.unlockContig sys hDev pDma) => (dmaContigBufUnlock sys hDev pDma p.world).map Prod.fst
  | .use (.lockSg sys hDev pBuf dwDMABufSize ppDma) =>
    (dmaSgBufLock sys hDev pBuf dwDMABufSize ppDma p.world).map Prod.fst
  | .use (.unlockSg sys hDev pDma) => (dmaSgBufUnlock sys hDev pDma p.world).map Prod.fst
  | .cleanup sys hDev cmd dwCmdCount =>
    (cardCleanupSetup sys hDev cmd dwCmdCount p.world).map Prod.fst
  | .query q => q.code p.world

/-- The call returns an error. -/
def Program.Fails (p : Program) (c : Call) : Prop :=
  match p.ret c with
  | .ok ret => ret ≠ cronoSuccess
  | .error _ => False

instance (p : Program) (c : Call) : Decidable (p.Fails c) := by
  unfold Program.Fails
  split <;> infer_instance

section Failures

variable {w : World} {p p' : Program} {c : Call} {h : Handle} {d : KernelDevice}

/-- The code that a failed call returns. -/
theorem Program.Fails.ne {α : Type} {x : Except Fault (Code × α)} {r : Code × α}
    (hret : p.ret c = x.map Prod.fst) (hfails : p.Fails c) (hx : x = .ok r) :
    r.1 ≠ cronoSuccess := by
  subst hx
  unfold Program.Fails at hfails
  rw [hret] at hfails
  exact hfails

/-- A call that fails gives no key and takes none. -/
theorem Program.Fails.keys (hfails : p.Fails c) (hs : p.step c = .ok p') :
    p'.live = p.live ∧ p'.contigs = p.contigs ∧ p'.sgs = p.sgs := by
  cases c with
  | cleanup | query =>
    obtain ⟨r, he, hs⟩ := bind_eq_ok hs
    cases hs
    exact ⟨rfl, rfl, rfl⟩
  | use u =>
  cases u with
  | registry op =>
    obtain ⟨s, hstep, rfl⟩ := Program.step_registry hs
    refine ⟨?_, rfl, rfl⟩
    cases op with
    | openDev sys slot =>
      obtain ⟨r, he, hstep⟩ := bind_eq_ok hstep
      cases hstep
      exact if_neg fun hok => hfails.ne rfl he hok.1
    | closeDev munmap h =>
      obtain ⟨ret, w, hc, ⟨hret, rfl⟩ | ⟨hret, rfl⟩⟩ := step_closeDev hstep
      · exact absurd hret (hfails.ne rfl hc)
      · rfl
    | getBars sys h =>
      obtain ⟨r, he, hstep⟩ := bind_eq_ok hstep
      cases hstep
      rfl
    | unload => exact absurd rfl hfails
  | lockContig sys hDev ppBuf size ppDma =>
    obtain ⟨r, he, hs⟩ := bind_eq_ok hs
    cases hs
    exact ⟨rfl, if_neg fun hok => hfails.ne rfl he hok.1, rfl⟩
  | unlockContig sys hDev q =>
    obtain ⟨r, he, hs⟩ := bind_eq_ok hs
    cases hs
    exact ⟨rfl, if_neg (hfails.ne rfl he), rfl⟩
  | lockSg | unlockSg =>
    obtain ⟨c', hc', hs⟩ := bind_eq_ok hs
    cases hs
    obtain ⟨r, he, hc'⟩ := bind_eq_ok hc'
    cases hc'
    exact ⟨rfl, rfl, if_neg (hfails.ne rfl he)⟩
  | scan | access | readCfg | writeCfg =>
    obtain ⟨c', hc', hs⟩ := bind_eq_ok hs
    cases hs
    obtain ⟨r, he, hc'⟩ := bind_eq_ok hc'
    cases hc'
    exact ⟨rfl, rfl, rfl⟩

theorem getBarDescriptions_heap {sys : BarSys} {n n' : Option Nat}
    {t t' : Option (Vector BarDesc 6)} {ret : Code} {a : Addr} {w' : World}
    (h : getBarDescriptions sys a n t w = .ok (ret, n', t', w')) (hret : ret ≠ cronoSuccess) :
    w'.heap = w.heap := by
  obtain ⟨r, hinit, h⟩ := bind_eq_ok h
  cases r with
  | error =>
    cases h
    rfl
  | ok d =>
  obtain ⟨hd, -⟩ := initHDevFunc_ok hinit
  simp only at h
  split at h
  · cases h
    rfl
  · obtain ⟨⟨ret', w₁⟩, hfill, h⟩ := bind_eq_ok h
    simp only at h
    split at h
    · next hret' =>
      cases h
      cases fill_ok hd hfill with
      | already => rfl
      | failed => rfl
      | filled => exact absurd rfl hret'
    · obtain ⟨d', -, h⟩ := bind_eq_ok h
      cases h
      exact absurd rfl hret

/-- A call that cannot describe BARs leaves all blocks as they were. -/
theorem Program.Fails.get (hs : p.step c = .ok p') (hfails : p.Fails c) {sys : BarSys}
    (hsys : c.describes = some sys) : p'.holdings.get = p.holdings.get := by
  have hlive := (hfails.keys hs).1
  unfold Call.describes at hsys
  split at hsys
  case h_3 => cases hsys
  · obtain ⟨s, hstep, rfl⟩ := Program.step_registry hs
    cases step_openDev hstep with
    | nothing => rfl
    | dropped hdrop => exact hdrop.get
    | opened => exact absurd hlive (List.cons_ne_self _ _)
  · obtain ⟨s, hstep, rfl⟩ := Program.step_registry hs
    obtain ⟨⟨ret, n, t, w'⟩, he, hstep⟩ := bind_eq_ok hstep
    cases hstep
    exact congrArg Heap.get (getBarDescriptions_heap he (hfails.ne rfl he))

/-- A table that stays empty has no regions. -/
theorem Filled.maps_none {sys : BarSys} {dir : List Char} {descs : List BarDesc}
    (hfilled : Filled sys d w dir descs d.bars) (hcount : d.bars.barCount = 0) :
    (mapRows sys dir sys.rows w.space).2.maps = w.space.maps := by
  have hdescs : descs = [] := by
    rw [← hfilled.filled, BarTable.filled, hcount, List.take_zero]
  rw [hfilled.maps_eq, hdescs]
  rfl

/-- What is held and what the process has are as they were, but for the count and
the paths of the files opened so far. -/
def Program.Untouched (p p' : Program) : Prop :=
  p'.holdings = { p.holdings with next := p'.world.fds.next, path := p'.world.fds.path }

/-- The call is a Close of a valid handle whose number is open. -/
def Program.ClosesFile (p : Program) : Call → Prop
  | .use (.registry (.closeDev _ h)) =>
    ∃ d ∈ p.world.device? h.addr, d.dwDeviceId ≠ 0 ∧ p.world.fds.file d.miscdevFd ≠ none
  | _ => False

instance (p : Program) (c : Call) : Decidable (p.ClosesFile c) := by
  unfold Program.ClosesFile
  split <;> infer_instance

/-- A Close that fails changes what the process has if it closed a file. -/
theorem untouched_closeDev {munmap : Fin 6 → Option Errno} (hi : ProgramInv p) (hh : h ∈ p.live)
    (hs : p.step (.use (.registry (.closeDev munmap h))) = .ok p')
    (hfails : p.Fails (.use (.registry (.closeDev munmap h)))) :
    p.Untouched p' ↔ ¬p.ClosesFile (.use (.registry (.closeDev munmap h))) := by
  obtain ⟨d, hd⟩ : ∃ d, p.world.device? h.addr = some d := hi.client.reg.device h hh
  have hfds := Program.step_closeDev_fds hi hd hs
  constructor
  · rintro huntouched ⟨d', hd', hid, hfd⟩
    rw [hd] at hd'
    cases hd'
    have hfile : p'.world.fds.file = p.world.fds.file := congrArg Holdings.file huntouched
    rw [hfds, if_neg hid, FdTable.file_close] at hfile
    apply hfd
    rw [← hfile, Function.update_self]
  · intro hnot
    obtain ⟨s, hstep, rfl⟩ := Program.step_registry hs
    obtain ⟨ret, w', hc, ⟨hret, rfl⟩ | ⟨hret, rfl⟩⟩ := step_closeDev hstep
    · exact absurd hret (hfails.ne rfl hc)
    have hr := pciDeviceClose_result munmap hd hi.client.reg.distinct
    rw [show pciDeviceClose munmap h.addr p.world = _ from hc] at hr
    cases hr with
    | invalid => rfl
    | badFd hid hfd =>
      have hsame : (p.world.fds.close d.miscdevFd).file = p.world.fds.file := by
        rw [FdTable.file_close, ← hfd, Function.update_eq_self]
      simp only [Program.Untouched, Program.holdings, Program.live, Program.sgs, Program.world,
        Client.live, Client.world, closeMisc] at hsame ⊢
      rw [hsame]
    | closed hid hfd => exact absurd ⟨d, hd, hid, hfd⟩ hnot

/-- Other calls that fail and are not lossy change nothing that the process has. -/
theorem Outcome.untouched (ho : Outcome p c p'.holdings) (hs : p.step c = .ok p')
    (hfails : p.Fails c) (hclean : ¬p.Lossy c)
    (hclose : ¬∃ munmap h₀, c = .use (.registry (.closeDev munmap h₀))) : p.Untouched p' := by
  obtain ⟨hlive, hcontigs, hsgs⟩ := hfails.keys hs
  have hget (sys : BarSys) (hsys : c.describes = some sys) := hfails.get hs hsys
  change p'.holdings.live = _ at hlive
  change p'.holdings.contigs = _ at hcontigs
  change p'.holdings.sgs = _ at hsgs
  change p'.holdings = { p.holdings with next := p'.holdings.next, path := p'.holdings.path }
  generalize p'.holdings = H at *
  cases ho with
  | same => rfl
  | strayRegions hlossy | strayBuffer hlossy | unlockedMapped hlossy =>
    exact absurd hlossy hclean
  | opened => exact absurd hlive (List.cons_ne_self _ _)
  | lockedContig => exact absurd hcontigs (List.cons_ne_self _ _)
  | lockedSg => exact absurd hsgs (List.cons_ne_self _ _)
  | @described _ h d bars _ _ _ _ _ _ hd hcount hfilled _ hsys =>
    -- the table is what it was, and that was empty
    have hblocks := hget _ hsys
    simp only at hblocks
    have hbars : bars = d.bars := by
      have hsame := congrFun hblocks h.addr
      rw [Function.update_self, show p.holdings.get h.addr = _ from World.device?_eq_some.1 hd]
        at hsame
      exact congrArg KernelDevice.bars (Block.device.inj (Option.some.inj hsame))
    subst hbars
    rw [hblocks, hfilled.maps_none hcount]
    rfl
  | closeFailed hgives | closed hgives | closedAbsent _ _ _ hgives =>
    exact absurd (Call.eq_closeDev hgives) hclose
  | unloaded hc =>
    subst hc
    exact absurd rfl hfails
  | unlockedContig _ _ hq =>
    have hlen := congrArg List.length hcontigs
    rw [List.length_erase_of_mem hq] at hlen
    have := List.length_pos_of_mem hq
    omega
  | unlockedSg _ _ hq =>
    have hlen := congrArg List.length hsgs
    rw [List.length_erase_of_mem hq] at hlen
    have := List.length_pos_of_mem hq
    omega

theorem Program.Untouched.trans {p'' : Program} (h : p.Untouched p') (h' : p'.Untouched p'') :
    p.Untouched p'' := by
  unfold Program.Untouched at *
  rw [h', h]

/-- The programs that failed calls lead to which are not lossy and close no file. -/
def Program.ReachesFailing (p t : Program) : Prop :=
  Reach Program.step (fun p c => p.Legal c ∧ p.Fails c ∧ ¬p.Lossy c ∧ ¬p.ClosesFile c) p t

/-- Where a call that fails leaves everything as it was. -/
theorem untouched_iff (hi : ProgramInv p) (hl : p.Legal c) (hs : p.step c = .ok p')
    (hfails : p.Fails c) : p.Untouched p' ↔ ¬p.Lossy c ∧ ¬p.ClosesFile c := by
  have ho := hi.outcome hl hs
  constructor
  · intro huntouched
    refine ⟨?_, ?_⟩
    · intro hlossy
      refine ho.unsettled hi hlossy ?_
      rw [huntouched]
      exact settled_same _ _
    · intro hcloses
      unfold Program.ClosesFile at hcloses
      split at hcloses
      · exact (untouched_closeDev hi hl.2 hs hfails).1 huntouched hcloses
      · exact hcloses
  · rintro ⟨hclean, hnot⟩
    by_cases hclose : ∃ munmap h₀, c = .use (.registry (.closeDev munmap h₀))
    · obtain ⟨munmap, h₀, rfl⟩ := hclose
      exact (untouched_closeDev hi hl.2 hs hfails).2 hnot
    · exact ho.untouched hs hfails hclean hclose

/-- A call that fails changes nothing that is held or that the process has, exactly
when it is not lossy and is no Close of a device whose number is open; nor does any
run of such calls. -/
theorem failed_calls_untouched (hw : w.Initial) (hp : Program.Reachable w p) :
    (∀ c p', p.Legal c → p.step c = .ok p' → p.Fails c →
      (p.Untouched p' ↔ ¬p.Lossy c ∧ ¬p.ClosesFile c)) ∧
    ∀ t, p.ReachesFailing t → p.Untouched t := by
  have hi := programInv_reachable hw hp
  refine ⟨fun c p' hl hs hfails => untouched_iff hi hl hs hfails, ?_⟩
  intro t ht
  have hrun : ProgramInv t ∧ p.Untouched t := by
    refine Reach.invariant (I := fun t => ProgramInv t ∧ p.Untouched t) ⟨hi, rfl⟩ ?_ ht
    rintro s s' c ⟨hi, hsame⟩ ⟨hl, hfails, hclean⟩ hs
    exact ⟨hi.step hl hs, hsame.trans ((untouched_iff hi hl hs hfails).2 hclean)⟩
  exact hrun.2

/-- A Close whose `munmap` fails closes the number of the device. The Close after
it fails for the number, and like an Open that fails it changes nothing. -/
theorem failed_calls_untouched_close : ∃ p p' t, Program.Reachable World.boot p ∧
    p.step (.use (.registry (.closeFails 16 5))) = .ok p' ∧ ¬p.Untouched p' ∧
    p'.ReachesFailing t ∧ p'.Untouched t := by
  obtain ⟨p, hp, hl, hok, hfails, hcloses, hnext⟩ : ∃ p, Program.Reachable World.boot p ∧
      p.Legal (.use (.registry (.closeFails 16 5))) ∧
      (p.step (.use (.registry (.closeFails 16 5)))).isOk = true ∧
      p.Fails (.use (.registry (.closeFails 16 5))) ∧
      p.ClosesFile (.use (.registry (.closeFails 16 5))) ∧
      ∀ p' ∈ (p.step (.use (.registry (.closeFails 16 5)))).toOption,
        (runFrom Program.step
          (fun p c => p.Legal c ∧ p.Fails c ∧ ¬p.Lossy c ∧ ¬p.ClosesFile c) p'
          [.use (.registry (.closeFails 16 5)), .use (.registry (.openFails 2 32))]).isSome =
            true :=
    exists_reach_of_run [.use (.registry (.opensBar 1 16))] (by decide)
  obtain ⟨p', hs⟩ := exists_ok_of_isOk hok
  obtain ⟨t, ht⟩ := Option.isSome_iff_exists.1 (hnext p' (by rw [hs]; rfl))
  have hfails := ((failed_calls_untouched World.boot_initial hp).1 _ _ hl hs hfails).1
  have hreach := reach_of_runFrom (fun _ _ _ hg => hg) .init ht
  have hp' : Program.Reachable World.boot p' := hp.step hl hs
  exact ⟨p, p', t, hp, hs, fun hsame => (hfails hsame).2 hcloses, hreach,
    (failed_calls_untouched World.boot_initial hp').2 t hreach⟩

end Failures

end CronoPci
