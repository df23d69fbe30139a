import CronoPci.Model.Contig
import CronoPci.Trans.Ledger
import CronoPci.Verify.Session

/-!
# Accounting for contiguous buffers

`lock_result` and `unlock_result` list how the two calls can end. `ContigInv`
says that the buffers locked in the kernel module are those of the descriptors
that the caller holds. It survives every call but a Lock that gets a buffer and
then no memory or no mapping: such a call returns an error and keeps the buffer
locked. One that gets no mapping leaves the address of a freed block in `*ppDma`
besides, and a retry takes that for a buffer.
-/

namespace CronoPci

open Posix Trans

/-! ## How a Lock can end -/

/-- The device, and the id and address of the buffer that the module locks for
the call, if the call gets that far. -/
def lockGranted (sys : LockSys) (hDev : Addr) (ppBuf : Option Addr) (dwDMABufSize : UInt32)
    (w : World) : Option (KernelDevice × Int × UInt64) :=
  match w.device? hDev, sys.ioctl with
  | some d, .ok (id, dmaHandle) =>
    if d.dwDeviceId ≠ 0 ∧ ppBuf.isSome ∧ dwDMABufSize ≠ 0 ∧ d.miscdevFd ≠ 0 ∧
        id ∉ w.kernel.contigLocked then some (d, id, dmaHandle)
    else none
  | _, _ => none

section Granted

variable {sys : LockSys} {hDev : Addr} {ppBuf : Option Addr} {size : UInt32} {w : World}

theorem lockGranted_eq_some {d : KernelDevice} {id : Int} {dmaHandle : UInt64} :
    lockGranted sys hDev ppBuf size w = some (d, id, dmaHandle) ↔
      w.device? hDev = some d ∧ sys.ioctl = .ok (id, dmaHandle) ∧ d.dwDeviceId ≠ 0 ∧
        ppBuf.isSome ∧ size ≠ 0 ∧ d.miscdevFd ≠ 0 ∧ id ∉ w.kernel.contigLocked := by
  unfold lockGranted
  cases w.device? hDev with
  | none => simp
  | some d' =>
    cases sys.ioctl with
    | error e => simp
    | ok r =>
      obtain ⟨id', dmaHandle'⟩ := r
      simp only [Option.some.injEq, Except.ok.injEq, Prod.mk.injEq]
      constructor
      · intro h
        split at h
        · next hcond =>
          cases h
          exact ⟨rfl, ⟨rfl, rfl⟩, hcond⟩
        · cases h
      · rintro ⟨rfl, ⟨rfl, rfl⟩, hcond⟩
        rw [if_pos hcond]

theorem lockGranted_eq_none (h : ∀ d id dmaHandle, w.device? hDev = some d →
    sys.ioctl = .ok (id, dmaHandle) → d.dwDeviceId ≠ 0 → ppBuf.isSome → size ≠ 0 →
      d.miscdevFd ≠ 0 → id ∈ w.kernel.contigLocked) :
    lockGranted sys hDev ppBuf size w = none := by
  refine Option.eq_none_iff_forall_ne_some.2 fun ⟨d, id, dmaHandle⟩ hsome => ?_
  obtain ⟨hd, hioctl, hid, hbuf, hsize, hfd, hfresh⟩ := lockGranted_eq_some.1 hsome
  exact hfresh (h d id dmaHandle hd hioctl hid hbuf hsize hfd)

end Granted

/-- The call's `mmap`: buffer `id` of the file open as the misc device of `d`. -/
def contigMap (sys : LockSys) (size : UInt32) (d : KernelDevice) (id : Int) (w : World) :
    Except Errno (Addr × Space) :=
  mmapFd sys.mmap size.toNat w.fds d.miscdevFd (id * sys.pageSize) w.space

/-- How a Lock with `*ppDma` null can end. -/
inductive LockResult (sys : LockSys) (hDev : Addr) (ppBuf : Option Addr) (size : UInt32)
    (w : World) : Except Fault (Code × Option Addr × Option Addr × World) → Prop
  | badHandle {f : Fault} (h : w.initHDevFunc hDev = .error f) :
      LockResult sys hDev ppBuf size w (.error f)
  /-- A parameter is refused, or the module locks no buffer. -/
  | refused {ret : Code} (hgrant : lockGranted sys hDev ppBuf size w = none)
      (hret : ret ≠ cronoSuccess) : LockResult sys hDev ppBuf size w (.ok (ret, ppBuf, some 0, w))
  /-- `malloc` returned `NULL`; the buffer stays locked. -/
  | noMemory {d : KernelDevice} {id : Int} {dmaHandle : UInt64}
      (hgrant : lockGranted sys hDev ppBuf size w = some (d, id, dmaHandle))
      (hmalloc : sys.malloc = 0 ∨ w.heap.get sys.malloc ≠ none) :
      LockResult sys hDev ppBuf size w (.ok (0 - enomem, ppBuf, some 0,
        { w with kernel := { w.kernel with contigLocked := insert id w.kernel.contigLocked } }))
  /-- `mmap` failed; the buffer stays locked and `*ppDma` keeps the address of
  the block, which is freed. -/
  | noMap {d : KernelDevice} {id : Int} {dmaHandle : UInt64} {w' : World}
      (hgrant : lockGranted sys hDev ppBuf size w = some (d, id, dmaHandle))
      (hne : sys.malloc ≠ 0) (hfresh : w.heap.get sys.malloc = none)
      (hmap : (contigMap sys size d id w).isOk = false)
      (hget : w'.heap.get = w.heap.get)
      (hkernel : w'.kernel = { w.kernel with contigLocked := insert id w.kernel.contigLocked }) :
      LockResult sys hDev ppBuf size w (.ok (0 - enomem, ppBuf, some sys.malloc, w'))
  | locked {d : KernelDevice} {id : Int} {dmaHandle : UInt64} {a : Addr} {space : Space}
      {w' : World} (hgrant : lockGranted sys hDev ppBuf size w = some (d, id, dmaHandle))
      (hne : sys.malloc ≠ 0) (hfresh : w.heap.get sys.malloc = none)
      (hmap : contigMap sys size d id w = .ok (a, space))
      (hget : w'.heap.get =
        Function.update w.heap.get sys.malloc (some (.contig ⟨a, size, dmaHandle, id⟩)))
      (hkernel : w'.kernel = { w.kernel with contigLocked := insert id w.kernel.contigLocked })
      (hspace : w'.space = space) (hfds : w'.fds = w.fds) :
      LockResult sys hDev ppBuf size w (.ok (cronoSuccess, some a, some sys.malloc, w'))

theorem lock_result (sys : LockSys) (hDev : Addr) (ppBuf : Option Addr) (size : UInt32)
    (w : World) :
    LockResult sys hDev ppBuf size w (dmaContigBufLock sys hDev ppBuf size (some 0) w) := by
  simp only [dmaContigBufLock, ne_eq, not_true_eq_false, ↓reduceIte, bind, Except.bind, pure,
    Except.pure]
  cases hinit : w.initHDevFunc hDev with
  | error f => exact .badHandle hinit
  | ok r =>
  cases r with
  | error ret =>
    obtain ⟨hret, hzero⟩ := initHDevFunc_error hinit
    exact .refused (lockGranted_eq_none fun d _ _ hd _ hid => absurd (hzero d hd) hid) hret
  | ok d =>
  obtain ⟨hd, hid⟩ := initHDevFunc_ok hinit
  simp only
  split
  · next hbuf => exact .refused (lockGranted_eq_none fun _ _ _ _ _ _ h => by simp_all) (by decide)
  next hbuf =>
  split
  · next hsize =>
    exact .refused (lockGranted_eq_none fun _ _ _ _ _ _ _ h => absurd hsize h) (by decide)
  next hsize =>
  split
  · next hfd =>
    refine .refused (lockGranted_eq_none fun d' _ _ hd' _ _ _ _ h => absurd ?_ h) (by decide)
    rw [hd] at hd'
    cases hd'
    exact hfd
  next hfd =>
  cases hioctl : sys.ioctl with
  | error e =>
    refine .refused (lockGranted_eq_none ?_) e.ne_zero
    intro _ _ _ _ h
    rw [hioctl] at h
    cases h
  | ok reply =>
  obtain ⟨id, dmaHandle⟩ := reply
  by_cases hfresh : id ∈ w.kernel.contigLocked
  · simp only [KernelModule.lockContig, hfresh, ↓reduceIte]
    refine .refused (lockGranted_eq_none ?_) (by decide)
    intro _ _ _ _ h _ _ _ _
    rw [hioctl] at h
    cases h
    exact hfresh
  have hgrant : lockGranted sys hDev ppBuf size w = some (d, id, dmaHandle) :=
    lockGranted_eq_some.2 ⟨hd, hioctl, hid, by cases ppBuf <;> simp_all, hsize, hfd, hfresh⟩
  simp only [KernelModule.lockContig, hfresh, ↓reduceIte]
  cases hmalloc : w.heap.malloc sys.malloc (.contig ⟨0, size, dmaHandle, id⟩) with
  | none => exact .noMemory hgrant (Heap.malloc_eq_none.1 hmalloc)
  | some heap =>
  obtain ⟨hne, hnone, hget, -⟩ := Heap.malloc_eq_some.1 hmalloc
  have hblock : (heap.get sys.malloc).isSome := by rw [hget, Function.update_self]; rfl
  simp only
  cases hmap : mmapFd sys.mmap size.toNat w.fds d.miscdevFd (id * sys.pageSize) w.space with
  | error e =>
    obtain ⟨heap', hheap'⟩ := Heap.exists_free hblock
    obtain ⟨-, hget', -⟩ := Heap.free_eq_some.1 hheap'
    simp only [World.free, hheap']
    refine .noMap hgrant hne hnone (by rw [contigMap, hmap]; rfl) ?_ rfl
    simp only [hget', hget, Function.update_idem]
    rw [← hnone, Function.update_eq_self]
  | ok r =>
    obtain ⟨a, space⟩ := r
    refine .locked hgrant hne hnone hmap ?_ rfl rfl rfl
    simp only [Heap.get_set hblock, hget, Function.update_idem]

/-! ## How an Unlock can end -/

inductive UnlockResult (hDev p : Addr) (w : World) : Except Fault (Code × World) → Prop
  | badHandle {f : Fault} (h : w.initHDevFunc hDev = .error f) : UnlockResult hDev p w (.error f)
  | badBlock {f : Fault} (hc : w.contig? p = none) : UnlockResult hDev p w (.error f)
  | refused {ret : Code} (hret : ret ≠ cronoSuccess) : UnlockResult hDev p w (.ok (ret, w))
  /-- The buffer is unlocked and the block freed, whatever `munmap` answers. -/
  | unlocked {c : DmaContig} {w' : World} (hc : w.contig? p = some c)
      (hget : w'.heap.get = Function.update w.heap.get p none)
      (hkernel : w'.kernel = w.kernel.unlockContig c.id) :
      UnlockResult hDev p w (.ok (cronoSuccess, w'))

theorem unlock_result (sys : UnlockSys) (hDev p : Addr) (w : World) :
    UnlockResult hDev p w (dmaContigBufUnlock sys hDev p w) := by
  simp only [dmaContigBufUnlock, bind, Except.bind, pure, Except.pure]
  cases hinit : w.initHDevFunc hDev with
  | error f => exact .badHandle hinit
  | ok r =>
  cases r with
  | error ret => exact .refused (initHDevFunc_error hinit).1
  | ok d =>
  simp only
  split
  · exact .refused (by decide)
  cases hc : w.contig? p with
  | none =>
    obtain ⟨f, hf⟩ : ∃ f, w.derefContig p = .error f := by
      cases hderef : w.derefContig p with
      | error f => exact ⟨f, rfl⟩
      | ok c =>
        rw [World.derefContig_eq_ok, hc] at hderef
        cases hderef
    cases hdebug : debugId sys.debug p w with
    | error f => exact .badBlock hc
    | ok =>
      simp only
      split
      · exact .refused (by decide)
      cases sys.ioctl with
      | some e => exact .refused e.ne_zero
      | none =>
        simp only [hf]
        exact .badBlock hc
  | some c =>
  have hderef := World.derefContig_eq_ok.2 hc
  have hdebug : debugId sys.debug p w = .ok () := by
    unfold debugId
    rw [hderef]
    split <;> rfl
  have hblock : (w.heap.get p).isSome := by rw [World.contig?_eq_some.1 hc]; rfl
  obtain ⟨heap, hheap⟩ := Heap.exists_free hblock
  obtain ⟨-, hget, -⟩ := Heap.free_eq_some.1 hheap
  simp only [hdebug]
  split
  · exact .refused (by decide)
  cases sys.ioctl with
  | some e => exact .refused e.ne_zero
  | none =>
  simp only [hderef, World.free]
  by_cases hunmap : sys.munmap.isNone = true
  · simp only [hunmap, ↓reduceIte, hheap]
    exact .unlocked hc hget rfl
  · simp only [hunmap, Bool.false_eq_true, ↓reduceIte, hheap]
    exact .unlocked hc hget rfl

/-! ## Runs of Lock and Unlock -/

/-- A process and the descriptors its caller got from Locks and has not
unlocked. -/
structure ContigSession where
  world : World
  live : List Addr

inductive ContigOp
  | lock (sys : LockSys) (hDev : Addr) (ppBuf : Option Addr) (dwDMABufSize : UInt32)
  | unlock (sys : UnlockSys) (hDev pDma : Addr)

namespace ContigSession

/-- A Lock is called with `*ppDma` null; a descriptor is live from a Lock to an
Unlock that return success. -/
def step (s : ContigSession) : ContigOp → Except Fault ContigSession
  | .lock sys hDev ppBuf dwDMABufSize => do
    let (ret, _, ppDma, w) ← dmaContigBufLock sys hDev ppBuf dwDMABufSize (some 0) s.world
    return ⟨w, if ret = cronoSuccess then ppDma.getD 0 :: s.live else s.live⟩
  | .unlock sys hDev pDma => do
    let (ret, w) ← dmaContigBufUnlock sys hDev pDma s.world
    return ⟨w, if ret = cronoSuccess then s.live.erase pDma else s.live⟩

/-- The caller unlocks live descriptors. -/
def Legal (s : ContigSession) : ContigOp → Prop
  | .unlock _ _ pDma => pDma ∈ s.live
  | .lock .. => True

instance (s : ContigSession) (op : ContigOp) : Decidable (s.Legal op) :=
  match op with
  | .unlock _ _ pDma => inferInstanceAs (Decidable (pDma ∈ s.live))
  | .lock .. => inferInstanceAs (Decidable True)

end ContigSession

/-- Lock gets a buffer from the module, and then no memory or no mapping. -/
def LockLeaks (sys : LockSys) (hDev : Addr) (ppBuf : Option Addr) (size : UInt32) (w : World) :
    Prop :=
  match lockGranted sys hDev ppBuf size w with
  | some (d, id, _) => sys.malloc = 0 ∨ w.heap.get sys.malloc ≠ none ∨
      (contigMap sys size d id w).isOk = false
  | none => False

instance (sys : LockSys) (hDev : Addr) (ppBuf : Option Addr) (size : UInt32) (w : World) :
    Decidable (LockLeaks sys hDev ppBuf size w) := by
  unfold LockLeaks
  split <;> infer_instance

/-- The call is no Lock that leaks. -/
def ContigSession.Keeps (s : ContigSession) : ContigOp → Prop
  | .lock sys hDev ppBuf size => ¬LockLeaks sys hDev ppBuf size s.world
  | .unlock .. => True

instance (s : ContigSession) (op : ContigOp) : Decidable (s.Keeps op) :=
  match op with
  | .lock sys hDev ppBuf size =>
    inferInstanceAs (Decidable ¬LockLeaks sys hDev ppBuf size s.world)
  | .unlock .. => inferInstanceAs (Decidable True)

/-- The sessions that calls meeting `G` lead to, from a process without live
descriptors. -/
def ContigSession.Reaches (G : ContigSession → ContigOp → Prop) (w : World)
    (s : ContigSession) : Prop :=
  Reach ContigSession.step (fun s op => s.Legal op ∧ G s op) ⟨w, []⟩ s

theorem World.contig?_congr {w w' : World} {p : Addr} (h : w'.heap.get p = w.heap.get p) :
    w'.contig? p = w.contig? p := by
  unfold World.contig?
  rw [h]

/-- What ties the descriptors of the caller to the buffers of the module. -/
structure ContigInv (live : List Addr) (w : World) : Prop where
  locked : ∀ id, id ∈ w.kernel.contigLocked ↔
    ∃ p ∈ live, ∃ c, w.contig? p = some c ∧ c.id = id
  block : ∀ p ∈ live, ∃ c, w.contig? p = some c
  nodup : live.Nodup
  inj : ∀ p ∈ live, ∀ q ∈ live, ∀ c c', w.contig? p = some c → w.contig? q = some c' →
    c.id = c'.id → p = q

/-- The id of the buffer behind the descriptor at `p`. -/
def World.contigId (w : World) (p : Addr) : Option Int := (w.contig? p).map DmaContig.id

theorem World.contigId_congr {w w' : World} {p : Addr} (h : w'.heap.get p = w.heap.get p) :
    w'.contigId p = w.contigId p := by
  rw [contigId, contigId, World.contig?_congr h]

namespace ContigInv

variable {live : List Addr} {w w' : World}

/-- The invariant is a ledger of the buffers locked. -/
theorem iff_ledger :
    ContigInv live w ↔ Ledger live w.contigId (· ∈ w.kernel.contigLocked) := by
  have hid {p : Addr} {id : Int} :
      w.contigId p = some id ↔ ∃ c, w.contig? p = some c ∧ c.id = id := Option.map_eq_some_iff
  constructor
  · intro hi
    refine ⟨?_, ?_, ?_, hi.nodup⟩
    · intro id
      simp only [hi.locked, hid]
    · intro p hp
      obtain ⟨c, hc⟩ := hi.block p hp
      exact ⟨c.id, hid.2 ⟨c, hc, rfl⟩⟩
    · intro p hp q hq he
      obtain ⟨c, hc⟩ := hi.block p hp
      obtain ⟨c', hc', heq⟩ := hid.1 (he.symm.trans (hid.2 ⟨c, hc, rfl⟩))
      exact hi.inj p hp q hq c c' hc hc' heq.symm
  · intro hl
    refine ⟨?_, ?_, hl.nodup, ?_⟩
    · intro id
      simp only [hl.held_iff, hid]
    · intro p hp
      obtain ⟨id, he⟩ := hl.has p hp
      obtain ⟨c, hc, -⟩ := hid.1 he
      exact ⟨c, hc⟩
    · intro p hp q hq c c' hc hc' he
      exact hl.inj p hp q hq ((hid.2 ⟨c, hc, he⟩).trans (hid.2 ⟨c', hc', rfl⟩).symm)

theorem lock (hi : ContigInv live w) {p : Addr} {c : DmaContig}
    (hfresh : w.heap.get p = none) (hid : c.id ∉ w.kernel.contigLocked)
    (hget : w'.heap.get = Function.update w.heap.get p (some (.contig c)))
    (hkernel : w'.kernel = { w.kernel with contigLocked := insert c.id w.kernel.contigLocked }) :
    ContigInv (p :: live) w' := by
  have hp : p ∉ live := fun hp => by
    obtain ⟨c', hc'⟩ := hi.block p hp
    rw [World.contig?_eq_some, hfresh] at hc'
    cases hc'
  rw [iff_ledger] at hi ⊢
  refine hi.acquire hp ?_ ?_ hid ?_
  · intro q hq
    have hqp : q ≠ p := fun he => hp (he ▸ hq)
    exact World.contigId_congr (by rw [hget, Function.update_of_ne hqp])
  · rw [World.contigId, World.contig?_eq_some.2 (by rw [hget, Function.update_self])]
    rfl
  · intro id
    rw [hkernel, Finset.mem_insert]

theorem unlock (hi : ContigInv live w) {p : Addr} {c : DmaContig} (hp : p ∈ live)
    (hc : w.contig? p = some c) (hget : w'.heap.get = Function.update w.heap.get p none)
    (hkernel : w'.kernel = w.kernel.unlockContig c.id) : ContigInv (live.erase p) w' := by
  have hmem (q : Addr) : q ∈ live.erase p ↔ q ≠ p ∧ q ∈ live := hi.nodup.mem_erase_iff
  rw [iff_ledger] at hi ⊢
  refine hi.release hp (by rw [World.contigId, hc]; rfl) ?_ ?_
  · intro q hq
    exact World.contigId_congr (by rw [hget, Function.update_of_ne ((hmem q).1 hq).1])
  · intro id
    rw [hkernel, KernelModule.unlockContig, Finset.mem_erase]

end ContigInv

theorem contigInv_step {s s' : ContigSession} {op : ContigOp} (hi : ContigInv s.live s.world)
    (hl : s.Legal op) (hg : s.Keeps op) (hs : s.step op = .ok s') :
    ContigInv s'.live s'.world := by
  cases op with
  | lock sys hDev ppBuf size =>
    have hr := lock_result sys hDev ppBuf size s.world
    have hgrant {d : KernelDevice} {id : Int} {dmaHandle : UInt64}
        (h : lockGranted sys hDev ppBuf size s.world = some (d, id, dmaHandle)) :
        ¬(sys.malloc = 0 ∨ s.world.heap.get sys.malloc ≠ none ∨
          (contigMap sys size d id s.world).isOk = false) := by
      simpa only [ContigSession.Keeps, LockLeaks, h] using hg
    simp only [ContigSession.step] at hs
    obtain ⟨⟨ret, buf, ppDma, w⟩, he, hs⟩ := bind_eq_ok hs
    rw [he] at hr
    cases hs
    cases hr with
    | refused _ hret => simpa [hret] using hi
    | noMemory h hmalloc => exact absurd (by tauto) (hgrant h)
    | noMap h _ _ hmap => exact absurd (Or.inr (Or.inr hmap)) (hgrant h)
    | locked h hne hfresh hmap hget hkernel hspace =>
      obtain ⟨-, -, -, -, -, -, hid⟩ := lockGranted_eq_some.1 h
      simpa using hi.lock hfresh hid hget hkernel
  | unlock sys hDev p =>
    have hr := unlock_result sys hDev p s.world
    simp only [ContigSession.step] at hs
    obtain ⟨⟨ret, w⟩, he, hs⟩ := bind_eq_ok hs
    rw [he] at hr
    cases hs
    cases hr with
    | refused hret => simpa [hret] using hi
    | unlocked hc hget hkernel => simpa using hi.unlock hl hc hget hkernel

/-- In every run without a Lock that leaks, the buffers locked in the module are
those of the live descriptors. The next Lock that returns an error leaves the
module as it was exactly when it does not leak. -/
theorem contig_accounted {w : World} {s : ContigSession} (hw : w.kernel.contigLocked = ∅)
    (hs : ContigSession.Reaches ContigSession.Keeps w s) :
    (∀ id, id ∈ s.world.kernel.contigLocked ↔
      ∃ p ∈ s.live, ∃ c, s.world.contig? p = some c ∧ c.id = id) ∧
    ∀ sys hDev ppBuf size ret buf p w',
      dmaContigBufLock sys hDev ppBuf size (some 0) s.world = .ok (ret, buf, p, w') →
      ret ≠ cronoSuccess →
      (w'.kernel = s.world.kernel ↔ ¬LockLeaks sys hDev ppBuf size s.world) := by
  have hi : ContigInv s.live s.world :=
    Reach.invariant (I := fun s => ContigInv s.live s.world)
      ⟨by simp [hw], by simp, List.nodup_nil, by simp⟩
      (fun _ _ _ hi hg hstep => contigInv_step hi hg.1 hg.2 hstep) hs
  refine ⟨hi.locked, ?_⟩
  intro sys hDev ppBuf size ret buf p w' hlock hret
  have hr := lock_result sys hDev ppBuf size s.world
  rw [hlock] at hr
  -- a buffer that was granted is new
  have hgrows {d : KernelDevice} {id : Int} {dmaHandle : UInt64} {k : KernelModule}
      (h : lockGranted sys hDev ppBuf size s.world = some (d, id, dmaHandle))
      (hk : k = { s.world.kernel with contigLocked := insert id s.world.kernel.contigLocked }) :
      k ≠ s.world.kernel := by
    obtain ⟨-, -, -, -, -, -, hid⟩ := lockGranted_eq_some.1 h
    intro he
    rw [hk] at he
    apply hid
    rw [← he]
    exact Finset.mem_insert_self ..
  cases hr with
  | refused hgrant => exact iff_of_true rfl (by simp only [LockLeaks, hgrant, not_false_eq_true])
  | noMemory hgrant hmalloc =>
    refine iff_of_false (hgrows hgrant rfl) (not_not.2 ?_)
    simp only [LockLeaks, hgrant]
    tauto
  | noMap hgrant hne hfresh hmap hget hkernel =>
    refine iff_of_false (hgrows hgrant hkernel) (not_not.2 ?_)
    simp only [LockLeaks, hgrant]
    exact Or.inr (Or.inr hmap)
  | locked => exact absurd rfl hret

/-- Lock 4096 bytes for the device at 16: the module gives buffer `id`, `malloc`
returns `p` and `mmap` answers `mmap`. -/
def ContigOp.locks (id : Int) (p : Addr) (mmap : Except Errno Addr) : ContigOp :=
  .lock ⟨false, 4096, .ok (id, 0x10000), p, mmap⟩ 16 (some 0) 4096

/-- Two buffers are locked and one of them is unlocked. -/
theorem contig_accounted_two : ∃ s, ContigSession.Reaches ContigSession.Keeps World.oneDevice s ∧
    s.live = [48] ∧ ∀ id, id ∈ s.world.kernel.contigLocked ↔
      ∃ p ∈ s.live, ∃ c, s.world.contig? p = some c ∧ c.id = id := by
  obtain ⟨s, hs, hlive⟩ : ∃ s, ContigSession.Reaches ContigSession.Keeps World.oneDevice s ∧
      s.live = [48] :=
    exists_reach_of_run [.locks 7 32 (.ok 65536), .locks 8 48 (.ok 131072),
      .unlock ⟨false, none, none⟩ 16 32] (by decide)
  exact ⟨s, hs, hlive, (contig_accounted rfl hs).1⟩

/-- `malloc` returns `NULL` after the module has locked buffer 7. -/
theorem contig_leaked : ∃ s, ContigSession.Reaches (fun _ _ => True) World.oneDevice s ∧
    s.live = [] ∧ 7 ∈ s.world.kernel.contigLocked :=
  exists_reach_of_run [.locks 7 0 (.ok 65536)] (by decide)

/-! ## Retrying a Lock -/

/-- A process that calls Lock with one variable, and whether a call has failed
in `mmap`. -/
structure RetrySession where
  world : World
  pDma : Addr
  mapFailed : Bool

structure LockCall where
  sys : LockSys
  hDev : Addr
  ppBuf : Option Addr
  dwDMABufSize : UInt32

/-- Lock gets a buffer and a block, and then no mapping. -/
def LockCall.MapFails (c : LockCall) (w : World) : Prop :=
  match lockGranted c.sys c.hDev c.ppBuf c.dwDMABufSize w with
  | some (d, id, _) => c.sys.malloc ≠ 0 ∧ w.heap.get c.sys.malloc = none ∧
      (contigMap c.sys c.dwDMABufSize d id w).isOk = false
  | none => False

instance (c : LockCall) (w : World) : Decidable (c.MapFails w) := by
  unfold LockCall.MapFails
  split <;> infer_instance

/-- The call with the variable `pDma`. -/
def LockCall.exec (c : LockCall) (pDma : Addr) (w : World) :
    Except Fault (Code × Option Addr × Option Addr × World) :=
  dmaContigBufLock c.sys c.hDev c.ppBuf c.dwDMABufSize (some pDma) w

def RetrySession.step (s : RetrySession) (c : LockCall) : Except Fault RetrySession := do
  let (_, _, ppDma, w) ← c.exec s.pDma s.world
  return ⟨w, ppDma.getD 0, s.mapFailed || decide (s.pDma = 0 ∧ c.MapFails s.world)⟩

/-- The sessions that calls lead to on a machine with pages of `pageSize` bytes,
with a variable that is null at first. -/
def RetrySession.Reachable (pageSize : Nat) (w : World) (s : RetrySession) : Prop :=
  Reach RetrySession.step (fun _ c => c.sys.pageSize = pageSize) ⟨w, 0, false⟩ s

/-- `p` points to the descriptor of a buffer that is locked and mapped: from the
file open as the misc device of a device, at the page of the buffer's id. -/
def LiveBuffer (pageSize : Nat) (p : Addr) (w : World) : Prop :=
  ∃ c, w.contig? p = some c ∧ c.id ∈ w.kernel.contigLocked ∧
    ∃ hDev d f, w.device? hDev = some d ∧ w.fds.file d.miscdevFd = some f ∧
      (⟨c.pUserAddr, c.dwBytes.toNat, ⟨w.fds.path f, c.id * pageSize⟩⟩ : Mapping MapSource) ∈
        w.space.maps

/-- What the variable holds: null or a buffer as long as no call failed in
`mmap`, and the address of a freed block after one did. -/
inductive RetryInv (pageSize : Nat) : RetrySession → Prop
  | null (w : World) : RetryInv pageSize ⟨w, 0, false⟩
  | live {w : World} {p : Addr} (hne : p ≠ 0) (h : LiveBuffer pageSize p w) :
      RetryInv pageSize ⟨w, p, false⟩
  | dangling {w : World} {p : Addr} (hne : p ≠ 0) (h : w.heap.get p = none) :
      RetryInv pageSize ⟨w, p, true⟩

/-- The preallocated path looks at nothing. -/
theorem LockCall.exec_preallocated (c : LockCall) {p : Addr} (hp : p ≠ 0) (w : World) :
    c.exec p w = if c.sys.debug then .error .nullDeref
      else .ok (cronoSuccess, c.ppBuf, some p, w) := by
  simp only [exec, dmaContigBufLock, ne_eq, hp, not_false_eq_true, ↓reduceIte]

/-- A Lock that gets a buffer, a block and a mapping leaves a live buffer. -/
theorem liveBuffer_of_locked {sys : LockSys} {hDev : Addr} {ppBuf : Option Addr} {size : UInt32}
    {w w' : World} {d : KernelDevice} {id : Int} {dmaHandle : UInt64} {p a : Addr} {space : Space}
    (hgrant : lockGranted sys hDev ppBuf size w = some (d, id, dmaHandle))
    (hfresh : w.heap.get p = none) (hmap : contigMap sys size d id w = .ok (a, space))
    (hget : w'.heap.get = Function.update w.heap.get p (some (.contig ⟨a, size, dmaHandle, id⟩)))
    (hkernel : w'.kernel = { w.kernel with contigLocked := insert id w.kernel.contigLocked })
    (hspace : w'.space = space) (hfds : w'.fds = w.fds) : LiveBuffer sys.pageSize p w' := by
  obtain ⟨hd, -⟩ := lockGranted_eq_some.1 hgrant
  obtain ⟨f, hf, -, hmmap⟩ := mmapFd_eq_ok hmap
  obtain ⟨-, -, hmaps, -⟩ := AddressSpace.mmap_eq_some hmmap
  have hne : hDev ≠ p := by
    rintro rfl
    rw [World.device?_eq_some, hfresh] at hd
    cases hd
  refine ⟨⟨a, size, dmaHandle, id⟩, ?_, ?_, hDev, d, f, ?_, ?_, ?_⟩
  · rw [World.contig?_eq_some, hget, Function.update_self]
  · rw [hkernel]
    exact Finset.mem_insert_self ..
  · rw [World.device?_eq_some, hget, Function.update_of_ne hne]
    exact World.device?_eq_some.1 hd
  · rw [hfds]
    exact hf
  · rw [hspace, hmaps, hfds]
    exact List.mem_cons_self

theorem retryInv_step {pageSize : Nat} {s s' : RetrySession} {c : LockCall}
    (hi : RetryInv pageSize s) (hc : c.sys.pageSize = pageSize) (hs : s.step c = .ok s') :
    RetryInv pageSize s' := by
  subst hc
  simp only [RetrySession.step] at hs
  obtain ⟨⟨ret, buf, ppDma, w'⟩, he, hs⟩ := bind_eq_ok hs
  cases hs
  -- a variable that is not null stays, and so does the process
  have hkept {p : Addr} {w : World} (hne : p ≠ 0) (h : c.exec p w = .ok (ret, buf, ppDma, w')) :
      ppDma = some p ∧ w' = w := by
    rw [c.exec_preallocated hne] at h
    split at h
    · cases h
    · cases h
      exact ⟨rfl, rfl⟩
  cases hi with
  | live hne h =>
    obtain ⟨rfl, rfl⟩ := hkept hne he
    simpa [hne] using .live hne h
  | dangling hne h =>
    obtain ⟨rfl, rfl⟩ := hkept hne he
    simpa [hne] using .dangling hne h
  | null w =>
    have hr := lock_result c.sys c.hDev c.ppBuf c.dwDMABufSize w
    simp only [LockCall.exec] at he
    rw [he] at hr
    cases hr with
    | refused hgrant => simpa [LockCall.MapFails, hgrant] using .null w'
    | noMemory hgrant hmalloc =>
      have hnot : ¬c.MapFails w := by
        simp only [LockCall.MapFails, hgrant]
        tauto
      simpa [hnot] using .null _
    | noMap hgrant hne hfresh hmap hget =>
      have hfails : c.MapFails w := by
        simp only [LockCall.MapFails, hgrant]
        exact ⟨hne, hfresh, hmap⟩
      simpa [hfails] using .dangling hne (by rw [hget]; exact hfresh)
    | locked hgrant hne hfresh hmap hget hkernel hspace hfds =>
      have hnot : ¬c.MapFails w := by
        simp only [LockCall.MapFails, hgrant, hmap, Except.isOk, Except.toBool]
        simp
      simpa [hnot] using
        .live hne (liveBuffer_of_locked hgrant hfresh hmap hget hkernel hspace hfds)

/-- In every run, success of the next call means a buffer that is locked and
mapped exactly when no call has failed in `mmap`, or the build is a debug one,
where a call after such a failure faults. -/
theorem lock_trusted_iff {pageSize : Nat} {w : World} {s : RetrySession}
    (hs : RetrySession.Reachable pageSize w s) (c : LockCall) (hc : c.sys.pageSize = pageSize) :
    (∀ buf ppDma w', c.exec s.pDma s.world = .ok (cronoSuccess, buf, ppDma, w') →
      LiveBuffer pageSize (ppDma.getD 0) w') ↔ (s.mapFailed = true → c.sys.debug = true) := by
  have hi : RetryInv pageSize s := Reach.invariant (I := RetryInv pageSize) (.null w)
    (fun _ _ _ hi hc hstep => retryInv_step hi hc hstep) hs
  subst hc
  cases hi with
  | null w =>
    refine iff_of_true ?_ (by simp)
    intro buf ppDma w' h
    have hr := lock_result c.sys c.hDev c.ppBuf c.dwDMABufSize w
    simp only [LockCall.exec] at h
    rw [h] at hr
    generalize hret : cronoSuccess = ret at hr
    cases hr with
    | refused _ hne => exact absurd hret.symm hne
    | noMemory => exact absurd hret (by decide)
    | noMap => exact absurd hret (by decide)
    | locked hgrant _ hfresh hmap hget hkernel hspace hfds =>
      exact liveBuffer_of_locked hgrant hfresh hmap hget hkernel hspace hfds
  | @live w p hne hlive =>
    refine iff_of_true ?_ (by simp)
    intro buf ppDma w' h
    rw [c.exec_preallocated hne] at h
    split at h
    · cases h
    · cases h
      exact hlive
  | @dangling w p hne hfree =>
    rw [c.exec_preallocated hne]
    cases hdebug : c.sys.debug with
    | true => simp
    | false =>
      refine iff_of_false ?_ (by simp)
      intro h
      obtain ⟨c', hc', -⟩ := h c.ppBuf (some p) w rfl
      rw [World.contig?_eq_some] at hc'
      simp only [Option.getD_some, hfree] at hc'
      cases hc'

/-- Lock 4096 bytes for the device at 16; `malloc` returns 32. -/
def LockCall.small (ioctl : Except Errno (Int × UInt64)) (mmap : Except Errno Addr) : LockCall :=
  ⟨⟨false, 4096, ioctl, 32, mmap⟩, 16, some 0, 4096⟩

/-- The module refuses once; the retry succeeds, and so does a call after it. -/
theorem lock_trusted_retry : ∃ s, RetrySession.Reachable 4096 World.oneDevice s ∧ s.pDma = 32 ∧
    ∀ buf ppDma w', (LockCall.small (.ok (8, 0x20000)) (.ok 131072)).exec s.pDma s.world =
      .ok (cronoSuccess, buf, ppDma, w') → LiveBuffer 4096 (ppDma.getD 0) w' := by
  obtain ⟨s, hs, hp, hf⟩ : ∃ s, RetrySession.Reachable 4096 World.oneDevice s ∧ s.pDma = 32 ∧
      s.mapFailed = false :=
    exists_reach_of_run [.small (.error .noMem) (.ok 65536),
      .small (.ok (7, 0x10000)) (.ok 65536)] (by decide)
  exact ⟨s, hs, hp, (lock_trusted_iff hs _ rfl).2 (by simp [hf])⟩

/-- `mmap` fails; the retry succeeds and the variable points to no block. -/
theorem lock_dangling : ∃ s, RetrySession.Reachable 4096 World.oneDevice s ∧
    ∃ buf ppDma w', (LockCall.small (.ok (8, 0x20000)) (.ok 65536)).exec s.pDma s.world =
      .ok (cronoSuccess, buf, ppDma, w') ∧ ¬LiveBuffer 4096 (ppDma.getD 0) w' := by
  obtain ⟨s, hs, hp, hc⟩ : ∃ s, RetrySession.Reachable 4096 World.oneDevice s ∧ s.pDma = 32 ∧
      s.world.contig? 32 = none :=
    exists_reach_of_run [.small (.ok (7, 0x10000)) (.error .noMem)] (by decide)
  refine ⟨s, hs, some 0, some 32, s.world, ?_, ?_⟩
  · rw [hp, LockCall.exec_preallocated _ (by decide)]
    rfl
  · rintro ⟨c, hc', -⟩
    simp only [Option.getD_some, hc] at hc'
    cases hc'

end CronoPci
