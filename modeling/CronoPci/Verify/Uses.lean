import CronoPci.Model.Config
import CronoPci.Model.Scan
import CronoPci.Verify.Contig
import CronoPci.Verify.Memory
import CronoPci.Verify.ScatterGather

/-!
# Runs of calls of every kind

A `Client` is a session together with the scatter/gather descriptors that its
caller holds, and a `Use` is a call: on the registry, a scan, an access to a BAR
or to the configuration space, a lock or unlock of a DMA buffer. The functions
left out only read the device or hand it commands. Each `Use` says which blocks
it releases (`Use.Releases`), and every other block in use stays as it is. From
this follow the invariant of all runs, and that a live handle keeps the device
it was opened for until it is closed.
-/

namespace CronoPci

open Posix Trans

/-! ## Calls outside the registry -/

/-- A call that leaves the registry and the blocks in use as they are, but for
those of `own`. -/
structure Spares (own : Addr → Prop) (w w' : World) : Prop where
  reg : w'.reg = w.reg
  get : ∀ a b, w.heap.get a = some b → ¬own a → w'.heap.get a = some b

namespace Spares

variable {own : Addr → Prop} {w w' : World}

theorem same (hreg : w'.reg = w.reg) (hget : w'.heap.get = w.heap.get) : Spares own w w' :=
  ⟨hreg, fun a b h _ => by rw [hget, h]⟩

/-- A block that was not in use gets contents. -/
theorem fresh {p : Addr} {b : Option Block} (hreg : w'.reg = w.reg) (hp : w.heap.get p = none)
    (hget : w'.heap.get = Function.update w.heap.get p b) : Spares own w w' := by
  refine ⟨hreg, ?_⟩
  intro a b' ha _
  have hne : a ≠ p := fun he => by rw [he, hp] at ha; cases ha
  rw [hget, Function.update_of_ne hne, ha]

end Spares

theorem World.free_reg {w w' : World} {p : Addr} (h : w.free p = .ok w') : w'.reg = w.reg := by
  unfold World.free at h
  split at h <;> cases h
  rfl

theorem map_eq_ok {α β : Type} {x : Except Fault α} {f : α → β} {b : β}
    (h : x.map f = .ok b) : ∃ a, x = .ok a ∧ f a = b := by
  cases x with
  | error e => cases h
  | ok a =>
    cases h
    exact ⟨a, rfl, rfl⟩

section Memory

variable {w w' : World} {p : Addr} {dwOffset : UInt32} {ret : Code}

theorem World.store_mem {a : Addr} {n : Nat} {v : BitVec (8 * n)} (h : w.store a n v = .ok w') :
    ∃ mem, w' = { w with mem } := by
  unfold World.store at h
  split at h
  · cases h
    exact ⟨_, rfl⟩
  · cases h

theorem writeAddrN_mem {n : Nat} {val : BitVec (8 * n)} {touched : List Touch}
    (h : writeAddrN n p dwOffset val w = .ok (ret, touched, w')) : ∃ mem, w' = { w with mem } := by
  obtain ⟨r, -, h⟩ := bind_eq_ok h
  split at h
  · cases h
    exact ⟨_, rfl⟩
  simp only at h
  split at h
  · cases h
    exact ⟨_, rfl⟩
  · obtain ⟨w₁, hstore, h⟩ := bind_eq_ok h
    cases h
    exact World.store_mem hstore

theorem writeAddr_mem {val : BitVec 32} {barIndex : UInt32} {touched : List Touch}
    (h : writeAddr p dwOffset val barIndex w = .ok (ret, touched, w')) :
    ∃ mem, w' = { w with mem } := by
  obtain ⟨r, -, h⟩ := bind_eq_ok h
  split at h
  · cases h
    exact ⟨_, rfl⟩
  obtain ⟨desc, -, h⟩ := bind_eq_ok h
  split at h
  · cases h
    exact ⟨_, rfl⟩
  · obtain ⟨w₁, hstore, h⟩ := bind_eq_ok h
    cases h
    exact World.store_mem hstore

theorem Accessor.exec_mem (c : Accessor) {val : Option Nat}
    (h : c.exec p dwOffset w = .ok (ret, val, w')) : ∃ mem, w' = { w with mem } := by
  cases c with
  | readAddr8 | readAddr16 | readAddr32 | readAddr64 | readAddr =>
    obtain ⟨r, -, h⟩ := map_eq_ok h
    cases h
    exact ⟨_, rfl⟩
  | writeAddr8 | writeAddr16 | writeAddr32 | writeAddr64 =>
    obtain ⟨r, hr, h⟩ := map_eq_ok h
    cases h
    exact writeAddrN_mem hr
  | writeAddr =>
    obtain ⟨r, hr, h⟩ := map_eq_ok h
    cases h
    exact writeAddr_mem hr

end Memory

section Calls

variable {w w' : World} {hDev : Addr} {ret : Code}

theorem pciScanDevices_spares {sys : ScanSys} {dwVendorId dwDeviceId : UInt32}
    {res res' : Option ScanResult}
    (h : pciScanDevices sys dwVendorId dwDeviceId res w = .ok (ret, res', w')) :
    Spares (fun _ => False) w w' := by
  unfold pciScanDevices at h
  split at h
  · cases h
    exact .same rfl rfl
  split at h
  · cases h
    exact .same rfl rfl
  split at h
  · cases h
    exact .same rfl rfl
  · obtain ⟨⟨res, fds⟩, -, h⟩ := bind_eq_ok h
    cases h
    exact .same rfl rfl

theorem pciReadCfg32_spares {sys : CfgSys} {dwOffset : UInt32} {val val' : Option UInt32}
    (h : pciReadCfg32 sys hDev dwOffset val w = .ok (ret, val', w')) :
    Spares (fun _ => False) w w' := by
  obtain ⟨r, -, h⟩ := bind_eq_ok h
  simp only [pure, Except.pure] at h
  repeat' split at h
  all_goals
    cases h
    exact .same rfl rfl

theorem pciWriteCfg32_spares {sys : CfgSys} {dwOffset val : UInt32}
    {content : List Char → Nat → UInt8}
    (h : pciWriteCfg32 sys hDev dwOffset val w = .ok (ret, content, w')) :
    Spares (fun _ => False) w w' := by
  obtain ⟨r, -, h⟩ := bind_eq_ok h
  simp only [pure, Except.pure] at h
  repeat' split at h
  all_goals
    cases h
    exact .same rfl rfl

/-- An accessor changes bytes of device memory at most. -/
theorem Access.exec_spares {a : Access} {val : Option Nat} (h : a.exec w = .ok (ret, val, w')) :
    Spares (fun _ => False) w w' := by
  obtain ⟨mem, rfl⟩ := a.call.exec_mem h
  exact .same rfl rfl

theorem dmaContigBufLock_spares {sys : LockSys} {ppBuf buf ppDma p : Option Addr} {size : UInt32}
    (h : dmaContigBufLock sys hDev ppBuf size ppDma w = .ok (ret, buf, p, w')) :
    Spares (fun _ => False) w w' := by
  have hreg : w'.reg = w.reg := by
    unfold dmaContigBufLock at h
    split at h
    · cases h
      rfl
    split at h
    · split at h <;> cases h
      rfl
    obtain ⟨r, -, h⟩ := bind_eq_ok h
    simp only [bind, Except.bind, pure, Except.pure] at h
    repeat' split at h
    all_goals
      cases h <;> first
        | rfl
        | have hfree := World.free_reg ‹World.free _ _ = .ok _›; exact hfree
  match ppDma with
  | none =>
    cases h
    exact .same rfl rfl
  | some q =>
    by_cases hq : q = 0
    · subst hq
      have hr := lock_result sys hDev ppBuf size w
      rw [h] at hr
      cases hr with
      | refused => exact .same rfl rfl
      | noMemory => exact .same hreg rfl
      | noMap _ _ _ _ hget => exact .same hreg hget
      | locked _ _ hfresh _ hget => exact .fresh hreg hfresh hget
    · simp only [dmaContigBufLock, ne_eq, hq, not_false_eq_true, ↓reduceIte] at h
      split at h <;> cases h
      exact .same rfl rfl

/-- Unlock frees a descriptor of a contiguous buffer, and nothing else. -/
theorem dmaContigBufUnlock_spares {sys : UnlockSys} {p : Addr}
    (h : dmaContigBufUnlock sys hDev p w = .ok (ret, w')) :
    Spares (fun a => a = p ∧ (w.contig? p).isSome) w w' := by
  have hreg : w'.reg = w.reg := by
    obtain ⟨r, -, h⟩ := bind_eq_ok h
    simp only [bind, Except.bind, pure, Except.pure] at h
    repeat' split at h
    all_goals
      cases h <;> first
        | rfl
        | have hfree := World.free_reg ‹World.free _ _ = .ok _›; rw [hfree]; split <;> rfl
  have hr := unlock_result sys hDev p w
  rw [h] at hr
  cases hr with
  | refused => exact .same rfl rfl
  | @unlocked c _ hc hget =>
    refine ⟨hreg, ?_⟩
    intro a b ha hown
    have hne : a ≠ p := fun he => hown ⟨he, by rw [hc]; rfl⟩
    rw [hget, Function.update_of_ne hne, ha]

theorem dmaSgBufLock_spares {sys : SgLockSys} {pBuf : Addr} {size : UInt32} {ppDma p : Option Addr}
    (h : dmaSgBufLock sys hDev pBuf size ppDma w = .ok (ret, p, w')) :
    Spares (fun _ => False) w w' := by
  have hr := sgLock_result sys hDev pBuf size ppDma w
  rw [h] at hr
  cases hr with
  | failed _ hget => exact .same rfl hget
  | locked _ _ hdma hpage hne _ _ hget =>
    refine ⟨rfl, ?_⟩
    intro a b ha _
    have hap : a ≠ sys.mallocDma := fun he => by rw [he, hdma] at ha; cases ha
    have hac : a ≠ _ := fun he => by rw [he, hpage] at ha; cases ha
    rw [hget, Function.update_of_ne hac, Function.update_of_ne hap, ha]

/-- Unlock frees a descriptor and its array of pages. -/
theorem dmaSgBufUnlock_spares {sys : SgUnlockSys} {p : Addr} {c : DmaSg} {page : List DmaPage}
    (hc : w.sg? p = some c) (hpage : w.pages? c.page = some page)
    (h : dmaSgBufUnlock sys hDev p w = .ok (ret, w')) :
    Spares (fun a => a = p ∨ a = c.page) w w' := by
  have hr := sgUnlock_result sys hDev hc hpage
  rw [h] at hr
  cases hr with
  | failed => exact .same rfl rfl
  | unlocked hget =>
    refine ⟨rfl, ?_⟩
    intro a b ha hown
    simp only [not_or] at hown
    rw [hget, Function.update_of_ne hown.1, Function.update_of_ne hown.2, ha]

end Calls

/-! ## Registry calls -/

/-- The handles whose blocks a call may change, of those that are live. -/
def Op.handles (live : List Handle) : Op → List Handle
  | .openDev .. => []
  | .closeDev _ h => [h]
  | .getBars _ h => [h]
  | .unload => live

section Registry

variable {s s' : Session} {op : Op}

theorem Session.live_of_handles (hl : s.Legal op) {h : Handle} (hh : h ∈ op.handles s.live) :
    h ∈ s.live := by
  cases op with
  | openDev => simp [Op.handles] at hh
  | closeDev | getBars =>
    obtain rfl := List.mem_singleton.1 hh
    exact hl
  | unload => exact hh

/-- A registry call leaves the blocks of other handles as they are. -/
theorem Session.step_get (hi : RegInv s.live s.world) (hl : s.Legal op)
    (hs : s.step op = .ok s') {a : Addr} {b : Block} (ha : s.world.heap.get a = some b)
    (hown : ∀ h ∈ op.handles s.live, a ≠ h.addr) : s'.world.heap.get a = some b := by
  cases op with
  | openDev sys slot =>
    cases step_openDev hs with
    | nothing => exact ha
    | dropped hdrop => rw [hdrop.get, ha]
    | opened hv hopened =>
      have hne : a ≠ sys.malloc := fun he => by rw [he, hv.fresh] at ha; cases ha
      rw [hopened.get, Function.update_of_ne hne, ha]
  | closeDev munmap h =>
    have hne : a ≠ h.addr := hown h List.mem_cons_self
    obtain ⟨d, hd⟩ := hi.device h hl
    obtain ⟨ret, w, hc, hor⟩ := step_closeDev hs
    have hr := pciDeviceClose_result munmap hd hi.distinct
    rw [hc] at hr
    rcases hor with ⟨-, rfl⟩ | ⟨-, rfl⟩ <;>
      exact (hr.get_ne hne).trans ha
  | getBars sys h =>
    have hne : a ≠ h.addr := hown h List.mem_cons_self
    obtain ⟨d, hd⟩ := hi.device h hl
    obtain ⟨w, rfl, rfl | ⟨ret, hends⟩⟩ := step_getBars hd hs
    · exact ha
    · obtain ⟨bars, hret⟩ := hends.retabled hd
      rw [hret.get, Function.update_of_ne hne, ha]
  | unload =>
    obtain ⟨as, w, hw, hfreed, -, hmem⟩ := hi.onUnload
    simp only [Session.step, Session.unload, hw] at hs
    cases hs
    have hout : a ∉ as := fun hin => by
      obtain ⟨h0, hhold⟩ := (hmem a).1 hin
      obtain ⟨h, hh, rfl⟩ := hi.registered a h0 hhold
      exact hown h hh rfl
    rw [hfreed.get, if_neg hout, ha]

/-- A handle that stays live keeps its device, up to the table of BARs. -/
theorem Session.step_device (hi : RegInv s.live s.world) (hl : s.Legal op)
    (hs : s.step op = .ok s') {h : Handle} {d : KernelDevice} (hh : h ∈ s.live)
    (hh' : h ∈ s'.live) (hd : s.world.device? h.addr = some d) :
    ∃ bars, s'.world.device? h.addr = some { d with bars } := by
  have hother (hown : h ∉ op.handles s.live) :
      ∃ bars, s'.world.device? h.addr = some { d with bars } := by
    refine ⟨d.bars, World.device?_eq_some.2 ?_⟩
    apply Session.step_get hi hl hs (World.device?_eq_some.1 hd)
    intro h' hin he
    rw [hi.addr_inj hh (Session.live_of_handles hl hin) he] at hown
    exact hown hin
  cases op with
  | openDev => exact hother (by simp [Op.handles])
  | closeDev munmap h' =>
    by_cases he : h = h'
    · subst he
      obtain ⟨ret, w, hc, hor⟩ := step_closeDev hs
      have hr := pciDeviceClose_result munmap hd hi.distinct
      rw [hc] at hr
      rcases hor with ⟨-, rfl⟩ | ⟨hret, rfl⟩
      · exact absurd rfl (hi.mem_erase.1 hh').1
      · obtain ⟨bars, hbars⟩ := hr.retabled hd hret
        exact ⟨bars, by rw [World.device?_update hbars.get, if_pos rfl]⟩
    · exact hother (by simpa [Op.handles] using he)
  | getBars sys h' =>
    by_cases he : h = h'
    · subst he
      obtain ⟨w, rfl, rfl | ⟨ret, hends⟩⟩ := step_getBars hd hs
      · exact ⟨d.bars, hd⟩
      · obtain ⟨bars, hbars⟩ := hends.retabled hd
        exact ⟨bars, by rw [World.device?_update hbars.get, if_pos rfl]⟩
    · exact hother (by simpa [Op.handles] using he)
  | unload =>
    obtain ⟨as, w, -, -, rfl⟩ := step_unload hi hs
    simp at hh'

end Registry

/-! ## Clients -/

/-- A session and the scatter/gather descriptors that its caller got from Locks
and has not unlocked. -/
structure Client where
  session : Session
  sgs : List Addr

/-- A call, with the system's answers to it. -/
inductive Use
  | registry (op : Op)
  | scan (sys : ScanSys) (dwVendorId dwDeviceId : UInt32) (res : Option ScanResult)
  | access (a : Access)
  | readCfg (sys : CfgSys) (hDev : Addr) (dwOffset : UInt32) (val : Option UInt32)
  | writeCfg (sys : CfgSys) (hDev : Addr) (dwOffset val : UInt32)
  | lockContig (sys : LockSys) (hDev : Addr) (ppBuf : Option Addr) (dwDMABufSize : UInt32)
      (ppDma : Option Addr)
  | unlockContig (sys : UnlockSys) (hDev pDma : Addr)
  | lockSg (sys : SgLockSys) (hDev pBuf : Addr) (dwDMABufSize : UInt32) (ppDma : Option Addr)
  | unlockSg (sys : SgUnlockSys) (hDev pDma : Addr)

namespace Client

def world (c : Client) : World := c.session.world

def live (c : Client) : List Handle := c.session.live

def setWorld (c : Client) (w : World) : Client :=
  { c with session := { c.session with world := w } }

def step (c : Client) : Use → Except Fault Client
  | .registry op => do
    let s ← c.session.step op
    return { c with session := s }
  | .scan sys dwVendorId dwDeviceId res => do
    let (_, _, w) ← pciScanDevices sys dwVendorId dwDeviceId res c.world
    return c.setWorld w
  | .access a => do
    let (_, _, w) ← a.exec c.world
    return c.setWorld w
  | .readCfg sys hDev dwOffset val => do
    let (_, _, w) ← pciReadCfg32 sys hDev dwOffset val c.world
    return c.setWorld w
  | .writeCfg sys hDev dwOffset val => do
    let (_, _, w) ← pciWriteCfg32 sys hDev dwOffset val c.world
    return c.setWorld w
  | .lockContig sys hDev ppBuf dwDMABufSize ppDma => do
    let (_, _, _, w) ← dmaContigBufLock sys hDev ppBuf dwDMABufSize ppDma c.world
    return c.setWorld w
  | .unlockContig sys hDev pDma => do
    let (_, w) ← dmaContigBufUnlock sys hDev pDma c.world
    return c.setWorld w
  | .lockSg sys hDev pBuf dwDMABufSize ppDma => do
    let (ret, p, w) ← dmaSgBufLock sys hDev pBuf dwDMABufSize ppDma c.world
    return { c.setWorld w with sgs := if ret = cronoSuccess then p.getD 0 :: c.sgs else c.sgs }
  | .unlockSg sys hDev pDma => do
    let (ret, w) ← dmaSgBufUnlock sys hDev pDma c.world
    return { c.setWorld w with sgs := if ret = cronoSuccess then c.sgs.erase pDma else c.sgs }

/-- The caller passes live handles to Close and to the description of BARs, and
unlocks scatter/gather descriptors that it holds. -/
def Legal (c : Client) : Use → Prop
  | .registry op => c.session.Legal op
  | .unlockSg _ _ pDma => pDma ∈ c.sgs
  | _ => True

/-- The client of a process that has not called the library. -/
def start (w : World) : Client := ⟨.start w, []⟩

/-- The clients of all runs. -/
def Reachable (w : World) (c : Client) : Prop := Reach step Legal (start w) c

/-- The clients that calls lead to from `c`, each made while `h` is live. -/
def ReachesHolding (h : Handle) (c t : Client) : Prop :=
  Reach step (fun c u => c.Legal u ∧ h ∈ c.live) c t

end Client

/-! ## The invariant of all runs -/

/-- A descriptor held has its array of pages, which is no other's. -/
structure SgHeld (sgs : List Addr) (w : World) : Prop where
  block : ∀ p ∈ sgs, ∃ c page, w.sg? p = some c ∧ w.pages? c.page = some page
  inj : ∀ p ∈ sgs, ∀ q ∈ sgs, ∀ c c', w.sg? p = some c → w.sg? q = some c' → c.page = c'.page →
    p = q
  nodup : sgs.Nodup

theorem World.pages?_congr {w w' : World} {p : Addr} (h : w'.heap.get p = w.heap.get p) :
    w'.pages? p = w.pages? p := by
  unfold World.pages?
  rw [h]

namespace SgHeld

variable {sgs : List Addr} {w w' : World}

/-- What a call does not touch stays. -/
theorem frame (hi : SgHeld sgs w) {sgs' : List Addr} (hsub : sgs'.Sublist sgs)
    (hkept : ∀ p ∈ sgs', ∀ c, w.sg? p = some c →
      w'.heap.get p = w.heap.get p ∧ w'.heap.get c.page = w.heap.get c.page) : SgHeld sgs' w' := by
  have hsg (p : Addr) (hp : p ∈ sgs') : w'.sg? p = w.sg? p := by
    obtain ⟨c, -, hc, -⟩ := hi.block p (hsub.subset hp)
    exact World.sg?_congr (hkept p hp c hc).1
  refine ⟨?_, ?_, hi.nodup.sublist hsub⟩
  · intro p hp
    obtain ⟨c, page, hc, hpage⟩ := hi.block p (hsub.subset hp)
    exact ⟨c, page, by rw [hsg p hp, hc], by rw [World.pages?_congr (hkept p hp c hc).2, hpage]⟩
  · intro p hp q hq c c' hc hc'
    rw [hsg p hp] at hc
    rw [hsg q hq] at hc'
    exact hi.inj p (hsub.subset hp) q (hsub.subset hq) c c' hc hc'

/-- A call that leaves descriptors and arrays of pages alone. -/
theorem kept (hi : SgHeld sgs w)
    (hget : ∀ a b, w.heap.get a = some b → (∀ d, b ≠ .device d) → (∀ d, b ≠ .contig d) →
      w'.heap.get a = some b) : SgHeld sgs w' := by
  apply hi.frame (List.Sublist.refl sgs)
  intro p hp c hc
  obtain ⟨c', page, hc', hpage⟩ := hi.block p hp
  obtain rfl : c = c' := Option.some.inj (hc.symm.trans hc')
  rw [World.sg?_eq_some] at hc
  rw [World.pages?_eq_some] at hpage
  rw [hc, hpage]
  exact ⟨hget p _ hc (by simp) (by simp), hget c.page _ hpage (by simp) (by simp)⟩

/-- A new descriptor comes with a new array of pages. -/
theorem lock (hi : SgHeld sgs w) {p : Addr} {c : DmaSg} {page : List DmaPage}
    (hp : w.heap.get p = none) (hpage : w.heap.get c.page = none) (hne : c.page ≠ p)
    (hget : w'.heap.get = Function.update (Function.update w.heap.get p (some (.sg c))) c.page
      (some (.pages page))) : SgHeld (p :: sgs) w' := by
  have hsg : w'.sg? p = some c := by
    rw [World.sg?_eq_some, hget, Function.update_of_ne hne.symm, Function.update_self]
  have hpages : w'.pages? c.page = some page := by
    rw [World.pages?_eq_some, hget, Function.update_self]
  have hused (a : Addr) (ha : w.heap.get a ≠ none) : w'.heap.get a = w.heap.get a := by
    have hap : a ≠ p := fun he => ha (he ▸ hp)
    have hac : a ≠ c.page := fun he => ha (he ▸ hpage)
    rw [hget, Function.update_of_ne hac, Function.update_of_ne hap]
  -- the descriptors held, with their arrays, were in use
  have hold : SgHeld sgs w' := by
    apply hi.frame (List.Sublist.refl sgs)
    intro q hq c' hc'
    obtain ⟨c'', page', hc'', hpage'⟩ := hi.block q hq
    obtain rfl : c' = c'' := Option.some.inj (hc'.symm.trans hc'')
    exact ⟨hused q (by simp [World.sg?_eq_some.1 hc']),
      hused c'.page (by simp [World.pages?_eq_some.1 hpage'])⟩
  have hdiff {q : Addr} (hq : q ∈ sgs) {c' : DmaSg} (hc' : w'.sg? q = some c') :
      c'.page ≠ c.page := by
    obtain ⟨c'', page', hc'', hpage'⟩ := hi.block q hq
    have hget' := hused q (by simp [World.sg?_eq_some.1 hc''])
    rw [World.sg?_congr hget', hc''] at hc'
    cases hc'
    intro he
    rw [World.pages?_eq_some, he, hpage] at hpage'
    cases hpage'
  refine ⟨?_, ?_, List.nodup_cons.2 ⟨?_, hi.nodup⟩⟩
  · intro q hq
    rcases List.mem_cons.1 hq with rfl | hq
    · exact ⟨c, page, hsg, hpages⟩
    · exact hold.block q hq
  · intro q hq q' hq' c₁ c₂ hc₁ hc₂ he
    rcases List.mem_cons.1 hq with rfl | hlq <;> rcases List.mem_cons.1 hq' with rfl | hlq'
    · rfl
    · rw [hsg, Option.some.injEq] at hc₁
      exact absurd (by rw [← he, hc₁]) (hdiff hlq' hc₂)
    · rw [hsg, Option.some.injEq] at hc₂
      exact absurd (by rw [he, hc₂]) (hdiff hlq hc₁)
    · exact hold.inj q hlq q' hlq' c₁ c₂ hc₁ hc₂ he
  · intro hmem
    obtain ⟨c', -, hc', -⟩ := hi.block p hmem
    rw [World.sg?_eq_some, hp] at hc'
    cases hc'

/-- A descriptor goes with its array of pages. -/
theorem unlock (hi : SgHeld sgs w) {p : Addr} {c : DmaSg} {page : List DmaPage} (hp : p ∈ sgs)
    (hc : w.sg? p = some c) (hpage : w.pages? c.page = some page)
    (hget : w'.heap.get = Function.update (Function.update w.heap.get c.page none) p none) :
    SgHeld (sgs.erase p) w' := by
  rw [World.pages?_eq_some] at hpage
  apply hi.frame List.erase_sublist
  intro q hq c' hc'
  obtain ⟨hqp, hq⟩ := hi.nodup.mem_erase_iff.1 hq
  obtain ⟨c'', page', hc'', hpage'⟩ := hi.block q hq
  obtain rfl : c' = c'' := Option.some.inj (hc'.symm.trans hc'')
  have hpages : c'.page ≠ c.page := fun he => hqp (hi.inj q hq p hp c' c hc' hc he)
  rw [World.sg?_eq_some] at hc hc'
  rw [World.pages?_eq_some] at hpage'
  have hqc : q ≠ c.page := fun he => by rw [he, hpage] at hc'; cases hc'
  have hcp : c'.page ≠ p := fun he => by rw [he, hc] at hpage'; cases hpage'
  rw [hget, Function.update_of_ne hqp, Function.update_of_ne hqc, Function.update_of_ne hcp,
    Function.update_of_ne hpages]
  exact ⟨rfl, rfl⟩

end SgHeld

structure ClientInv (c : Client) : Prop where
  reg : RegInv c.live c.world
  sg : SgHeld c.sgs c.world

theorem ClientInv.start {w : World} (hw : w.Initial) : ClientInv (.start w) :=
  ⟨hw.regInv, ⟨by simp [Client.start], by simp [Client.start], List.nodup_nil⟩⟩

/-- The blocks in use that a call may change or release. -/
def Use.Releases (c : Client) : Use → Addr → Prop
  | .registry op => fun a => ∃ h ∈ op.handles c.live, a = h.addr
  | .unlockContig _ _ p => fun a => a = p ∧ (c.world.contig? p).isSome
  | .unlockSg _ _ p => fun a => a = p ∨ ∃ d, c.world.sg? p = some d ∧ a = d.page
  | _ => fun _ => False

section Steps

variable {c c' : Client} {u : Use}

/-- A call outside the registry leaves the handles and the registry as they are,
and the blocks in use but those it releases. -/
theorem use_spares (hi : ClientInv c) (hl : c.Legal u) (hs : c.step u = .ok c')
    (hu : ∀ op, u ≠ .registry op) : c'.live = c.live ∧ Spares (u.Releases c) c.world c'.world := by
  cases u with
  | registry op => exact absurd rfl (hu op)
  | scan =>
    obtain ⟨r, hr, hs⟩ := bind_eq_ok hs
    cases hs
    exact ⟨rfl, pciScanDevices_spares hr⟩
  | access =>
    obtain ⟨r, hr, hs⟩ := bind_eq_ok hs
    cases hs
    exact ⟨rfl, Access.exec_spares hr⟩
  | readCfg =>
    obtain ⟨r, hr, hs⟩ := bind_eq_ok hs
    cases hs
    exact ⟨rfl, pciReadCfg32_spares hr⟩
  | writeCfg =>
    obtain ⟨r, hr, hs⟩ := bind_eq_ok hs
    cases hs
    exact ⟨rfl, pciWriteCfg32_spares hr⟩
  | lockContig =>
    obtain ⟨r, hr, hs⟩ := bind_eq_ok hs
    cases hs
    exact ⟨rfl, dmaContigBufLock_spares hr⟩
  | unlockContig =>
    obtain ⟨r, hr, hs⟩ := bind_eq_ok hs
    cases hs
    exact ⟨rfl, dmaContigBufUnlock_spares hr⟩
  | lockSg =>
    obtain ⟨r, hr, hs⟩ := bind_eq_ok hs
    cases hs
    exact ⟨rfl, dmaSgBufLock_spares hr⟩
  | unlockSg sys hDev p =>
    obtain ⟨r, hr, hs⟩ := bind_eq_ok hs
    cases hs
    obtain ⟨d, page, hd, hpage⟩ := hi.sg.block p hl
    obtain ⟨hreg, hget⟩ := dmaSgBufUnlock_spares hd hpage hr
    refine ⟨rfl, hreg, ?_⟩
    intro a b ha hout
    apply hget a b ha
    rintro (rfl | rfl)
    · exact hout (Or.inl rfl)
    · exact hout (Or.inr ⟨d, hd, rfl⟩)

/-- What a call outside the registry releases is no device. -/
theorem Use.Releases.not_device (hi : ClientInv c) (hl : c.Legal u) (hu : ∀ op, u ≠ .registry op)
    {a : Addr} {d : KernelDevice} (hd : c.world.device? a = some d) : ¬u.Releases c a := by
  rw [World.device?_eq_some] at hd
  intro ha
  cases u with
  | registry op => exact hu op rfl
  | scan | access | readCfg | writeCfg | lockContig | lockSg => exact ha
  | unlockContig sys hDev p =>
    obtain ⟨rfl, hsome⟩ := ha
    obtain ⟨b, hb⟩ := Option.isSome_iff_exists.1 hsome
    rw [World.contig?_eq_some, hd] at hb
    cases hb
  | unlockSg sys hDev p =>
    obtain ⟨b, page, hb, hpage⟩ := hi.sg.block p hl
    rw [World.pages?_eq_some] at hpage
    rcases ha with rfl | ⟨b', hb', rfl⟩
    · rw [World.sg?_eq_some, hd] at hb
      cases hb
    · obtain rfl : b' = b := Option.some.inj (hb'.symm.trans hb)
      rw [hd] at hpage
      cases hpage

/-- A handle that stays live keeps its device, up to the table of BARs. -/
theorem use_device (hi : ClientInv c) (hl : c.Legal u) (hs : c.step u = .ok c') {h : Handle}
    {d : KernelDevice} (hh : h ∈ c.live) (hh' : h ∈ c'.live)
    (hd : c.world.device? h.addr = some d) :
    ∃ bars, c'.world.device? h.addr = some { d with bars } := by
  by_cases hu : ∃ op, u = .registry op
  · obtain ⟨op, rfl⟩ := hu
    obtain ⟨s, hstep, hs⟩ := bind_eq_ok hs
    cases hs
    exact Session.step_device hi.reg hl hstep hh hh' hd
  · have hu' (op : Op) : u ≠ .registry op := fun he => hu ⟨op, he⟩
    obtain ⟨-, -, hget⟩ := use_spares hi hl hs hu'
    refine ⟨d.bars, World.device?_eq_some.2 ?_⟩
    exact hget _ _ (World.device?_eq_some.1 hd) (Use.Releases.not_device hi hl hu' hd)

/-- Every call of a run keeps the invariant. -/
theorem use_inv (hi : ClientInv c) (hl : c.Legal u) (hs : c.step u = .ok c') : ClientInv c' := by
  have hreg : RegInv c'.live c'.world := by
    by_cases hu : ∃ op, u = .registry op
    · obtain ⟨op, rfl⟩ := hu
      obtain ⟨s, hstep, hs⟩ := bind_eq_ok hs
      cases hs
      exact regInv_step hi.reg hl hstep
    · have hu' (op : Op) : u ≠ .registry op := fun he => hu ⟨op, he⟩
      obtain ⟨hlive, hspares⟩ := use_spares hi hl hs hu'
      rw [hlive]
      refine hi.reg.frame (hspares.reg ▸ .refl _) ?_
      intro h hh
      obtain ⟨d, hd⟩ := hi.reg.device h hh
      obtain ⟨bars, hd'⟩ := use_device hi hl hs hh (hlive ▸ hh) hd
      exact ⟨_, hd'⟩
  refine ⟨hreg, ?_⟩
  cases u with
  | registry op =>
    obtain ⟨s, hstep, hs⟩ := bind_eq_ok hs
    cases hs
    apply hi.sg.kept
    intro a b ha hdevice _
    apply Session.step_get hi.reg hl hstep ha
    rintro h hh rfl
    obtain ⟨d, hd⟩ := hi.reg.device h (Session.live_of_handles hl hh)
    rw [World.device?_eq_some] at hd
    exact hdevice d (Option.some.inj (ha.symm.trans hd))
  | scan | access | readCfg | writeCfg | lockContig =>
    obtain ⟨-, -, hget⟩ := use_spares hi hl hs (by simp)
    obtain ⟨r, -, hs⟩ := bind_eq_ok hs
    cases hs
    exact hi.sg.kept fun a b ha _ _ => hget a b ha not_false
  | unlockContig sys hDev p =>
    obtain ⟨-, -, hget⟩ := use_spares hi hl hs (by simp)
    obtain ⟨r, -, hs⟩ := bind_eq_ok hs
    cases hs
    apply hi.sg.kept
    intro a b ha _ hcontig
    apply hget a b ha
    rintro ⟨rfl, hsome⟩
    obtain ⟨d, hd⟩ := Option.isSome_iff_exists.1 hsome
    rw [World.contig?_eq_some] at hd
    exact hcontig d (Option.some.inj (ha.symm.trans hd))
  | lockSg sys hDev pBuf size ppDma =>
    have hr := sgLock_result sys hDev pBuf size ppDma c.world
    obtain ⟨⟨ret, p, w⟩, he, hs⟩ := bind_eq_ok hs
    rw [he] at hr
    cases hs
    cases hr with
    | failed hret hget =>
      rw [if_neg hret]
      exact hi.sg.kept fun a b ha _ _ => (congrFun hget a).trans ha
    | locked _ _ hdma hpage hne _ _ hget => exact hi.sg.lock hdma hpage hne hget
  | unlockSg sys hDev p =>
    obtain ⟨d, page, hd, hpage⟩ := hi.sg.block p hl
    have hr := sgUnlock_result sys hDev hd hpage
    obtain ⟨⟨ret, w⟩, he, hs⟩ := bind_eq_ok hs
    rw [he] at hr
    cases hs
    cases hr with
    | failed hret =>
      simp only [hret, ↓reduceIte]
      exact hi.sg
    | unlocked hget => exact hi.sg.unlock hl hd hpage hget

end Steps

theorem clientInv_reachable {w : World} {c : Client} (hw : w.Initial)
    (hc : Client.Reachable w c) : ClientInv c :=
  Reach.invariant (I := ClientInv) (.start hw) (fun _ _ _ hi hl hs => use_inv hi hl hs) hc

/-- A handle keeps its device, up to the table of BARs, for as long as it is
live. -/
theorem device_until_closed {c t : Client} {h : Handle} {d : KernelDevice} (hi : ClientInv c)
    (hd : c.world.device? h.addr = some d) (ht : Client.ReachesHolding h c t) (hh : h ∈ t.live) :
    ∃ bars, t.world.device? h.addr = some { d with bars } := by
  have hrun : ClientInv t ∧
      (h ∈ t.live → ∃ bars, t.world.device? h.addr = some { d with bars }) := by
    refine Reach.invariant (I := fun t => ClientInv t ∧
      (h ∈ t.live → ∃ bars, t.world.device? h.addr = some { d with bars }))
      ⟨hi, fun _ => ⟨d.bars, hd⟩⟩ ?_ ht
    rintro s s' u ⟨hi, hkept⟩ ⟨hl, hlive⟩ hs
    refine ⟨use_inv hi hl hs, ?_⟩
    intro hlive'
    obtain ⟨bars, hbars⟩ := hkept hlive
    obtain ⟨bars', hbars'⟩ := use_device hi hl hs hlive hlive' hbars
    exact ⟨bars', hbars'⟩
  exact hrun.2 hh

end CronoPci
