import CronoPci.Model.ScatterGather
import CronoPci.Trans.Ledger
import CronoPci.Verify.Session

/-!
# Accounting for scatter/gather buffers

`sgLock_result` and `sgUnlock_result` list how the two calls can end. A Lock
that fails frees the blocks it allocated and leaves nothing locked; one that
succeeds adds a descriptor, its array of pages and one locked buffer. `SgInv`
keeps two ledgers over the live descriptors, one of the buffers locked in the
module and one of the arrays of pages.
-/

namespace CronoPci

open Posix Trans

/-! ## How a Lock can end -/

/-- The array of pages for the addresses that the module filled in. -/
def lockedPages (phys : Nat → UInt64) (n : Nat) : List DmaPage :=
  (List.range n).map fun i => ⟨phys i, 4096⟩

theorem fillPages_eq {pages : List UInt64} {page : List DmaPage} {n i : Nat}
    (hpages : pages.length = i + n) (hpage : page.length = i + n) :
    fillPages pages n i page =
      .ok (page.take i ++ (pages.drop i).map fun a => ⟨a, 4096⟩) := by
  induction n generalizing i page with
  | zero =>
    simp only [fillPages]
    rw [List.take_of_length_le (by omega), List.drop_of_length_le (by omega)]
    simp
  | succ n ih =>
    have hi : i < pages.length := by omega
    have hi' : i < page.length := by omega
    simp only [fillPages, List.getElem?_eq_getElem hi, hi', ↓reduceIte]
    rw [ih (by omega) (by rw [List.length_set]; omega), List.drop_eq_getElem_cons hi,
      List.take_add_one, List.getElem?_set_self hi', List.take_set_of_le (Nat.le_refl _)]
    simp only [Option.toList_some, List.append_assoc, List.singleton_append, List.map_cons]

theorem fillPages_range (phys : Nat → UInt64) (uninit : Nat → DmaPage) (n : Nat) :
    fillPages ((List.range n).map phys) n 0 ((List.range n).map uninit) =
      .ok (lockedPages phys n) := by
  rw [fillPages_eq (by simp) (by simp)]
  simp [lockedPages, Function.comp_def]

theorem debugPages_locked (debug : Bool) (phys : Nat → UInt64) (n : UInt32) :
    debugPages debug n (lockedPages phys n.toNat) = .ok () := by
  unfold debugPages lockedPages
  rw [if_neg]
  rw [List.length_map, List.length_range]
  omega

/-- How a Lock can end. -/
inductive SgLockResult (sys : SgLockSys) (hDev pBuf : Addr) (size : UInt32) (w : World) :
    Except Fault (Code × Option Addr × World) → Prop
  | badHandle {f : Fault} (h : w.initHDevFunc hDev = .error f) :
      SgLockResult sys hDev pBuf size w (.error f)
  /-- What was allocated is freed again, and nothing is locked. -/
  | failed {ret : Code} {p : Option Addr} {heap : Heap Block} (hret : ret ≠ cronoSuccess)
      (hget : heap.get = w.heap.get) :
      SgLockResult sys hDev pBuf size w (.ok (ret, p, { w with heap }))
  | locked {c : DmaSg} {phys : Nat → UInt64} {heap : Heap Block} (hsize : size ≠ 0)
      (hc : c.pUserAddr = pBuf ∧ c.dwPages = divRoundUp size sys.pageSize)
      (hdma : w.heap.get sys.mallocDma = none) (hpage : w.heap.get c.page = none)
      (hne : c.page ≠ sys.mallocDma) (hnull : c.page ≠ 0) (hid : c.id ∉ w.kernel.sgLocked)
      (hget : heap.get = Function.update (Function.update w.heap.get sys.mallocDma (some (.sg c)))
        c.page (some (.pages (lockedPages phys c.dwPages.toNat)))) :
      SgLockResult sys hDev pBuf size w (.ok (cronoSuccess, some sys.mallocDma,
        { w with heap, kernel := { w.kernel with sgLocked := insert c.id w.kernel.sgLocked } }))

theorem lockSg_eq_ok {k k' : KernelModule} {reply : Except Errno (Int × (Nat → UInt64))} {id : Int}
    {phys : Nat → UInt64} (h : k.lockSg reply = .ok (id, phys, k')) :
    id ∉ k.sgLocked ∧ k' = { k with sgLocked := insert id k.sgLocked } := by
  unfold KernelModule.lockSg at h
  split at h
  · cases h
  · split at h
    · cases h
    · next hid =>
      cases h
      exact ⟨hid, rfl⟩

theorem sgLock_result (sys : SgLockSys) (hDev pBuf : Addr) (size : UInt32) (ppDma : Option Addr)
    (w : World) : SgLockResult sys hDev pBuf size w (dmaSgBufLock sys hDev pBuf size ppDma w) := by
  have hsame {ret : Code} {p : Option Addr} (hret : ret ≠ cronoSuccess) :
      SgLockResult sys hDev pBuf size w (.ok (ret, p, w)) :=
    .failed hret (show w.heap.get = w.heap.get from rfl)
  simp only [dmaSgBufLock, bind, Except.bind, pure, Except.pure]
  cases hinit : w.initHDevFunc hDev with
  | error f => exact .badHandle hinit
  | ok r =>
  cases r with
  | error ret => exact hsame (initHDevFunc_error hinit).1
  | ok d =>
  simp only
  split
  · exact hsame (by decide)
  split
  · exact hsame (by decide)
  split
  · exact hsame (by decide)
  next hsize =>
  split
  · exact hsame (by decide)
  cases hdma : w.heap.malloc sys.mallocDma
      (.sg ⟨pBuf, divRoundUp size sys.pageSize, 0, 0⟩) with
  | none => exact hsame (by decide)
  | some heap₁ =>
  obtain ⟨hdma0, hdmaNone, hget₁, -⟩ := Heap.malloc_eq_some.1 hdma
  simp only
  cases hpage : heap₁.malloc sys.mallocPage
      (.pages ((List.range (divRoundUp size sys.pageSize).toNat).map sys.uninitPage)) with
  | none =>
    obtain ⟨heap, hfree, hget⟩ := World.exists_free (w := { w with heap := heap₁ })
      (p := sys.mallocDma) (by simp [hget₁])
    simp only [hfree]
    refine .failed (by decide) ?_
    rw [hget, hget₁, Function.update_idem, ← hdmaNone, Function.update_eq_self]
  | some heap₂ =>
  obtain ⟨hpage0, hpageNone, hget₂, -⟩ := Heap.malloc_eq_some.1 hpage
  have hne : sys.mallocPage ≠ sys.mallocDma := by
    intro he
    rw [hget₁, he, Function.update_self] at hpageNone
    cases hpageNone
  rw [hget₁, Function.update_of_ne hne] at hpageNone
  -- the descriptor and its array of pages
  generalize hheap₃ : heap₂.set sys.mallocDma
    (.sg ⟨pBuf, divRoundUp size sys.pageSize, sys.mallocPage, 0⟩) = heap₃
  have hget₃ (x : Addr) : heap₃.get x =
      if x = sys.mallocDma then
        some (.sg ⟨pBuf, divRoundUp size sys.pageSize, sys.mallocPage, 0⟩)
      else if x = sys.mallocPage then some (.pages
        ((List.range (divRoundUp size sys.pageSize).toNat).map sys.uninitPage))
      else w.heap.get x := by
    rw [← hheap₃, Heap.get_set (by simp [hget₂, hget₁, Function.update_of_ne hne.symm]), hget₂,
      hget₁]
    simp only [Function.update_apply]
    split <;> simp_all
  simp only [hheap₃]
  cases hpages : heap₃.malloc sys.mallocPages
      (.physAddrs ((List.range (divRoundUp size sys.pageSize).toNat).map sys.uninitPages)) with
  | none =>
    obtain ⟨heap₄, hfree₄, hget₄⟩ := World.exists_free (w := { w with heap := heap₃ })
      (p := sys.mallocPage) (by simp [hget₃, hne])
    obtain ⟨heap₅, hfree₅, hget₅⟩ := World.exists_free (w := { w with heap := heap₄ })
      (p := sys.mallocDma) (by simp [hget₄, hget₃, hne.symm])
    simp only [hfree₄, hfree₅]
    refine .failed (by decide) ?_
    funext x
    simp only [hget₅, hget₄, Function.update_apply, hget₃]
    split_ifs <;> simp_all
  | some heap₄ =>
  obtain ⟨hpages0, hpagesNone, hget₄, -⟩ := Heap.malloc_eq_some.1 hpages
  have hqa : sys.mallocPages ≠ sys.mallocDma := by
    intro he
    rw [hget₃, if_pos he] at hpagesNone
    cases hpagesNone
  have hqb : sys.mallocPages ≠ sys.mallocPage := by
    intro he
    rw [hget₃, if_neg hqa, if_pos he] at hpagesNone
    cases hpagesNone
  rw [hget₃, if_neg hqa, if_neg hqb] at hpagesNone
  simp only
  cases hlock : w.kernel.lockSg sys.ioctl with
  | error e =>
    obtain ⟨heap₅, hfree₅, hget₅⟩ := World.exists_free (w := { w with heap := heap₄ })
      (p := sys.mallocPage) (by simp [hget₄, hget₃, hne, hqb.symm])
    obtain ⟨heap₆, hfree₆, hget₆⟩ := World.exists_free (w := { w with heap := heap₅ })
      (p := sys.mallocDma) (by simp [hget₅, hget₄, hget₃, hne.symm, hqa.symm])
    obtain ⟨heap₇, hfree₇, hget₇⟩ := World.exists_free (w := { w with heap := heap₆ })
      (p := sys.mallocPages) (by simp [hget₆, hget₅, hget₄, hqa, hqb])
    simp only [hfree₅, hfree₆, hfree₇]
    refine .failed e.ne_zero ?_
    funext x
    simp only [hget₇, hget₆, hget₅, hget₄, Function.update_apply, hget₃]
    split_ifs <;> simp_all
  | ok r =>
  obtain ⟨id, phys, kernel⟩ := r
  obtain ⟨hid, rfl⟩ := lockSg_eq_ok hlock
  simp only [fillPages_range, debugPages_locked]
  generalize hheap₅ : (heap₄.set sys.mallocDma
      (.sg ⟨pBuf, divRoundUp size sys.pageSize, sys.mallocPage, id⟩)).set sys.mallocPage
      (.pages (lockedPages phys (divRoundUp size sys.pageSize).toNat)) = heap₅
  have hget₅ : heap₅.get = Function.update (Function.update heap₄.get sys.mallocDma
      (some (.sg ⟨pBuf, divRoundUp size sys.pageSize, sys.mallocPage, id⟩))) sys.mallocPage
      (some (.pages (lockedPages phys (divRoundUp size sys.pageSize).toNat))) := by
    rw [← hheap₅, Heap.get_set, Heap.get_set]
    · simp [hget₄, hget₃, hqa.symm]
    · rw [Heap.get_set_ne hne]
      simp [hget₄, hget₃, hne, hqb.symm]
  obtain ⟨heap₆, hfree₆, hget₆⟩ := World.exists_free
    (w := { w with
      heap := heap₅
      kernel := { w.kernel with sgLocked := insert id w.kernel.sgLocked } })
    (p := sys.mallocPages) (by simp [hget₅, hget₄, hqa, hqb])
  simp only [hfree₆]
  have hget : heap₆.get = Function.update (Function.update w.heap.get sys.mallocDma
      (some (.sg ⟨pBuf, divRoundUp size sys.pageSize, sys.mallocPage, id⟩))) sys.mallocPage
      (some (.pages (lockedPages phys (divRoundUp size sys.pageSize).toNat))) := by
    funext x
    simp only [hget₆, hget₅, hget₄, Function.update_apply, hget₃]
    split_ifs <;> simp_all
  exact .locked (c := ⟨pBuf, divRoundUp size sys.pageSize, sys.mallocPage, id⟩) hsize ⟨rfl, rfl⟩
    hdmaNone hpageNone hne hpage0 hid hget

/-! ## How an Unlock can end -/

/-- How an Unlock of the descriptor `c` at `p` can end. -/
inductive SgUnlockResult (hDev p : Addr) (c : DmaSg) (w : World) :
    Except Fault (Code × World) → Prop
  | badHandle {f : Fault} (h : w.initHDevFunc hDev = .error f) :
      SgUnlockResult hDev p c w (.error f)
  | failed {ret : Code} (hret : ret ≠ cronoSuccess) : SgUnlockResult hDev p c w (.ok (ret, w))
  | unlocked {heap : Heap Block}
      (hget : heap.get = Function.update (Function.update w.heap.get c.page none) p none) :
      SgUnlockResult hDev p c w (.ok (cronoSuccess,
        { w with heap, kernel := { w.kernel with sgLocked := w.kernel.sgLocked.erase c.id } }))

theorem sgUnlock_result (sys : SgUnlockSys) (hDev : Addr) {p : Addr} {c : DmaSg}
    {page : List DmaPage} {w : World} (hc : w.sg? p = some c)
    (hpage : w.pages? c.page = some page) :
    SgUnlockResult hDev p c w (dmaSgBufUnlock sys hDev p w) := by
  have hderef := World.derefSg_eq_ok.2 hc
  have hdebug : debugSgId sys.debug p w = .ok () := by
    unfold debugSgId
    rw [hderef]
    split <;> rfl
  rw [World.sg?_eq_some] at hc
  rw [World.pages?_eq_some] at hpage
  have hp : p ≠ 0 := Heap.ne_zero_of_get hc
  have hnull : c.page ≠ 0 := Heap.ne_zero_of_get hpage
  have hne : c.page ≠ p := by
    intro he
    rw [he, hc] at hpage
    cases hpage
  simp only [dmaSgBufUnlock, bind, Except.bind, pure, Except.pure]
  cases hinit : w.initHDevFunc hDev with
  | error f => exact .badHandle hinit
  | ok r =>
  cases r with
  | error ret => exact .failed (initHDevFunc_error hinit).1
  | ok d =>
  simp only [hp, hnull, ne_eq, not_false_eq_true, ↓reduceIte, hdebug, hderef]
  split
  · exact .failed (by decide)
  cases sys.ioctl with
  | some e => exact .failed e.ne_zero
  | none =>
  obtain ⟨heap, hfree, hget⟩ := World.exists_free
    (w := { w with kernel := w.kernel.unlockSg c.id }) (p := c.page) (by simp [hpage])
  have hblock : (heap.get p).isSome := by simp [hget, hne.symm, hc]
  obtain ⟨heap', hfree', hget'⟩ := World.exists_free
    (w := { w with
      kernel := w.kernel.unlockSg c.id
      heap := heap.set p (.sg { c with page := 0 }) })
    (p := p) (by simp [Heap.get_set_self hblock])
  simp only [hfree, Except.map, hfree']
  refine .unlocked ?_
  rw [hget', Heap.get_set hblock, hget, Function.update_idem]

/-! ## Runs of Lock and Unlock -/

/-- A process and the descriptors its caller got from Locks and has not
unlocked. -/
structure SgSession where
  world : World
  live : List Addr

inductive SgOp
  | lock (sys : SgLockSys) (hDev pBuf : Addr) (dwDMABufSize : UInt32) (ppDma : Option Addr)
  | unlock (sys : SgUnlockSys) (hDev pDma : Addr)

/-- The handle that the call is given. -/
def SgOp.hDev : SgOp → Addr
  | .lock _ hDev .. => hDev
  | .unlock _ hDev _ => hDev

namespace SgSession

/-- A descriptor is live from a Lock to an Unlock that return success. -/
def step (s : SgSession) : SgOp → Except Fault SgSession
  | .lock sys hDev pBuf dwDMABufSize ppDma => do
    let (ret, p, w) ← dmaSgBufLock sys hDev pBuf dwDMABufSize ppDma s.world
    return ⟨w, if ret = cronoSuccess then p.getD 0 :: s.live else s.live⟩
  | .unlock sys hDev pDma => do
    let (ret, w) ← dmaSgBufUnlock sys hDev pDma s.world
    return ⟨w, if ret = cronoSuccess then s.live.erase pDma else s.live⟩

/-- The caller unlocks live descriptors. -/
def Legal (s : SgSession) : SgOp → Prop
  | .unlock _ _ pDma => pDma ∈ s.live
  | .lock .. => True

instance (s : SgSession) (op : SgOp) : Decidable (s.Legal op) :=
  match op with
  | .unlock _ _ pDma => inferInstanceAs (Decidable (pDma ∈ s.live))
  | .lock .. => inferInstanceAs (Decidable True)

/-- The sessions that calls lead to, from a process without live descriptors. -/
def Reachable (w : World) (s : SgSession) : Prop := Reach step Legal ⟨w, []⟩ s

end SgSession

/-- The resource of kind `res` behind the descriptor at `p`. -/
def World.sgHas {ρ : Type} (w : World) (res : DmaSg → ρ) (p : Addr) : Option ρ :=
  (w.sg? p).map res

theorem World.sg?_congr {w w' : World} {p : Addr} (h : w'.heap.get p = w.heap.get p) :
    w'.sg? p = w.sg? p := by
  unfold World.sg?
  rw [h]

/-- What ties the live descriptors to the process and the module, both compared
with the start `w₀` of the run. -/
structure SgInv (w₀ : World) (live : List Addr) (w : World) : Prop where
  ids : Ledger live (w.sgHas DmaSg.id) fun id =>
    id ∈ w.kernel.sgLocked ∧ id ∉ w₀.kernel.sgLocked
  pages : Ledger live (w.sgHas DmaSg.page) fun a =>
    (w.pages? a).isSome ∧ w₀.heap.get a = none
  descriptors : ∀ a, (w.sg? a).isSome ∧ w₀.heap.get a = none ↔ a ∈ live
  /-- Every new block is a descriptor or an array of pages. -/
  kinds : ∀ a, (w.heap.get a).isSome → w₀.heap.get a = none →
    (w.sg? a).isSome ∨ (w.pages? a).isSome
  keptBlocks : ∀ a, (w₀.heap.get a).isSome → w.heap.get a = w₀.heap.get a
  keptIds : w₀.kernel.sgLocked ⊆ w.kernel.sgLocked

namespace SgInv

variable {w₀ w w' : World} {live : List Addr}

theorem start (w : World) : SgInv w [] w where
  ids := .nil (by simp)
  pages := .nil fun a => by
    rintro ⟨ha, hnone⟩
    obtain ⟨ps, hps⟩ := Option.isSome_iff_exists.1 ha
    rw [World.pages?_eq_some, hnone] at hps
    cases hps
  descriptors a := by
    simp only [List.not_mem_nil, iff_false, not_and]
    intro ha hnone
    obtain ⟨c, hc⟩ := Option.isSome_iff_exists.1 ha
    rw [World.sg?_eq_some, hnone] at hc
    cases hc
  kinds a ha hnone := by
    rw [hnone] at ha
    cases ha
  keptBlocks _ _ := rfl
  keptIds := Finset.Subset.refl _

/-- A block that is not in use was not in use at the start. -/
theorem fresh (hi : SgInv w₀ live w) {a : Addr} (ha : w.heap.get a = none) :
    w₀.heap.get a = none := by
  by_contra hne
  have hkept := hi.keptBlocks a (Option.isSome_iff_ne_none.2 hne)
  exact hne (hkept.symm.trans ha)

/-- The descriptor and the array of pages behind a live address. -/
theorem block (hi : SgInv w₀ live w) {p : Addr} (hp : p ∈ live) :
    ∃ c page, w.sg? p = some c ∧ w.pages? c.page = some page := by
  obtain ⟨a, ha⟩ := hi.pages.has p hp
  obtain ⟨c, hc, rfl⟩ := Option.map_eq_some_iff.1 ha
  obtain ⟨hpage, -⟩ := (hi.pages.held_iff c.page).2 ⟨p, hp, ha⟩
  obtain ⟨page, hpage⟩ := Option.isSome_iff_exists.1 hpage
  exact ⟨c, page, hc, hpage⟩

/-- The same blocks and the same buffers. -/
theorem same (hi : SgInv w₀ live w) (hget : w'.heap.get = w.heap.get)
    (hkernel : w'.kernel = w.kernel) : SgInv w₀ live w' := by
  have hsg (p : Addr) : w'.sg? p = w.sg? p := World.sg?_congr (congrFun hget p)
  have hpages (p : Addr) : w'.pages? p = w.pages? p := by
    unfold World.pages?
    rw [hget]
  refine ⟨hi.ids.congr (fun p _ => ?_) fun id => ?_, hi.pages.congr (fun p _ => ?_) fun a => ?_,
    ?_, ?_, ?_, ?_⟩
  · rw [World.sgHas, World.sgHas, hsg]
  · rw [hkernel]
  · rw [World.sgHas, World.sgHas, hsg]
  · rw [hpages]
  · intro a
    rw [hsg]
    exact hi.descriptors a
  · intro a
    rw [hget, hsg, hpages]
    exact hi.kinds a
  · intro a
    rw [hget]
    exact hi.keptBlocks a
  · rw [hkernel]
    exact hi.keptIds

/-- A new descriptor with its array of pages and its buffer. -/
theorem lock (hi : SgInv w₀ live w) {p : Addr} {c : DmaSg} {page : List DmaPage}
    (hp : w.heap.get p = none) (hpage : w.heap.get c.page = none) (hne : c.page ≠ p)
    (hid : c.id ∉ w.kernel.sgLocked)
    (hget : w'.heap.get = Function.update (Function.update w.heap.get p (some (.sg c))) c.page
      (some (.pages page)))
    (hkernel : w'.kernel = { w.kernel with sgLocked := insert c.id w.kernel.sgLocked }) :
    SgInv w₀ (p :: live) w' := by
  have hplive : p ∉ live := fun h => by
    obtain ⟨c', -, hc', -⟩ := hi.block h
    rw [World.sg?_eq_some, hp] at hc'
    cases hc'
  have hsg (a : Addr) : w'.sg? a = if a = p then some c else w.sg? a := by
    simp only [World.sg?, hget, Function.update_apply]
    split_ifs <;> simp_all
  have hpages (a : Addr) : w'.pages? a = if a = c.page then some page else w.pages? a := by
    simp only [World.pages?, hget, Function.update_apply]
    split_ifs <;> simp_all
  have hold {ρ : Type} (res : DmaSg → ρ) (q : Addr) (hq : q ∈ live) :
      w'.sgHas res q = w.sgHas res q := by
    rw [World.sgHas, World.sgHas, hsg, if_neg]
    intro he
    exact hplive (he ▸ hq)
  have hnew {ρ : Type} (res : DmaSg → ρ) : w'.sgHas res p = some (res c) := by
    rw [World.sgHas, hsg, if_pos rfl]
    rfl
  refine ⟨hi.ids.acquire hplive (hold _) (hnew _) (fun h => hid h.1) ?_,
    hi.pages.acquire hplive (hold _) (hnew _) ?_ ?_, ?_, ?_, ?_, ?_⟩
  · intro id
    simp only [hkernel, Finset.mem_insert]
    constructor
    · rintro ⟨rfl | h, h₀⟩
      · exact Or.inl rfl
      · exact Or.inr ⟨h, h₀⟩
    · rintro (rfl | ⟨h, h₀⟩)
      · exact ⟨Or.inl rfl, fun h₀ => hid (hi.keptIds h₀)⟩
      · exact ⟨Or.inr h, h₀⟩
  · rintro ⟨h, -⟩
    obtain ⟨ps, hps⟩ := Option.isSome_iff_exists.1 h
    rw [World.pages?_eq_some, hpage] at hps
    cases hps
  · intro a
    rw [hpages]
    by_cases ha : a = c.page
    · simp [ha, hi.fresh hpage]
    · simp [ha]
  · intro a
    rw [hsg, List.mem_cons, ← hi.descriptors]
    by_cases ha : a = p
    · simp [ha, hi.fresh hp]
    · simp [ha]
  · intro a ha h₀
    rw [hsg, hpages]
    by_cases hap : a = p
    · simp [hap]
    by_cases hac : a = c.page
    · simp [hac]
    rw [if_neg hap, if_neg hac]
    apply hi.kinds a _ h₀
    rwa [hget, Function.update_of_ne hac, Function.update_of_ne hap] at ha
  · intro a ha
    have hap : a ≠ p := fun he => by rw [he, hi.fresh hp] at ha; cases ha
    have hac : a ≠ c.page := fun he => by rw [he, hi.fresh hpage] at ha; cases ha
    rw [hget, Function.update_of_ne hac, Function.update_of_ne hap]
    exact hi.keptBlocks a ha
  · rw [hkernel]
    exact hi.keptIds.trans (Finset.subset_insert ..)

/-- A live descriptor goes with its array of pages and its buffer. -/
theorem unlock (hi : SgInv w₀ live w) {p : Addr} {c : DmaSg} {page : List DmaPage} (hp : p ∈ live)
    (hc : w.sg? p = some c) (hpage : w.pages? c.page = some page)
    (hget : w'.heap.get = Function.update (Function.update w.heap.get c.page none) p none)
    (hkernel : w'.kernel = { w.kernel with sgLocked := w.kernel.sgLocked.erase c.id }) :
    SgInv w₀ (live.erase p) w' := by
  have hmem (q : Addr) : q ∈ live.erase p ↔ q ≠ p ∧ q ∈ live := hi.ids.nodup.mem_erase_iff
  have hcget := World.sg?_eq_some.1 hc
  have hpget := World.pages?_eq_some.1 hpage
  have hsg (a : Addr) : w'.sg? a = if a = p then none else w.sg? a := by
    simp only [World.sg?, hget, Function.update_apply]
    split_ifs <;> simp_all
  have hpages (a : Addr) : w'.pages? a = if a = c.page then none else w.pages? a := by
    simp only [World.pages?, hget, Function.update_apply]
    split_ifs <;> simp_all
  have hold {ρ : Type} (res : DmaSg → ρ) (q : Addr) (hq : q ∈ live.erase p) :
      w'.sgHas res q = w.sgHas res q := by
    rw [World.sgHas, World.sgHas, hsg, if_neg ((hmem q).1 hq).1]
  have hhas {ρ : Type} (res : DmaSg → ρ) : w.sgHas res p = some (res c) := by
    rw [World.sgHas, hc]
    rfl
  refine ⟨hi.ids.release hp (hhas _) (hold _) ?_, hi.pages.release hp (hhas _) (hold _) ?_, ?_,
    ?_, ?_, ?_⟩
  · intro id
    simp only [hkernel, Finset.mem_erase, and_assoc]
  · intro a
    rw [hpages]
    by_cases ha : a = c.page <;> simp [ha]
  · intro a
    rw [hsg, hmem, ← hi.descriptors]
    by_cases ha : a = p <;> simp [ha]
  · intro a ha h₀
    rw [hget] at ha
    have hap : a ≠ p := fun he => by simp [he] at ha
    rw [Function.update_of_ne hap] at ha
    have hac : a ≠ c.page := fun he => by simp [he] at ha
    rw [Function.update_of_ne hac] at ha
    rw [hsg, hpages, if_neg hap, if_neg hac]
    exact hi.kinds a ha h₀
  · intro a ha
    have hap : a ≠ p := fun he => by
      rw [he, ((hi.descriptors p).2 hp).2] at ha
      cases ha
    have hac : a ≠ c.page := fun he => by
      rw [he, ((hi.pages.held_iff c.page).2 ⟨p, hp, hhas _⟩).2] at ha
      cases ha
    rw [hget, Function.update_of_ne hap, Function.update_of_ne hac]
    exact hi.keptBlocks a ha
  · rw [hkernel]
    intro id hid
    refine Finset.mem_erase.2 ⟨?_, hi.keptIds hid⟩
    intro he
    exact ((hi.ids.held_iff c.id).2 ⟨p, hp, hhas _⟩).2 (he ▸ hid)

end SgInv

theorem sgInv_step {w₀ : World} {s s' : SgSession} {op : SgOp} (hi : SgInv w₀ s.live s.world)
    (hl : s.Legal op) (hs : s.step op = .ok s') : SgInv w₀ s'.live s'.world := by
  cases op with
  | lock sys hDev pBuf size ppDma =>
    have hr := sgLock_result sys hDev pBuf size ppDma s.world
    simp only [SgSession.step] at hs
    obtain ⟨⟨ret, p, w⟩, he, hs⟩ := bind_eq_ok hs
    rw [he] at hr
    cases hs
    cases hr with
    | @failed _ _ heap hret hget =>
      have hsame : SgInv w₀ s.live { s.world with heap } := hi.same hget rfl
      simpa [hret] using hsame
    | locked _ _ hdma hpage hne _ hid hget => simpa using hi.lock hdma hpage hne hid hget rfl
  | unlock sys hDev p =>
    obtain ⟨c, page, hc, hpage⟩ := hi.block hl
    have hr := sgUnlock_result sys hDev hc hpage
    simp only [SgSession.step] at hs
    obtain ⟨⟨ret, w⟩, he, hs⟩ := bind_eq_ok hs
    rw [he] at hr
    cases hs
    cases hr with
    | failed hret => simpa [hret] using hi
    | unlocked hget => simpa using hi.unlock hl hc hpage hget rfl

theorem sgInv_reachable {w : World} {s : SgSession} (hs : SgSession.Reachable w s) :
    SgInv w s.live s.world :=
  Reach.invariant (I := fun s => SgInv w s.live s.world) (.start w)
    (fun _ _ _ hi hl hstep => sgInv_step hi hl hstep) hs

theorem initHDevFunc_fault {w : World} {p : Addr} {f : Fault} (h : w.initHDevFunc p = .error f)
    (a : Addr) : f ≠ .badFree a := by
  unfold World.initHDevFunc at h
  split at h
  · cases h
  · cases hd : w.derefDevice p with
    | ok d =>
      rw [hd] at h
      simp only [bind, Except.bind, pure, Except.pure] at h
      split at h <;> cases h
    | error f' =>
      rw [hd] at h
      cases h
      unfold World.derefDevice at hd
      split at hd
      · cases hd
        simp
      · split at hd
        · cases hd
        · cases hd
          simp

/-- Calls on live descriptors fault only on the device handle. -/
theorem sgStep_fault {w₀ : World} {s : SgSession} {op : SgOp} {f : Fault}
    (hi : SgInv w₀ s.live s.world) (hl : s.Legal op) (hs : s.step op = .error f) :
    s.world.initHDevFunc op.hDev = .error f := by
  cases op with
  | lock sys hDev pBuf size ppDma =>
    have hr := sgLock_result sys hDev pBuf size ppDma s.world
    simp only [SgSession.step] at hs
    cases he : dmaSgBufLock sys hDev pBuf size ppDma s.world with
    | ok r =>
      rw [he] at hs
      cases hs
    | error f' =>
      rw [he] at hs hr
      cases hs
      cases hr with
      | badHandle h => exact h
  | unlock sys hDev p =>
    obtain ⟨c, page, hc, hpage⟩ := hi.block hl
    have hr := sgUnlock_result sys hDev hc hpage
    simp only [SgSession.step] at hs
    cases he : dmaSgBufUnlock sys hDev p s.world with
    | ok r =>
      rw [he] at hs
      cases hs
    | error f' =>
      rw [he] at hs hr
      cases hs
      cases hr with
      | badHandle h => exact h

/-- In every reachable session, what the module holds locked and what is
allocated, beyond the start of the run, are the buffers of the live descriptors
and the descriptors with their arrays of pages. A call never frees a block that
is not allocated, and an Unlock that fails changes nothing. -/
theorem sg_accounted {w : World} {s : SgSession} (hs : SgSession.Reachable w s) :
    (∀ id, id ∈ s.world.kernel.sgLocked ∧ id ∉ w.kernel.sgLocked ↔
      ∃ p ∈ s.live, ∃ c, s.world.sg? p = some c ∧ c.id = id) ∧
    (∀ a, (s.world.heap.get a).isSome ∧ w.heap.get a = none ↔
      ∃ p ∈ s.live, ∃ c, s.world.sg? p = some c ∧ (a = p ∨ a = c.page)) ∧
    (∀ p ∈ s.live, ∀ q ∈ s.live, ∀ c c', s.world.sg? p = some c → s.world.sg? q = some c' →
      c.id = c'.id ∨ c.page = c'.page → p = q) ∧
    (∀ op f, s.Legal op → s.step op = .error f →
      s.world.initHDevFunc op.hDev = .error f ∧ ∀ a, f ≠ .badFree a) ∧
    ∀ p ∈ s.live, ∀ sys hDev ret w', dmaSgBufUnlock sys hDev p s.world = .ok (ret, w') →
      ret ≠ cronoSuccess → w' = s.world := by
  have hi := sgInv_reachable hs
  have hhas {ρ : Type} (res : DmaSg → ρ) {p : Addr} {c : DmaSg} (hc : s.world.sg? p = some c) :
      s.world.sgHas res p = some (res c) := by
    rw [World.sgHas, hc]
    rfl
  refine ⟨?_, ?_, ?_, ?_, ?_⟩
  · intro id
    rw [hi.ids.held_iff]
    simp only [World.sgHas, Option.map_eq_some_iff]
  · intro a
    constructor
    · rintro ⟨ha, h₀⟩
      rcases hi.kinds a ha h₀ with hsg | hpage
      · have hlive := (hi.descriptors a).1 ⟨hsg, h₀⟩
        obtain ⟨c, hc⟩ := Option.isSome_iff_exists.1 hsg
        exact ⟨a, hlive, c, hc, Or.inl rfl⟩
      · obtain ⟨p, hp, he⟩ := (hi.pages.held_iff a).1 ⟨hpage, h₀⟩
        obtain ⟨c, hc, rfl⟩ := Option.map_eq_some_iff.1 he
        exact ⟨p, hp, c, hc, Or.inr rfl⟩
    · rintro ⟨p, hp, c, hc, rfl | rfl⟩
      · refine ⟨?_, ((hi.descriptors a).2 hp).2⟩
        rw [World.sg?_eq_some.1 hc]
        rfl
      · obtain ⟨hpage, h₀⟩ := (hi.pages.held_iff c.page).2 ⟨p, hp, hhas _ hc⟩
        obtain ⟨ps, hps⟩ := Option.isSome_iff_exists.1 hpage
        refine ⟨?_, h₀⟩
        rw [World.pages?_eq_some.1 hps]
        rfl
  · rintro p hp q hq c c' hc hc' (he | he)
    · exact hi.ids.inj p hp q hq (by rw [hhas _ hc, hhas _ hc', he])
    · exact hi.pages.inj p hp q hq (by rw [hhas _ hc, hhas _ hc', he])
  · intro op f hl hf
    have hinit := sgStep_fault hi hl hf
    exact ⟨hinit, initHDevFunc_fault hinit⟩
  · intro p hp sys hDev ret w' hunlock hret
    obtain ⟨c, page, hc, hpage⟩ := hi.block hp
    have hr := sgUnlock_result sys hDev hc hpage
    rw [hunlock] at hr
    cases hr with
    | failed => rfl
    | unlocked => exact absurd rfl hret

theorem smallPage_pos : 0 < 4096 := by decide

/-- Lock `size` bytes at 1000 for the device at 16: the blocks come from `p` on
and the module answers `ioctl`. -/
def SgOp.locks (p : Addr) (size : UInt32) (ioctl : Except Errno (Int × (Nat → UInt64))) : SgOp :=
  .lock ⟨false, 4096, smallPage_pos, ioctl, p, p + 1, p + 2, fun _ => ⟨0, 0⟩, fun _ => 0⟩ 16 1000
    size (some 0)

/-- Two buffers are locked, the module refuses a third, and one is unlocked at
the second attempt. -/
theorem sg_accounted_two : ∃ s, SgSession.Reachable World.oneDevice s ∧ s.live = [48] ∧
    ∀ id, id ∈ s.world.kernel.sgLocked ∧ id ∉ World.oneDevice.kernel.sgLocked ↔
      ∃ p ∈ s.live, ∃ c, s.world.sg? p = some c ∧ c.id = id := by
  obtain ⟨s, hs, hlive⟩ : ∃ s, SgSession.Reachable World.oneDevice s ∧ s.live = [48] :=
    exists_reach_of_run [.locks 32 4096 (.ok (7, fun _ => 0x10000)),
      .locks 48 9000 (.ok (8, fun i => .ofNat (0x20000 + 4096 * i))), .locks 64 1 (.error .noMem),
      .unlock ⟨true, some .noEnt⟩ 16 32, .unlock ⟨true, none⟩ 16 32] (by decide)
  exact ⟨s, hs, hlive, (sg_accounted hs).1⟩

end CronoPci
