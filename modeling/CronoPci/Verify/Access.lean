import CronoPci.Model.Access
import CronoPci.Verify.Mappings

/-!
# Which memory the accessors touch

The ten accessors differ in the entry they use, the size they check and the
bytes they access; `Accessor.call_result` lists how a call can end in terms of
these. A call is sound when it errs without an access or accesses its entry's
region alone, which needs a valid index and an entry that still has its
address. The entry is the one of the BAR meant only where no BAR is missing
below it.
-/

namespace CronoPci

open Posix Trans

/-! ## What the accessors have in common -/

namespace Accessor

/-- The entry of the table that the call uses. -/
def index : Accessor → Nat
  | .readAddr _ barIndex => barIndex.toNat
  | .writeAddr _ barIndex => barIndex.toNat
  | _ => 0

/-- The size in the range check. -/
def checkedSize : Accessor → UInt64
  | .writeAddr8 _ => 1
  | .writeAddr16 _ => 2
  | .writeAddr32 _ => 4
  | .writeAddr64 _ => 8
  | .writeAddr _ _ => 4
  | _ => sizeofPointer

/-- The bytes accessed. -/
def width : Accessor → Nat
  | .readAddr8 _ => 1
  | .readAddr16 _ => 2
  | .readAddr64 _ => 8
  | .writeAddr8 _ => 1
  | .writeAddr16 _ => 2
  | .writeAddr64 _ => 8
  | _ => 4

/-- The call has `NULL` for its result and checks for it. -/
def RejectsVal : Accessor → Prop
  | .readAddr8 val => val = none
  | .readAddr16 val => val = none
  | .readAddr32 val => val = none
  | .readAddr64 val => val = none
  | _ => False

/-- The call has `NULL` for its result and does not check for it. -/
def StoresNull : Accessor → Prop
  | .readAddr val _ => val = none
  | _ => False

instance (c : Accessor) : Decidable c.RejectsVal := by
  cases c <;> unfold RejectsVal <;> infer_instance

instance (c : Accessor) : Decidable c.StoresNull := by
  cases c <;> unfold StoresNull <;> infer_instance

theorem width_pos (c : Accessor) : 0 < c.width := by
  cases c <;> simp [width]

theorem width_le (c : Accessor) : c.width ≤ c.checkedSize.toNat := by
  cases c <;> simp [width, checkedSize, sizeofPointer]

theorem checkedSize_le (c : Accessor) : c.checkedSize.toNat ≤ 8 := by
  cases c <;> simp [checkedSize, sizeofPointer]

/-- Only the accessors by index use another entry than the first, and they check
four bytes at least. -/
theorem checkedSize_of_index {c : Accessor} (h : c.index ≠ 0) : 4 ≤ c.checkedSize.toNat := by
  cases c with
  | readAddr | writeAddr => simp [checkedSize, sizeofPointer]
  | _ => exact absurd rfl h

end Accessor

/-- The 64-bit sum of the range check does not wrap. -/
theorem exceedsRange_iff {dwOffset : UInt32} {size : UInt64} {desc : BarDesc}
    (hsize : size.toNat ≤ 8) :
    ExceedsRange dwOffset size desc ↔ desc.length.toNat < dwOffset.toNat + size.toNat := by
  have hoff := dwOffset.toNat_lt
  unfold ExceedsRange
  rw [gt_iff_lt, UInt64.lt_iff_toNat_lt, UInt64.toNat_add, UInt32.toNat_toUInt64,
    UInt32.toNat_toUInt64, Nat.mod_eq_of_lt (by omega)]

/-! ## How a call can end -/

/-- How a call on the device `d` can end, for the entry `idx`, the size checked,
the bytes accessed, and the treatment of a `NULL` result. -/
inductive CallResult (idx : Nat) (size : UInt64) (width : Nat) (rejects stores : Prop)
    (dwOffset : UInt32) (d : KernelDevice) (w : World) :
    Except Fault (Code × List Touch × World) → Prop
  | invalid (hid : d.dwDeviceId = 0) : CallResult idx size width rejects stores dwOffset d w
      (.ok (0 - einval, [], w))
  | noVal (hid : d.dwDeviceId ≠ 0) (hval : rejects) :
      CallResult idx size width rejects stores dwOffset d w (.ok (0 - enomem, [], w))
  | index (hid : d.dwDeviceId ≠ 0) (hval : ¬rejects) (hidx : 6 ≤ idx) :
      CallResult idx size width rejects stores dwOffset d w (.error (.barIndex idx))
  | exceeds {j : Fin 6} (hid : d.dwDeviceId ≠ 0) (hval : ¬rejects) (hj : idx = j)
      (hrange : ExceedsRange dwOffset size (d.bars.barDescs.get j)) :
      CallResult idx size width rejects stores dwOffset d w (.ok (0 - enomem, [], w))
  | unmapped {j : Fin 6} (hid : d.dwDeviceId ≠ 0) (hval : ¬rejects) (hj : idx = j)
      (hrange : ¬ExceedsRange dwOffset size (d.bars.barDescs.get j))
      (hmap : ¬w.Mapped ⟨(d.bars.barDescs.get j).userAddress + dwOffset.toNat, width⟩) :
      CallResult idx size width rejects stores dwOffset d w
        (.error (.unmapped ((d.bars.barDescs.get j).userAddress + dwOffset.toNat)))
  | nullVal {j : Fin 6} (hid : d.dwDeviceId ≠ 0) (hval : ¬rejects) (hj : idx = j)
      (hrange : ¬ExceedsRange dwOffset size (d.bars.barDescs.get j)) (hstores : stores) :
      CallResult idx size width rejects stores dwOffset d w (.error .nullDeref)
  | done {j : Fin 6} {mem : Addr → UInt8} (hid : d.dwDeviceId ≠ 0) (hval : ¬rejects)
      (hj : idx = j) (hrange : ¬ExceedsRange dwOffset size (d.bars.barDescs.get j))
      (hmap : w.Mapped ⟨(d.bars.barDescs.get j).userAddress + dwOffset.toNat, width⟩)
      (hstores : ¬stores)
      (hmem : ∀ i, ¬Touch.Covers ⟨(d.bars.barDescs.get j).userAddress + dwOffset.toNat, width⟩ i →
        mem i = w.mem i) : CallResult idx size width rejects stores dwOffset d w
        (.ok (cronoSuccess, [⟨(d.bars.barDescs.get j).userAddress + dwOffset.toNat, width⟩],
          { w with mem }))

section Calls

variable {p : Addr} {d : KernelDevice} {w : World}

theorem readAddrN_result (n : Nat) (dwOffset : UInt32) (val : Option (BitVec (8 * n)))
    (hd : w.device? p = some d) :
    CallResult 0 sizeofPointer n (val = none) False dwOffset d w
      ((readAddrN n p dwOffset val w).map fun r => (r.1, r.2.2, w)) := by
  unfold readAddrN
  rw [initHDevFunc_of_device hd]
  by_cases hid : d.dwDeviceId = 0
  · simp only [hid, ↓reduceIte, bind, Except.bind, pure, Except.pure, Except.map]
    exact .invalid hid
  simp only [hid, ↓reduceIte, bind, Except.bind, pure, Except.pure]
  cases val with
  | none => exact .noVal hid rfl
  | some v =>
    simp only [Option.isNone_some, Bool.false_eq_true, ↓reduceIte]
    split
    · next hrange => exact .exceeds (j := 0) hid (by simp) rfl hrange
    · next hrange =>
      by_cases hmap : w.Mapped ⟨(d.bars.barDescs.get 0).userAddress + dwOffset.toNat, n⟩
      · simp only [World.load, hmap, ↓reduceIte]
        exact .done (j := 0) hid (by simp) rfl hrange hmap not_false fun _ _ => rfl
      · simp only [World.load, hmap, ↓reduceIte]
        exact .unmapped (j := 0) hid (by simp) rfl hrange hmap

theorem writeAddrN_result (n : Nat) (dwOffset : UInt32) (val : BitVec (8 * n))
    (hd : w.device? p = some d) :
    CallResult 0 (.ofNat n) n False False dwOffset d w (writeAddrN n p dwOffset val w) := by
  unfold writeAddrN
  rw [initHDevFunc_of_device hd]
  by_cases hid : d.dwDeviceId = 0
  · simp only [hid, ↓reduceIte, bind, Except.bind, pure, Except.pure]
    exact .invalid hid
  simp only [hid, ↓reduceIte, bind, Except.bind, pure, Except.pure]
  split
  · next hrange => exact .exceeds (j := 0) hid not_false rfl hrange
  · next hrange =>
    by_cases hmap : w.Mapped ⟨(d.bars.barDescs.get 0).userAddress + dwOffset.toNat, n⟩
    · simp only [World.store, hmap, ↓reduceIte]
      exact .done (j := 0) hid not_false rfl hrange hmap not_false fun _ hi => if_neg hi
    · simp only [World.store, hmap, ↓reduceIte]
      exact .unmapped (j := 0) hid not_false rfl hrange hmap

theorem readAddr_result (dwOffset : UInt32) (val : Option (BitVec 32)) (barIndex : UInt32)
    (hd : w.device? p = some d) :
    CallResult barIndex.toNat sizeofPointer 4 False (val = none) dwOffset d w
      ((readAddr p dwOffset val barIndex w).map fun r => (r.1, r.2.2, w)) := by
  unfold readAddr
  rw [initHDevFunc_of_device hd]
  by_cases hid : d.dwDeviceId = 0
  · simp only [hid, ↓reduceIte, bind, Except.bind, pure, Except.pure, Except.map]
    exact .invalid hid
  simp only [hid, ↓reduceIte, bind, Except.bind, pure, Except.pure, KernelDevice.barDesc]
  by_cases hidx : barIndex.toNat < 6
  · simp only [hidx, ↓reduceDIte]
    split
    · next hrange => exact .exceeds (j := ⟨_, hidx⟩) hid not_false rfl hrange
    · next hrange =>
      by_cases hmap : w.Mapped
          ⟨(d.bars.barDescs.get ⟨barIndex.toNat, hidx⟩).userAddress + dwOffset.toNat, 4⟩
      · simp only [World.load, hmap, ↓reduceIte]
        cases val with
        | none => exact .nullVal (j := ⟨_, hidx⟩) hid not_false rfl hrange rfl
        | some v =>
          exact .done (j := ⟨_, hidx⟩) hid not_false rfl hrange hmap (by simp) fun _ _ => rfl
      · simp only [World.load, hmap, ↓reduceIte]
        exact .unmapped (j := ⟨_, hidx⟩) hid not_false rfl hrange hmap
  · simp only [hidx, ↓reduceDIte]
    exact .index hid not_false (Nat.le_of_not_lt hidx)

theorem writeAddr_result (dwOffset : UInt32) (val : BitVec 32) (barIndex : UInt32)
    (hd : w.device? p = some d) :
    CallResult barIndex.toNat 4 4 False False dwOffset d w
      (writeAddr p dwOffset val barIndex w) := by
  unfold writeAddr
  rw [initHDevFunc_of_device hd]
  by_cases hid : d.dwDeviceId = 0
  · simp only [hid, ↓reduceIte, bind, Except.bind, pure, Except.pure]
    exact .invalid hid
  simp only [hid, ↓reduceIte, bind, Except.bind, pure, Except.pure, KernelDevice.barDesc]
  by_cases hidx : barIndex.toNat < 6
  · simp only [hidx, ↓reduceDIte]
    split
    · next hrange => exact .exceeds (j := ⟨_, hidx⟩) hid not_false rfl hrange
    · next hrange =>
      by_cases hmap : w.Mapped
          ⟨(d.bars.barDescs.get ⟨barIndex.toNat, hidx⟩).userAddress + dwOffset.toNat, 4⟩
      · simp only [World.store, hmap, ↓reduceIte]
        exact .done (j := ⟨_, hidx⟩) hid not_false rfl hrange hmap not_false fun _ hi => if_neg hi
      · simp only [World.store, hmap, ↓reduceIte]
        exact .unmapped (j := ⟨_, hidx⟩) hid not_false rfl hrange hmap
  · simp only [hidx, ↓reduceDIte]
    exact .index hid not_false (Nat.le_of_not_lt hidx)

theorem Accessor.call_result (c : Accessor) (dwOffset : UInt32) (hd : w.device? p = some d) :
    CallResult c.index c.checkedSize c.width c.RejectsVal c.StoresNull dwOffset d w
      (c.call p dwOffset w) := by
  cases c with
  | readAddr8 val => exact readAddrN_result 1 dwOffset val hd
  | readAddr16 val => exact readAddrN_result 2 dwOffset val hd
  | readAddr32 val => exact readAddrN_result 4 dwOffset val hd
  | readAddr64 val => exact readAddrN_result 8 dwOffset val hd
  | writeAddr8 val => exact writeAddrN_result 1 dwOffset val hd
  | writeAddr16 val => exact writeAddrN_result 2 dwOffset val hd
  | writeAddr32 val => exact writeAddrN_result 4 dwOffset val hd
  | writeAddr64 val => exact writeAddrN_result 8 dwOffset val hd
  | readAddr val barIndex => exact readAddr_result dwOffset val barIndex hd
  | writeAddr val barIndex => exact writeAddr_result dwOffset val barIndex hd

end Calls

/-! ## Soundness -/

namespace Accessor

/-- The call returns; it errs and touches nothing, or touches bytes of the
region mapped for the filled entry that it selects and no others. -/
def Sound (c : Accessor) (p : Addr) (dwOffset : UInt32) (d : KernelDevice) (w : World) : Prop :=
  ∃ ret touched mem, c.call p dwOffset w = .ok (ret, touched, { w with mem }) ∧
    (ret = cronoSuccess → ∃ j : Fin 6, c.index = j ∧ (j : Nat) < d.bars.barCount ∧
      ∃ m ∈ w.space.maps, m.start = (d.bars.barDescs.get j).userAddress ∧
        m.len = (d.bars.barDescs.get j).length.toNat ∧ ∀ t ∈ touched, m.Covers t.addr t.width) ∧
    (ret ≠ cronoSuccess → touched = []) ∧
    ∀ i, (∀ t ∈ touched, ¬t.Covers i) → mem i = w.mem i

/-- What the code leaves to the caller: an index of the table, and, where the
range check passes, an entry that has its address and a place for the result. -/
def Guarded (c : Accessor) (dwOffset : UInt32) (d : KernelDevice) : Prop :=
  d.dwDeviceId ≠ 0 → ¬c.RejectsVal → c.index < 6 ∧ ∀ j : Fin 6, c.index = j →
    ¬ExceedsRange dwOffset c.checkedSize (d.bars.barDescs.get j) →
      (d.bars.barDescs.get j).userAddress ≠ 0 ∧ ¬c.StoresNull

instance (c : Accessor) (dwOffset : UInt32) (d : KernelDevice) :
    Decidable (c.Guarded dwOffset d) :=
  inferInstanceAs (Decidable (d.dwDeviceId ≠ 0 → ¬c.RejectsVal → c.index < 6 ∧
    ∀ j : Fin 6, c.index = j → ¬ExceedsRange dwOffset c.checkedSize (d.bars.barDescs.get j) →
      (d.bars.barDescs.get j).userAddress ≠ 0 ∧ ¬c.StoresNull))

/-- An access that passes the range check lies in the entry's region. -/
theorem covers (c : Accessor) {dwOffset : UInt32} {desc : BarDesc} {m : Mapping MapSource}
    (hrange : ¬ExceedsRange dwOffset c.checkedSize desc) (hstart : m.start = desc.userAddress)
    (hlen : m.len = desc.length.toNat) :
    m.Covers (desc.userAddress + dwOffset.toNat) c.width := by
  rw [exceedsRange_iff c.checkedSize_le] at hrange
  have := c.width_le
  constructor <;> omega

/-- No access passes the range check of an entry that is not filled. -/
theorem exceedsRange_zero (c : Accessor) (dwOffset : UInt32) :
    ExceedsRange dwOffset c.checkedSize .zero := by
  rw [exceedsRange_iff c.checkedSize_le]
  have hpos := c.width_pos
  have hle := c.width_le
  have hzero : BarDesc.zero.length.toNat = 0 := rfl
  omega

end Accessor

theorem World.mapped_of_covers {w : World} {m : Mapping MapSource} (hm : m ∈ w.space.maps)
    {t : Touch} (h : m.Covers t.addr t.width) : w.Mapped t := by
  intro k hk
  obtain ⟨hle, hle'⟩ := h
  exact ⟨m, hm, by omega, by omega⟩

theorem sound_iff_guarded {live : List Handle} {w : World} {h : Handle} {d : KernelDevice}
    (hi : BarInv live w) (hh : h ∈ live) (hd : w.device? h.addr = some d) (c : Accessor)
    (dwOffset : UInt32) : c.Sound h.addr dwOffset d w ↔ c.Guarded dwOffset d := by
  have hr := c.call_result dwOffset hd
  unfold Accessor.Sound Accessor.Guarded
  -- the region of an entry that has an address
  have hregion {j : Fin 6} (hj : (d.bars.barDescs.get j).userAddress ≠ 0)
      (hrange : ¬ExceedsRange dwOffset c.checkedSize (d.bars.barDescs.get j)) :
      ∃ m ∈ w.space.maps, m.start = (d.bars.barDescs.get j).userAddress ∧
        m.len = (d.bars.barDescs.get j).length.toNat ∧
          m.Covers ((d.bars.barDescs.get j).userAddress + dwOffset.toNat) c.width := by
    obtain ⟨m, hm, hstart, hlen⟩ := hi.mapped h hh d hd j hj
    exact ⟨m, hm, hstart, hlen, c.covers hrange hstart hlen⟩
  generalize c.call h.addr dwOffset w = r at hr
  cases hr with
  | invalid hid =>
    refine iff_of_true ⟨_, _, w.mem, rfl, fun he => absurd he (by decide), fun _ => rfl,
      fun _ _ => rfl⟩ fun hid' => absurd hid hid'
  | noVal _ hval =>
    refine iff_of_true ⟨_, _, w.mem, rfl, fun he => absurd he (by decide), fun _ => rfl,
      fun _ _ => rfl⟩ fun _ hval' => absurd hval hval'
  | index hid hval hidx =>
    refine iff_of_false ?_ ?_
    · rintro ⟨ret, touched, mem, he, -⟩
      cases he
    · intro hg
      have := (hg hid hval).1
      omega
  | @exceeds j hid hval hj hrange =>
    refine iff_of_true ⟨_, _, w.mem, rfl, fun he => absurd he (by decide), fun _ => rfl,
      fun _ _ => rfl⟩ fun _ _ => ⟨by omega, fun j' hj' hrange' => ?_⟩
    obtain rfl : j' = j := Fin.ext (hj'.symm.trans hj)
    exact absurd hrange hrange'
  | @unmapped j hid hval hj hrange hmap =>
    refine iff_of_false ?_ ?_
    · rintro ⟨ret, touched, mem, he, -⟩
      cases he
    · intro hg
      obtain ⟨m, hm, -, -, hcovers⟩ := hregion (((hg hid hval).2 j hj hrange).1) hrange
      exact hmap (World.mapped_of_covers hm hcovers)
  | @nullVal j hid hval hj hrange hstores =>
    refine iff_of_false ?_ fun hg => ((hg hid hval).2 j hj hrange).2 hstores
    rintro ⟨ret, touched, mem, he, -⟩
    cases he
  | @done j mem hid hval hj hrange hmap hstores hmem =>
    constructor
    · rintro ⟨ret, touched, mem', he, hsel, -⟩ - -
      cases he
      obtain ⟨k, hk, -, m, hm, hstart, -⟩ := hsel rfl
      refine ⟨by omega, fun j' hj' _ => ⟨?_, hstores⟩⟩
      obtain rfl : k = j' := Fin.ext (hk.symm.trans hj')
      rw [← hstart]
      exact Nat.ne_of_gt (w.space.pos m hm).1
    · intro hg
      have haddr := ((hg hid hval).2 j hj hrange).1
      obtain ⟨m, hm, hstart, hlen, hcovers⟩ := hregion haddr hrange
      refine ⟨_, _, mem, rfl, fun _ => ⟨j, hj, ?_, m, hm, hstart, hlen, ?_⟩,
        fun hne => absurd rfl hne, fun i hi' => hmem i (hi' _ (List.mem_singleton_self _))⟩
      · by_contra hge
        rw [hi.tail h hh d hd j (by omega)] at haddr
        exact haddr rfl
      · intro t ht
        rw [List.mem_singleton.1 ht]
        exact hcovers

/-- In every reachable session, a call of an accessor on a live device is sound
exactly when it is guarded. -/
theorem accessor_sound_iff {w : World} {s : Session} {h : Handle} (hw : w.Initial)
    (hs : Session.Reachable w s) (hh : h ∈ s.live) (c : Accessor) (dwOffset : UInt32) :
    ∃ d, s.world.device? h.addr = some d ∧
      (c.Sound h.addr dwOffset d s.world ↔ c.Guarded dwOffset d) := by
  obtain ⟨d, hd⟩ := (regInv_reaches hw hs).device h hh
  exact ⟨d, hd, sound_iff_guarded (barInv_reaches hw hs) hh hd c dwOffset⟩

/-- A read of the first BAR at offset 8. -/
theorem accessor_sound_mapped : ∃ s, Session.Reachable World.boot s ∧
    ∃ d, s.world.device? 16 = some d ∧
      (Accessor.readAddr32 (some 0)).Sound 16 8 d s.world := by
  obtain ⟨s, hs, hlive, hg⟩ : ∃ s, Session.Reachable World.boot s ∧ ⟨16, 5⟩ ∈ s.live ∧
      ∀ d ∈ s.world.device? 16, (Accessor.readAddr32 (some 0)).Guarded 8 d :=
    exists_reach_of_run [.opensBar 1 16] (by decide)
  obtain ⟨d, hd, hiff⟩ :=
    accessor_sound_iff World.boot_initial hs hlive (.readAddr32 (some 0)) 8
  exact ⟨s, hs, d, hd, hiff.2 (hg d hd)⟩

/-- Entry 6 of the table of six. -/
theorem barIndex_unchecked : ∃ s, Session.Reachable World.boot s ∧ ⟨16, 5⟩ ∈ s.live ∧
    (Accessor.readAddr (some 0) 6).call 16 0 s.world = .error (.barIndex 6) := by
  obtain ⟨s, hs, hlive, hfault⟩ : ∃ s, Session.Reachable World.boot s ∧ ⟨16, 5⟩ ∈ s.live ∧
      faultIn ((Accessor.readAddr (some 0) 6).call 16 0 s.world) = some (.barIndex 6) :=
    exists_reach_of_run [.opensBar 1 16] (by decide)
  exact ⟨s, hs, hlive, faultIn_eq_some.1 hfault⟩

end CronoPci
