import CronoPci.Verify.Access

/-!
# The BARs as byte memory

Taken over a run of accessor calls, device memory is a log of the accepted
writes: each byte holds what the latest of them that covers it stored there, and
an accepted read returns these bytes. Refused calls change nothing, and no call
reaches past the entry it is made on.
-/

namespace CronoPci

open Posix Trans

/-! ## Little-endian loads and stores -/

theorem storeBytes_eq_latest (init : Addr → UInt8) (log : List ByteWrite) (a : Addr) (n v : Nat) :
    storeBytes (latest init log) a n v = latest init (⟨a, n, v⟩ :: log) := by
  funext i
  rw [latest_cons]
  rfl

/-- A store within `[lo, hi)` changes nothing outside. -/
theorem storeBytes_outside (mem : Addr → UInt8) {a n lo hi i : Nat} (v : Nat) (hlo : lo ≤ a)
    (hhi : a + n ≤ hi) (h : i < lo ∨ hi ≤ i) : storeBytes mem a n v i = mem i := by
  apply if_neg
  rintro ⟨hle, hlt⟩
  have hle' : lo ≤ i := Nat.le_trans hlo hle
  have hlt' : i < hi := Nat.lt_of_lt_of_le hlt hhi
  omega

theorem loadBytes_lt (mem : Addr → UInt8) (a : Addr) (n : Nat) :
    loadBytes mem a n < 2 ^ (8 * n) := by
  induction n generalizing a with
  | zero => simp [loadBytes]
  | succ n ih =>
    have hbyte := (mem a).toNat_lt
    have hrest := ih (a + 1)
    rw [loadBytes, Nat.mul_succ, Nat.pow_add]
    omega

/-- Byte `k` of the value loaded is the one at `a + k`. -/
theorem loadBytes_byte (mem : Addr → UInt8) (a : Addr) {n k : Nat} (hk : k < n) :
    loadBytes mem a n / 2 ^ (8 * k) % 2 ^ 8 = (mem (a + k)).toNat := by
  induction n generalizing a k with
  | zero => omega
  | succ n ih =>
    have hbyte := (mem a).toNat_lt
    cases k with
    | zero =>
      simp only [loadBytes, Nat.mul_zero, Nat.pow_zero, Nat.div_one, Nat.add_zero]
      omega
    | succ k =>
      rw [loadBytes, Nat.mul_succ, Nat.add_comm (8 * k), Nat.pow_add, ← Nat.div_div_eq_div_mul,
        show ((mem a).toNat + 2 ^ 8 * loadBytes mem (a + 1) n) / 2 ^ 8 = loadBytes mem (a + 1) n by
          omega, ih (a + 1) (by omega), Nat.add_assoc, Nat.add_comm 1 k]

/-! ## What a call does to memory -/

namespace Accessor

/-- The value that a write stores; `none` for a read. -/
def written : Accessor → Option Nat
  | .writeAddr8 val => some val.toNat
  | .writeAddr16 val => some val.toNat
  | .writeAddr32 val => some val.toNat
  | .writeAddr64 val => some val.toNat
  | .writeAddr val _ => some val.toNat
  | _ => none

/-- The entry of the table that the call uses. -/
def desc (c : Accessor) (d : KernelDevice) : BarDesc := d.bars.barDescs.toList.getD c.index .zero

/-- The address of the offset in that entry. -/
def target (c : Accessor) (d : KernelDevice) (dwOffset : UInt32) : Addr :=
  (c.desc d).userAddress + dwOffset.toNat

end Accessor

/-- How a call can end that uses the entry `desc` of `d`: `size` is the size
checked, `width` the bytes accessed and `written` the value stored. -/
inductive ExecResult (desc : BarDesc) (size : UInt64) (width : Nat) (written : Option Nat)
    (dwOffset : UInt32) (w : World) : Except Fault (Code × Option Nat × World) → Prop
  | fault {f : Fault} : ExecResult desc size width written dwOffset w (.error f)
  | refused {ret : Code} {val : Option Nat} (hret : ret ≠ cronoSuccess) :
      ExecResult desc size width written dwOffset w (.ok (ret, val, w))
  | loaded (hwritten : written = none) (hrange : ¬ExceedsRange dwOffset size desc) :
      ExecResult desc size width written dwOffset w (.ok (cronoSuccess,
        some (loadBytes w.mem (desc.userAddress + dwOffset.toNat) width), w))
  | stored {v : Nat} (hwritten : written = some v) (hrange : ¬ExceedsRange dwOffset size desc) :
      ExecResult desc size width written dwOffset w (.ok (cronoSuccess, none,
        { w with mem := storeBytes w.mem (desc.userAddress + dwOffset.toNat) width v }))

section Exec

variable {p : Addr} {d : KernelDevice} {w : World}

theorem enomem_ne_zero : (0 - enomem : Code) ≠ cronoSuccess := by decide

theorem einval_ne_zero : (0 - einval : Code) ≠ cronoSuccess := by decide

theorem readAddrN_exec (n : Nat) (dwOffset : UInt32) (val : Option (BitVec (8 * n)))
    (hd : w.device? p = some d) :
    ExecResult (d.bars.barDescs.get 0) sizeofPointer n none dwOffset w
      ((readAddrN n p dwOffset val w).map fun r => (r.1, r.2.1.map BitVec.toNat, w)) := by
  unfold readAddrN
  rw [initHDevFunc_of_device hd]
  by_cases hid : d.dwDeviceId = 0
  · simp only [hid, ↓reduceIte, bind, Except.bind, pure, Except.pure, Except.map]
    exact .refused einval_ne_zero
  simp only [hid, ↓reduceIte, bind, Except.bind, pure, Except.pure]
  split
  · exact .refused enomem_ne_zero
  split
  · exact .refused enomem_ne_zero
  next hrange =>
  by_cases hmap : w.Mapped ⟨(d.bars.barDescs.get 0).userAddress + dwOffset.toNat, n⟩
  · simp only [World.load, hmap, ↓reduceIte, Except.map, Option.map_some, BitVec.toNat_ofNat,
      Nat.mod_eq_of_lt (loadBytes_lt ..)]
    exact .loaded rfl hrange
  · simp only [World.load, hmap, ↓reduceIte]
    exact .fault

theorem writeAddrN_exec (n : Nat) (dwOffset : UInt32) (val : BitVec (8 * n))
    (hd : w.device? p = some d) :
    ExecResult (d.bars.barDescs.get 0) (.ofNat n) n (some val.toNat) dwOffset w
      ((writeAddrN n p dwOffset val w).map fun r => (r.1, none, r.2.2)) := by
  unfold writeAddrN
  rw [initHDevFunc_of_device hd]
  by_cases hid : d.dwDeviceId = 0
  · simp only [hid, ↓reduceIte, bind, Except.bind, pure, Except.pure, Except.map]
    exact .refused einval_ne_zero
  simp only [hid, ↓reduceIte, bind, Except.bind, pure, Except.pure]
  split
  · exact .refused enomem_ne_zero
  next hrange =>
  by_cases hmap : w.Mapped ⟨(d.bars.barDescs.get 0).userAddress + dwOffset.toNat, n⟩
  · simp only [World.store, hmap, ↓reduceIte]
    exact .stored rfl hrange
  · simp only [World.store, hmap, ↓reduceIte]
    exact .fault

theorem readAddr_exec (dwOffset : UInt32) (val : Option (BitVec 32)) {barIndex : UInt32}
    (hidx : barIndex.toNat < 6) (hd : w.device? p = some d) :
    ExecResult (d.bars.barDescs.get ⟨barIndex.toNat, hidx⟩) sizeofPointer 4 none dwOffset w
      ((readAddr p dwOffset val barIndex w).map fun r => (r.1, r.2.1.map BitVec.toNat, w)) := by
  unfold readAddr
  rw [initHDevFunc_of_device hd]
  by_cases hid : d.dwDeviceId = 0
  · simp only [hid, ↓reduceIte, bind, Except.bind, pure, Except.pure, Except.map]
    exact .refused einval_ne_zero
  simp only [hid, ↓reduceIte, bind, Except.bind, pure, Except.pure, KernelDevice.barDesc, hidx,
    ↓reduceDIte]
  split
  · exact .refused enomem_ne_zero
  next hrange =>
  by_cases hmap : w.Mapped
      ⟨(d.bars.barDescs.get ⟨barIndex.toNat, hidx⟩).userAddress + dwOffset.toNat, 4⟩
  · simp only [World.load, hmap, ↓reduceIte]
    cases val with
    | none => exact .fault
    | some v =>
      have hlt := loadBytes_lt w.mem
        ((d.bars.barDescs.get ⟨barIndex.toNat, hidx⟩).userAddress + dwOffset.toNat) 4
      simp only [Except.map, Option.map_some, BitVec.toNat_ofNat, Nat.mod_eq_of_lt hlt]
      exact .loaded rfl hrange
  · simp only [World.load, hmap, ↓reduceIte]
    exact .fault

theorem writeAddr_exec (dwOffset : UInt32) (val : BitVec 32) {barIndex : UInt32}
    (hidx : barIndex.toNat < 6) (hd : w.device? p = some d) :
    ExecResult (d.bars.barDescs.get ⟨barIndex.toNat, hidx⟩) 4 4 (some val.toNat) dwOffset w
      ((writeAddr p dwOffset val barIndex w).map fun r => (r.1, none, r.2.2)) := by
  unfold writeAddr
  rw [initHDevFunc_of_device hd]
  by_cases hid : d.dwDeviceId = 0
  · simp only [hid, ↓reduceIte, bind, Except.bind, pure, Except.pure, Except.map]
    exact .refused einval_ne_zero
  simp only [hid, ↓reduceIte, bind, Except.bind, pure, Except.pure, KernelDevice.barDesc, hidx,
    ↓reduceDIte]
  split
  · exact .refused enomem_ne_zero
  next hrange =>
  by_cases hmap : w.Mapped
      ⟨(d.bars.barDescs.get ⟨barIndex.toNat, hidx⟩).userAddress + dwOffset.toNat, 4⟩
  · simp only [World.store, hmap, ↓reduceIte]
    exact .stored rfl hrange
  · simp only [World.store, hmap, ↓reduceIte]
    exact .fault

end Exec

theorem getD_barDescs (d : KernelDevice) {i : Nat} (hi : i < 6) :
    d.bars.barDescs.toList.getD i .zero = d.bars.barDescs.get ⟨i, hi⟩ := by
  rw [List.getD_eq_getElem?_getD, Vector.getElem?_toList, Vector.getElem?_eq_getElem hi]
  rfl

theorem Accessor.exec_result (c : Accessor) {p : Addr} {d : KernelDevice} {w : World}
    (dwOffset : UInt32) (hidx : c.index < 6) (hd : w.device? p = some d) :
    ExecResult (c.desc d) c.checkedSize c.width c.written dwOffset w (c.exec p dwOffset w) := by
  rw [Accessor.desc, getD_barDescs d hidx]
  cases c with
  | readAddr8 val => exact readAddrN_exec 1 dwOffset val hd
  | readAddr16 val => exact readAddrN_exec 2 dwOffset val hd
  | readAddr32 val => exact readAddrN_exec 4 dwOffset val hd
  | readAddr64 val => exact readAddrN_exec 8 dwOffset val hd
  | writeAddr8 val => exact writeAddrN_exec 1 dwOffset val hd
  | writeAddr16 val => exact writeAddrN_exec 2 dwOffset val hd
  | writeAddr32 val => exact writeAddrN_exec 4 dwOffset val hd
  | writeAddr64 val => exact writeAddrN_exec 8 dwOffset val hd
  | readAddr val barIndex => exact readAddr_exec dwOffset val hidx hd
  | writeAddr val barIndex => exact writeAddr_exec dwOffset val hidx hd

/-- Without a device behind the handle, the call is refused or faults. -/
theorem Accessor.exec_no_device (c : Accessor) {p : Addr} {w w' : World} {dwOffset : UInt32}
    {ret : Code} {val : Option Nat} (hd : w.device? p = none)
    (h : c.exec p dwOffset w = .ok (ret, val, w')) : ret ≠ cronoSuccess ∧ w' = w := by
  cases hinit : w.initHDevFunc p with
  | error f =>
    cases c <;>
      simp [exec, CronoPci.readAddr8, CronoPci.readAddr16, CronoPci.readAddr32,
        CronoPci.readAddr64, CronoPci.writeAddr8, CronoPci.writeAddr16, CronoPci.writeAddr32,
        CronoPci.writeAddr64, readAddrN, writeAddrN, CronoPci.readAddr, CronoPci.writeAddr, hinit,
        bind, Except.bind, Except.map] at h
  | ok r =>
    cases r with
    | ok d =>
      rw [(initHDevFunc_ok hinit).1] at hd
      cases hd
    | error ret' =>
      have hret := (initHDevFunc_error hinit).1
      cases c <;>
        · simp only [exec, CronoPci.readAddr8, CronoPci.readAddr16, CronoPci.readAddr32,
            CronoPci.readAddr64, CronoPci.writeAddr8, CronoPci.writeAddr16, CronoPci.writeAddr32,
            CronoPci.writeAddr64, readAddrN, writeAddrN, CronoPci.readAddr, CronoPci.writeAddr,
            hinit, bind, Except.bind, Except.map, pure, Except.pure] at h
          cases h
          exact ⟨hret, rfl⟩

/-! ## Runs -/

/-- A call of an accessor. -/
structure Access where
  hDev : Addr
  dwOffset : UInt32
  call : Accessor

namespace Access

def exec (a : Access) (w : World) : Except Fault (Code × Option Nat × World) :=
  a.call.exec a.hDev a.dwOffset w

/-- What the call writes if it is an accepted write. -/
def writes (a : Access) (w : World) : List ByteWrite :=
  match w.device? a.hDev, a.call.written with
  | some d, some v => [⟨a.call.target d a.dwOffset, a.call.width, v⟩]
  | _, _ => []

end Access

/-- A process and the log of the accepted writes, the latest first. -/
structure MemSession where
  world : World
  log : List ByteWrite

namespace MemSession

def step (s : MemSession) (a : Access) : Except Fault MemSession := do
  let (ret, _, w) ← a.exec s.world
  return ⟨w, if ret = cronoSuccess then a.writes s.world ++ s.log else s.log⟩

/-- The index is one of the table. -/
def Legal (_ : MemSession) (a : Access) : Prop := a.call.index < 6

instance (s : MemSession) (a : Access) : Decidable (s.Legal a) :=
  inferInstanceAs (Decidable (_ < _))

/-- The sessions that calls lead to. -/
def Reachable (w : World) (s : MemSession) : Prop := Reach step Legal ⟨w, []⟩ s

end MemSession

theorem Access.exec_ok {a : Access} {w w' : World} {ret : Code} {val : Option Nat}
    (hidx : a.call.index < 6) (h : a.exec w = .ok (ret, val, w')) :
    (ret ≠ cronoSuccess ∧ w' = w) ∨ ret = cronoSuccess ∧ ∃ d, w.device? a.hDev = some d ∧
      ¬ExceedsRange a.dwOffset a.call.checkedSize (a.call.desc d) ∧
      ((a.call.written = none ∧ w' = w ∧
          val = some (loadBytes w.mem (a.call.target d a.dwOffset) a.call.width)) ∨
        ∃ v, a.call.written = some v ∧ w' = { w with
          mem := storeBytes w.mem (a.call.target d a.dwOffset) a.call.width v }) := by
  cases hd : w.device? a.hDev with
  | none => exact Or.inl (a.call.exec_no_device hd h)
  | some d =>
    have hr := a.call.exec_result a.dwOffset hidx hd
    rw [show a.call.exec a.hDev a.dwOffset w = .ok (ret, val, w') from h] at hr
    cases hr with
    | refused hret => exact Or.inl ⟨hret, rfl⟩
    | loaded hwritten hrange =>
      exact Or.inr ⟨rfl, d, rfl, hrange, Or.inl ⟨hwritten, rfl, rfl⟩⟩
    | stored hwritten hrange => exact Or.inr ⟨rfl, d, rfl, hrange, Or.inr ⟨_, hwritten, rfl⟩⟩

/-- Memory is what the log says. -/
theorem mem_eq_latest {w : World} {s : MemSession} (hs : MemSession.Reachable w s) :
    s.world.mem = latest w.mem s.log := by
  refine Reach.invariant (I := fun s => s.world.mem = latest w.mem s.log) rfl ?_ hs
  intro s s' a hi hl hstep
  simp only [MemSession.step] at hstep
  obtain ⟨⟨ret, val, w'⟩, he, hstep⟩ := bind_eq_ok hstep
  cases hstep
  rcases a.exec_ok hl he with
    ⟨hret, rfl⟩ | ⟨hret, d, hd, -, ⟨hwritten, rfl, -⟩ | ⟨v, hwritten, rfl⟩⟩
  · simpa [hret] using hi
  · simpa [hret, Access.writes, hwritten] using hi
  · simp only [hret, ↓reduceIte, Access.writes, hd, hwritten, List.singleton_append]
    rw [hi, storeBytes_eq_latest]

/-- After every run, a call that is refused changes nothing. An accepted read
returns at each byte what the latest accepted write stored there, or the initial
byte, and no accepted call changes a byte of a region that is disjoint from its
entry's. -/
theorem bar_memory_coherent {w : World} {s : MemSession} (hs : MemSession.Reachable w s)
    {a : Access} {ret : Code} {val : Option Nat} {w' : World} (hidx : a.call.index < 6)
    (hcall : a.exec s.world = .ok (ret, val, w')) :
    (ret ≠ cronoSuccess → w' = s.world) ∧
    (ret = cronoSuccess → ∃ d, s.world.device? a.hDev = some d ∧
      (a.call.written = none → ∃ v, val = some v ∧ ∀ k, k < a.call.width →
        v / 2 ^ (8 * k) % 2 ^ 8 =
          (latest w.mem s.log (a.call.target d a.dwOffset + k)).toNat) ∧
      ∀ start len, (a.call.desc d).userAddress + (a.call.desc d).length.toNat ≤ start ∨
          start + len ≤ (a.call.desc d).userAddress →
        ∀ i, start ≤ i → i < start + len → w'.mem i = s.world.mem i) := by
  have hmem := mem_eq_latest hs
  rcases a.exec_ok hidx hcall with ⟨hret, rfl⟩ | ⟨hret, d, hd, hrange, hor⟩
  · exact ⟨fun _ => rfl, fun h => absurd h hret⟩
  refine ⟨fun h => absurd hret h, fun _ => ⟨d, hd, ?_, ?_⟩⟩
  · intro hread
    rcases hor with ⟨-, -, rfl⟩ | ⟨v, hwritten, -⟩
    · refine ⟨_, rfl, ?_⟩
      intro k hk
      rw [loadBytes_byte _ _ hk, hmem]
    · rw [hread] at hwritten
      cases hwritten
  · intro start len hdisj i hi hi'
    rcases hor with ⟨-, rfl, -⟩ | ⟨v, -, rfl⟩
    · rfl
    · rw [exceedsRange_iff a.call.checkedSize_le] at hrange
      have hwidth := a.call.width_le
      have hfit : a.dwOffset.toNat + a.call.width ≤ (a.call.desc d).length.toNat := by omega
      have hend : a.call.target d a.dwOffset + a.call.width ≤
          (a.call.desc d).userAddress + (a.call.desc d).length.toNat := by
        rw [Accessor.target, Nat.add_assoc]
        exact Nat.add_le_add_left hfit _
      apply storeBytes_outside s.world.mem v (Nat.le_add_right (a.call.desc d).userAddress _) hend
      rcases hdisj with hbelow | habove
      · exact Or.inr (Nat.le_trans hbelow hi)
      · exact Or.inl (Nat.lt_of_lt_of_le hi' habove)

/-- Four bytes are written, one of them again, and a call past the end is
refused; an unaligned read returns the bytes of both writes. -/
def Access.overlapping : List Access :=
  [⟨16, 0, .writeAddr32 0x04030201⟩, ⟨16, 3, .writeAddr8 0xAA⟩, ⟨16, 4096, .writeAddr 1 0⟩]

theorem bar_memory_overlapping : ∃ t, Session.Reachable World.boot t ∧
    ∃ s, MemSession.Reachable t.world s ∧ s.log = [⟨4099, 1, 0xAA⟩, ⟨4096, 4, 0x04030201⟩] ∧
      ∃ w', (Access.mk 16 2 (.readAddr32 (some 0))).exec s.world =
          .ok (cronoSuccess, some 0xAA03, w') ∧
        ∃ d, s.world.device? 16 = some d ∧ ∃ v, some 0xAA03 = some v ∧ ∀ k, k < 4 →
          v / 2 ^ (8 * k) % 2 ^ 8 = (latest t.world.mem s.log
            ((Accessor.readAddr32 (some 0)).target d 2 + k)).toNat := by
  obtain ⟨t, ht, hrun⟩ : ∃ t, Session.Reachable World.boot t ∧
      (runFrom MemSession.step MemSession.Legal ⟨t.world, []⟩ Access.overlapping).any (fun s =>
        decide (s.log = [⟨4099, 1, 0xAA⟩, ⟨4096, 4, 0x04030201⟩] ∧
          ((Access.mk 16 2 (.readAddr32 (some 0))).exec s.world).map (fun r => (r.1, r.2.1)) =
            .ok (cronoSuccess, some 0xAA03))) = true :=
    exists_reach_of_run [.opensBar 1 16] (by decide)
  obtain ⟨s, hs, hlog, hread⟩ := exists_reach_of_run Access.overlapping hrun
  refine ⟨t, ht, s, hs, hlog, ?_⟩
  cases hcall : (Access.mk 16 2 (.readAddr32 (some 0))).exec s.world with
  | error f =>
    rw [hcall] at hread
    cases hread
  | ok r =>
    obtain ⟨ret, val, w'⟩ := r
    rw [hcall] at hread
    cases hread
    obtain ⟨d, hd, hval, -⟩ := (bar_memory_coherent hs (by decide) hcall).2 rfl
    exact ⟨w', rfl, d, hd, hval rfl⟩

end CronoPci
