import CronoPci.Verify.Accounts

/-!
# What a caller can rely on

For as long as a handle or a descriptor is held, whatever else is called in
between, its blocks are there and constant, up to the table of BARs of a device.
-/

namespace CronoPci

open Posix Trans

/-! ## Constant blocks -/

inductive Block.Becomes : Block → Block → Prop
  | same (b : Block) : Block.Becomes b b
  | device {d : KernelDevice} {bars : BarTable} (h : d.bars.Becomes bars) :
      Block.Becomes (.device d) (.device { d with bars })

theorem Block.Becomes.trans {b b' b'' : Block} (h : b.Becomes b') (h' : b'.Becomes b'') :
    b.Becomes b'' := by
  cases h with
  | same => exact h'
  | device hbars =>
    cases h' with
    | same => exact .device hbars
    | device hbars' => exact .device (hbars.trans hbars')

section Constant

variable {w : World} {p t : Program} {c : Call} {H : Holdings} {k : Key} {i : Part} {a : Addr}

theorem Outcome.becomes (ho : Outcome p c H) (hi : ProgramInv p)
    (hk : p.holdings.PartHas (k, i) (.block a)) (hk' : H.Holds k) {b : Block}
    (hb : p.holdings.get a = some b) : ∃ b', H.get a = some b' ∧ b.Becomes b' := by
  cases ho.keeps hi hk hk' with
  | same hget => exact ⟨b, by rw [hget, hb], .same b⟩
  | described hd hget hcount =>
    rw [hd] at hb
    cases hb
    exact ⟨_, hget, .device (Or.inl hcount)⟩
  | unmapped hd hget _ heff =>
    rw [hd] at hb
    cases hb
    exact ⟨_, hget, .device heff.becomes⟩

/-- A block of a key stays one while the key is held. -/
theorem Outcome.partHas_block (ho : Outcome p c H) (hi : ProgramInv p)
    (hk : p.holdings.PartHas (k, i) (.block a)) (hk' : H.Holds k) :
    H.PartHas (k, i) (.block a) := by
  obtain ⟨hheld, b, hb, hp⟩ := hk
  obtain ⟨b', hb', hbecomes⟩ := ho.becomes hi (hi.block hheld) hk' hb
  refine ⟨hk', b', hb', ?_⟩
  cases hbecomes with
  | same => exact hp.of_own fun _ _ _ _ hr => by cases hr
  | device =>
    cases hp with
    | device => exact .device

/-- The device has the name for its id and slot, and a number that is not 0. -/
theorem Outcome.named (ho : Outcome p c H) (hi : ProgramInv p)
    (hnamed : ∀ h ∈ p.live, ∀ d, p.holdings.get h.addr = some (.device d) →
      d.Named ∧ d.miscdevFd ≠ 0) :
    ∀ h ∈ H.live, ∀ d, H.get h.addr = some (.device d) → d.Named ∧ d.miscdevFd ≠ 0 := by
  intro h hh d hd
  rcases ho.new_keys.1 h hh with hin | ⟨d', hnew⟩
  · obtain ⟨bars, hd'⟩ := ho.device_kept hi hin hh hd
    have hname := hnamed h hin _ hd'
    exact hname
  · rw [hnew.get] at hd
    cases hd
    exact ⟨hnew.named, hnew.number⟩

/-- In every run the devices of live handles are named for their ids and slots,
and the numbers of their files are not 0. -/
theorem named_reachable (hw : w.Initial) (hp : Program.Reachable w p) :
    ∀ h ∈ p.live, ∀ d, p.holdings.get h.addr = some (.device d) →
      d.Named ∧ d.miscdevFd ≠ 0 := by
  have hrun : ProgramInv p ∧ ∀ h ∈ p.live, ∀ d, p.holdings.get h.addr = some (.device d) →
      d.Named ∧ d.miscdevFd ≠ 0 := by
    refine Reach.invariant (I := fun p => ProgramInv p ∧ ∀ h ∈ p.live, ∀ d,
      p.holdings.get h.addr = some (.device d) → d.Named ∧ d.miscdevFd ≠ 0)
      ⟨.start hw, fun h hh => (by cases hh)⟩ ?_ hp
    rintro p p' c ⟨hi, hnamed⟩ hl hs
    exact ⟨hi.step hl hs, (hi.outcome hl hs).named hi hnamed⟩
  exact hrun.2

/-- The programs that calls lead to for as long as `k` is held. -/
def Program.ReachesHolding (k : Key) (p t : Program) : Prop :=
  Reach Program.step (fun p c => p.Legal c ∧ p.holdings.Holds k) p t

theorem Program.ReachesHolding.kept (ht : Program.ReachesHolding k p t) (hi : ProgramInv p)
    (hk : p.holdings.PartHas (k, i) (.block a)) {b : Block} (hb : p.holdings.get a = some b) :
    ProgramInv t ∧ (t.holdings.Holds k → t.holdings.PartHas (k, i) (.block a) ∧
      ∃ b', t.holdings.get a = some b' ∧ b.Becomes b') := by
  refine Reach.invariant (I := fun t => ProgramInv t ∧ (t.holdings.Holds k →
    t.holdings.PartHas (k, i) (.block a) ∧ ∃ b', t.holdings.get a = some b' ∧ b.Becomes b'))
    ⟨hi, fun _ => ⟨hk, b, hb, .same b⟩⟩ ?_ ht
  rintro s s' c ⟨hi, hkept⟩ ⟨hl, hheld⟩ hs
  have ho := hi.outcome hl hs
  refine ⟨hi.step hl hs, ?_⟩
  intro hheld'
  obtain ⟨hpart, b₁, hb₁, hbecomes⟩ := hkept hheld
  obtain ⟨b₂, hb₂, hbecomes'⟩ := ho.becomes hi hpart hheld' hb₁
  exact ⟨ho.partHas_block hi hpart hheld', b₂, hb₂, hbecomes.trans hbecomes'⟩

/-- While a key is held its blocks are there, and they are constant but for the
table of a device, which is filled once and then only loses addresses. -/
theorem held_constant (hw : w.Initial) (hp : Program.Reachable w p)
    (hk : p.holdings.PartHas (k, i) (.block a)) (ht : Program.ReachesHolding k p t)
    (hk' : t.holdings.Holds k) : t.holdings.PartHas (k, i) (.block a) ∧
      ∃ b b', p.holdings.get a = some b ∧ t.holdings.get a = some b' ∧ b.Becomes b' := by
  have hi := programInv_reachable hw hp
  obtain ⟨b, hb⟩ := Option.ne_none_iff_exists'.1 (hi.sound.owns.mem _ _ hk)
  obtain ⟨hpart, b', hb', hbecomes⟩ := (ht.kept hi hk hb).2 hk'
  exact ⟨hpart, b, b', hb, hb', hbecomes⟩

/-- The descriptor at 48 and its array of pages, while the device it was locked
for is closed, opened again and locks another buffer. -/
theorem held_constant_pages : ∃ p t, Program.Reachable World.boot p ∧
    Program.ReachesHolding (.sg 48) p t ∧ t.live = [⟨64, 11⟩] ∧
    t.holdings.PartHas (.sg 48, .pages) (.block 49) ∧
      ∃ b b', p.holdings.get 49 = some b ∧ t.holdings.get 49 = some b' ∧ b.Becomes b' := by
  obtain ⟨p, hp, hpart, hrun⟩ : ∃ p, Program.Reachable World.boot p ∧
      (48 ∈ p.sgs ∧ (p.world.sg? 48).any (fun c => decide (c.page = 49)) = true) ∧
      (runFrom Program.step (fun p c => p.Legal c ∧ p.holdings.Holds (.sg 48)) p
        Call.reopen).any
          (fun t => decide (t.live = [⟨64, 11⟩] ∧ t.holdings.Holds (.sg 48))) = true :=
    exists_reach_of_run Call.setup (by decide)
  obtain ⟨t, ht, hlive, hheld⟩ := exists_reach_of_run Call.reopen hrun
  have hpages : p.holdings.PartHas (.sg 48, .pages) (.block 49) := by
    obtain ⟨hmem, hsg⟩ := hpart
    cases hc : p.world.sg? 48 with
    | none => simp [hc] at hsg
    | some c =>
      have hpage : c.page = 49 := by simpa [hc] using hsg
      rw [← hpage]
      exact ⟨hmem, _, World.sg?_eq_some.1 hc, .pages⟩
  exact ⟨p, t, hp, ht, hlive, held_constant World.boot_initial hp hpages ht hheld⟩

end Constant

end CronoPci
