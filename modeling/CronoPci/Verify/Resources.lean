import CronoPci.Trans.Ownership
import CronoPci.Verify.Outcomes

/-!
# What a caller and its process have

A key has resources: a handle has the block of its device, the regions of its
BARs and its file; the descriptor of a contiguous buffer has its block, its
region and the buffer; a scatter/gather descriptor has its block, its array of
pages and the buffer. `Holdings.Sound` says that every key has its block and
that no two of these resources are the same.
-/

namespace CronoPci

open Posix Trans

/-! ## Resources -/

inductive Resource
  | block (a : Addr)
  | region (start len : Nat)
  | file (fd f : Nat)
  | contigBuf (id : Int)
  | sgBuf (id : Int)

/-- What a key can have. -/
inductive Part
  | block
  | pages
  | bar (j : Fin 6)
  | region
  | file
  | buffer

def Key.addr : Key → Addr
  | .device h => h.addr
  | .contig pDma => pDma
  | .sg pDma => pDma

/-- The part of a key whose block is `b`, where `own` says which handle has the
file that a number names. -/
inductive PartOf (own : Handle → Nat → Prop) : Key → Block → Part → Resource → Prop
  | device {h : Handle} {d : KernelDevice} :
      PartOf own (.device h) (.device d) .block (.block h.addr)
  | bar {h : Handle} {d : KernelDevice} {j : Fin 6}
      (hj : (d.bars.barDescs.get j).userAddress ≠ 0) :
      PartOf own (.device h) (.device d) (.bar j)
        (.region (d.bars.barDescs.get j).userAddress (d.bars.barDescs.get j).length.toNat)
  | file {h : Handle} {d : KernelDevice} (hf : own h d.miscdevFd) :
      PartOf own (.device h) (.device d) .file (.file d.miscdevFd h.file)
  | contig {q : Addr} {b : DmaContig} : PartOf own (.contig q) (.contig b) .block (.block q)
  | region {q : Addr} {b : DmaContig} : PartOf own (.contig q) (.contig b) .region
      (.region b.pUserAddr b.dwBytes.toNat)
  | contigBuf {q : Addr} {b : DmaContig} :
      PartOf own (.contig q) (.contig b) .buffer (.contigBuf b.id)
  | sg {q : Addr} {b : DmaSg} : PartOf own (.sg q) (.sg b) .block (.block q)
  | pages {q : Addr} {b : DmaSg} : PartOf own (.sg q) (.sg b) .pages (.block b.page)
  | sgBuf {q : Addr} {b : DmaSg} : PartOf own (.sg q) (.sg b) .buffer (.sgBuf b.id)

namespace Holdings

def Holds (H : Holdings) : Key → Prop
  | .device h => h ∈ H.live
  | .contig pDma => pDma ∈ H.contigs
  | .sg pDma => pDma ∈ H.sgs

instance (H : Holdings) (k : Key) : Decidable (H.Holds k) := by
  unfold Holds
  split <;> infer_instance

/-- The number names the file of the handle. -/
def Own (H : Holdings) (h : Handle) (n : Nat) : Prop := H.file n = some h.file

/-- A part of a key that is held has the resource. -/
def PartHas (H : Holdings) (k : Key × Part) (r : Resource) : Prop :=
  H.Holds k.1 ∧ ∃ b, H.get k.1.addr = some b ∧ PartOf H.Own k.1 b k.2 r

/-- The process has the resource. -/
def Has (H : Holdings) : Resource → Prop
  | .block a => H.get a ≠ none
  | .region start len => ∃ m ∈ H.maps, m.start = start ∧ m.len = len
  | .file fd f => H.file fd = some f
  | .contigBuf id => id ∈ H.contigLocked
  | .sgBuf id => id ∈ H.sgLocked

/-- Every key that is held has its block, every handle's file is the misc device of
its device, and no two parts have the same resource. -/
structure Sound (H : Holdings) : Prop where
  tail : ∀ h ∈ H.live, ∀ d, H.get h.addr = some (.device d) → d.bars.TailZero
  contig : ∀ q ∈ H.contigs, ∃ b, H.get q = some (.contig b)
  contigs : H.contigs.Nodup
  file : ∀ h ∈ H.live, h.file < H.next
  node : ∀ h ∈ H.live, ∀ d, H.get h.addr = some (.device d) → H.path h.file = miscdevPath d
  owns : Owns H.PartHas H.Has

end Holdings

/-- The invariant of all programs. -/
structure ProgramInv (p : Program) : Prop where
  client : ClientInv p.client
  sound : p.holdings.Sound

/-- A part depends on whose the files are only where it is a file. -/
theorem PartOf.of_own {own own' : Handle → Nat → Prop} {k : Key} {b : Block} {i : Part}
    {r : Resource} (hp : PartOf own k b i r) (hown : ∀ h d, k = .device h → b = .device d →
      r = .file d.miscdevFd h.file → own h d.miscdevFd → own' h d.miscdevFd) :
    PartOf own' k b i r := by
  cases hp with
  | file hf => exact .file (hown _ _ rfl rfl rfl hf)
  | device => exact .device
  | bar hj => exact .bar hj
  | contig => exact .contig
  | region => exact .region
  | contigBuf => exact .contigBuf
  | sg => exact .sg
  | pages => exact .pages
  | sgBuf => exact .sgBuf

theorem PartOf.own_iff {own own' : Handle → Nat → Prop} {k : Key} {b : Block} {i : Part}
    {r : Resource} (hown : ∀ h d, k = .device h → b = .device d →
      (own h d.miscdevFd ↔ own' h d.miscdevFd)) : PartOf own k b i r ↔ PartOf own' k b i r := by
  constructor
  · intro hp
    exact hp.of_own fun h d hk hb _ => (hown h d hk hb).1
  · intro hp
    exact hp.of_own fun h d hk hb _ => (hown h d hk hb).2

/-- No two parts of a key are the same when its BARs start at different addresses
and its array of pages is a block of its own. -/
theorem PartOf.part_inj {own : Handle → Nat → Prop} {k : Key} {b : Block} {i i' : Part}
    {r : Resource} (hp : PartOf own k b i r) (hp' : PartOf own k b i' r)
    (hbars : ∀ d, b = .device d → ∀ j j' : Fin 6, (d.bars.barDescs.get j).userAddress ≠ 0 →
      (d.bars.barDescs.get j).userAddress = (d.bars.barDescs.get j').userAddress → j = j')
    (hpages : ∀ c, b = .sg c → c.page ≠ k.addr) : i = i' := by
  generalize hr : r = r' at hp'
  cases hp with
  | bar hj =>
    cases hp' <;> simp only [Resource.region.injEq, reduceCtorEq] at hr
    rw [hbars _ rfl _ _ hj hr.1]
  | sg =>
    cases hp' <;> simp only [Resource.block.injEq, reduceCtorEq] at hr
    · rfl
    · exact absurd hr.symm (hpages _ rfl)
  | pages =>
    cases hp' <;> simp only [Resource.block.injEq, reduceCtorEq] at hr
    · exact absurd hr (hpages _ rfl)
    · rfl
  | device | file | contig | region | contigBuf | sgBuf =>
    cases hp' <;> first | rfl | simp only [reduceCtorEq] at hr

section Keys

variable {H H' : Holdings} {k : Key × Part}

theorem Holdings.own_congr (h : H'.file = H.file) : H'.Own = H.Own := by
  funext h' n
  rw [Own, Own, h]

/-- A key that stays, with its block and its file, has what it had. -/
theorem Holdings.partHas_congr (hholds : H'.Holds k.1 ↔ H.Holds k.1)
    (hget : H.Holds k.1 → H'.get k.1.addr = H.get k.1.addr)
    (hfile : ∀ h d, k.1 = .device h → H.Holds k.1 → H.get h.addr = some (.device d) →
      (H'.file d.miscdevFd = some h.file ↔ H.file d.miscdevFd = some h.file)) (r : Resource) :
    H'.PartHas k r ↔ H.PartHas k r := by
  obtain ⟨k, i⟩ := k
  unfold Holdings.PartHas
  rw [hholds]
  refine and_congr_right fun hk => ?_
  simp only
  rw [hget hk]
  refine exists_congr fun b => and_congr_right fun hb => PartOf.own_iff ?_
  rintro h d rfl rfl
  exact hfile h d rfl hk hb

/-- What is in use stays so. -/
theorem Holdings.has_mono (hget : ∀ a, H.get a ≠ none → H'.get a ≠ none) (hmaps : H.maps ⊆ H'.maps)
    (hfile : ∀ n f, H.file n = some f → H'.file n = some f)
    (hcontig : H.contigLocked ⊆ H'.contigLocked) (hsg : H.sgLocked ⊆ H'.sgLocked) (r : Resource)
    (hr : H.Has r) : H'.Has r := by
  cases r with
  | block a => exact hget a hr
  | region start len =>
    obtain ⟨m, hm, he⟩ := hr
    exact ⟨m, hmaps hm, he⟩
  | file n f => exact hfile n f hr
  | contigBuf id => exact hcontig hr
  | sgBuf id => exact hsg hr

/-- A new key `k`, with block `b`, gets all that is new. -/
theorem Holdings.grows_held {k : Key} {b : Block} (hs : H.Sound)
    (hused : ∀ k', H.Holds k' → H.get k'.addr ≠ none) (hfresh : H.get k.addr = none)
    (hholds : ∀ k', H'.Holds k' ↔ k' = k ∨ H.Holds k') (hget : H'.get k.addr = some b)
    (hkept : ∀ a, H.get a ≠ none → H'.get a = H.get a)
    (hfile : ∀ n f, f < H.next → (H'.file n = some f ↔ H.file n = some f))
    (hsub : ∀ r, H.Has r → H'.Has r)
    (hentry : ∀ i r, PartOf H'.Own k b i r → H'.Has r ∧ ¬H.Has r)
    (hinj : ∀ i i' r, PartOf H'.Own k b i r → PartOf H'.Own k b i' r → i = i')
    (hcovered : ∀ r, H'.Has r → H.Has r ∨ ∃ i, PartOf H'.Own k b i r) :
    Grows (fun k' => k'.1 = k) H.PartHas H.Has H'.PartHas H'.Has := by
  have hpart (i : Part) (r : Resource) : H'.PartHas (k, i) r ↔ PartOf H'.Own k b i r := by
    constructor
    · rintro ⟨-, b', hb', hp⟩
      rw [hget] at hb'
      cases hb'
      exact hp
    · intro hp
      exact ⟨(hholds k).2 (Or.inl rfl), b, hget, hp⟩
  refine ⟨hsub, ?_, ?_, ?_, ?_, ?_⟩
  · rintro ⟨k', i⟩ r hne
    apply Holdings.partHas_congr
    · simp [hholds, show k' ≠ k from hne]
    · intro hk
      exact hkept _ (hused k' hk)
    · rintro h d rfl hk -
      exact hfile _ _ (hs.file h hk)
  · rintro ⟨_, i⟩ r rfl ⟨-, b', hb', -⟩
    rw [hfresh] at hb'
    cases hb'
  · rintro ⟨_, i⟩ r rfl hr
    exact hentry i r ((hpart i r).1 hr)
  · rintro ⟨_, i⟩ ⟨_, i'⟩ r rfl rfl hr hr'
    rw [hinj i i' r ((hpart i r).1 hr) ((hpart i' r).1 hr')]
  · intro r hr
    refine (hcovered r hr).imp id ?_
    rintro ⟨i, hi⟩
    exact ⟨(k, i), (hpart i r).2 hi⟩

/-- The key `k`, with block `b`, is given back, and nothing goes but what it had. -/
theorem Holdings.shrinks_held {k : Key} {b : Block} (hk : H.Holds k) (hb : H.get k.addr = some b)
    (hholds : ∀ k', H'.Holds k' ↔ k' ≠ k ∧ H.Holds k')
    (hkept : ∀ k', k' ≠ k → H.Holds k' → H'.get k'.addr = H.get k'.addr)
    (hfile : H'.file = H.file) (hsub : ∀ r, H'.Has r → H.Has r)
    (hlost : ∀ r, H.Has r → H'.Has r ∨ ∃ i, PartOf H.Own k b i r) :
    Shrinks (fun k' => k'.1 = k) (fun _ => False) H.PartHas H.Has H'.PartHas H'.Has ∧
      ((∀ i r, PartOf H.Own k b i r → ¬H'.Has r) →
        ∀ k' r, H.PartHas k' r → H'.Has r → H'.PartHas k' r) := by
  have hcongr {k' : Key} (hne : k' ≠ k) (i : Part) (r : Resource) :
      H'.PartHas (k', i) r ↔ H.PartHas (k', i) r := by
    refine Holdings.partHas_congr ?_ (hkept k' hne) ?_ r
    · simp [hholds, hne]
    · intro _ _ _ _ _
      rw [hfile]
  refine ⟨⟨hsub, ?_, ?_, fun _ _ h => absurd h id⟩, ?_⟩
  · rintro ⟨k', i⟩ r hr
    exact (hcongr ((hholds _).1 hr.1).1 i r).1 hr
  · intro r hr
    refine (hlost r hr).imp id ?_
    rintro ⟨i, hp⟩
    exact Or.inl ⟨(k, i), rfl, ⟨hk, b, hb, hp⟩, fun hno => ((hholds _).1 hno.1).1 rfl⟩
  · rintro hgone ⟨k', i⟩ r hr hpool
    by_cases he : k' = k
    · subst he
      obtain ⟨-, b', hb', hp⟩ := hr
      simp only [hb, Option.some.injEq] at hb'
      subst hb'
      exact absurd hpool (hgone i r hp)
    · exact (hcongr he i r).2 hr

end Keys

namespace ProgramInv

variable {p : Program} {k k' : Key}

theorem block (hi : ProgramInv p) (hk : p.holdings.Holds k) :
    p.holdings.PartHas (k, .block) (.block k.addr) := by
  refine ⟨hk, ?_⟩
  cases k with
  | device h =>
    obtain ⟨d, hd⟩ := hi.client.reg.device h hk
    exact ⟨_, World.device?_eq_some.1 hd, .device⟩
  | contig q =>
    obtain ⟨b, hb⟩ := hi.sound.contig q hk
    exact ⟨_, hb, .contig⟩
  | sg q =>
    obtain ⟨b, -, hb, -⟩ := hi.client.sg.block q hk
    exact ⟨_, World.sg?_eq_some.1 hb, .sg⟩

theorem used (hi : ProgramInv p) (hk : p.holdings.Holds k) : p.holdings.get k.addr ≠ none :=
  hi.sound.owns.mem _ _ (hi.block hk)

theorem addr_inj (hi : ProgramInv p) (hk : p.holdings.Holds k) (hk' : p.holdings.Holds k')
    (he : k.addr = k'.addr) : k = k' := by
  have hblock := hi.block hk
  rw [he] at hblock
  have hsame := hi.sound.owns.inj _ _ _ hblock (hi.block hk')
  exact congrArg Prod.fst hsame

end ProgramInv

/-! ## Calls that leave the keys alone -/

section Same

variable {p : Program}

/-- The keys have what they had when blocks and files stay as they are. -/
theorem partHas_same {H : Holdings} (hlive : H.live = p.holdings.live)
    (hcontigs : H.contigs = p.holdings.contigs) (hsgs : H.sgs = p.holdings.sgs)
    (hget : H.get = p.holdings.get) (hfile : H.file = p.holdings.file) (k : Key × Part)
    (r : Resource) : H.PartHas k r ↔ p.holdings.PartHas k r := by
  apply Holdings.partHas_congr
  · cases k.1 <;> simp only [Holdings.Holds, hlive, hcontigs, hsgs]
  · intro _
    rw [hget]
  · intro _ _ _ _ _
    rw [hfile]

end Same

end CronoPci
