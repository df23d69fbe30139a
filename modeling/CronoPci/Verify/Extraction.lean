import CronoPci.Verify.BarNumbers

/-!
# Where the entries of the table come from

`fill_device_bar_descriptions` extracts three numbers per BAR and checks none of
the extractions. Where each stands in the text and whether it fails depends on
the text alone (`HexStream.after`); only a variable whose extraction fails can
hold something else than its text says. `not_invented_iff` says for which texts
every entry and every absence comes from numbers that were read.
-/

namespace CronoPci

open Posix Posix.Text

/-! ## The stream as a function of the text -/

namespace HexStream

/-- The stream after an extraction. -/
def next (s : HexStream) : HexStream := (s.extract 0).2

/-- The stream after `n` extractions. -/
def after (s : HexStream) : (n : Nat) → HexStream
  | 0 => s
  | n + 1 => s.next.after n

/-- The extraction does not fail, and gives `v`. -/
def Extracts (s : HexStream) (v : UInt64) : Prop := s.next.fail = false ∧ (s.extract 0).1 = v

instance (s : HexStream) (v : UInt64) : Decidable (s.Extracts v) :=
  inferInstanceAs (Decidable (_ ∧ _))

/-- How the stream goes on does not depend on the variable. -/
theorem extract_next (s : HexStream) (v : UInt64) : (s.extract v).2 = s.next := by
  unfold next extract
  split
  · rfl
  · simp only
    split
    · rfl
    · split <;> rfl

/-- An extraction that does not fail sets the variable, whatever it held. -/
theorem Extracts.eq {s : HexStream} {v : UInt64} (h : s.Extracts v) (u : UInt64) :
    (s.extract u).1 = v := by
  obtain ⟨hfail, rfl⟩ := h
  unfold next extract at hfail
  unfold extract
  by_cases hs : s.fail = true
  · rw [if_pos hs] at hfail
    rw [hs] at hfail
    cases hfail
  rw [if_neg hs, if_neg hs]
  rw [if_neg hs] at hfail
  simp only at hfail ⊢
  by_cases hcs : s.rest.dropWhile isSpace = []
  · rw [if_pos hcs] at hfail
    cases hfail
  rw [if_neg hcs, if_neg hcs]

theorem after_add (s : HexStream) (m n : Nat) : (s.after m).after n = s.after (m + n) := by
  induction m generalizing s with
  | zero => rw [Nat.zero_add]; rfl
  | succ m ih => rw [Nat.succ_add]; exact ih s.next

theorem readRow_next (s : HexStream) (u : ResourceRow) : (s.readRow u).2 = s.after 3 := by
  simp only [readRow, extract_next, after]

/-- The numbers of a line where start and end are read without failure. -/
theorem readRow_eq {s : HexStream} {start stop : UInt64} (hstart : s.Extracts start)
    (hstop : (s.after 1).Extracts stop) (u : ResourceRow) :
    ((s.readRow u).1.startAddr, (s.readRow u).1.endAddr) = (start, stop) := by
  simp only [readRow, extract_next, hstart.eq]
  rw [show s.next = s.after 1 from rfl, hstop.eq]

end HexStream

/-- The stream of a text before the `k`-th number of BAR `ibar`. -/
def fieldStream (text : List Char) (ibar : Fin 6) (k : Nat) : HexStream :=
  HexStream.after ⟨text, false⟩ (3 * ibar + k)

/-- Start and end of BAR `ibar` are read, as `start` and `stop`. -/
structure ReadsBar (text : List Char) (ibar : Fin 6) (start stop : UInt64) : Prop where
  start : (fieldStream text ibar 0).Extracts start
  stop : (fieldStream text ibar 1).Extracts stop

/-- The text before the next number of the stream. -/
def textBefore (text : List Char) (s : HexStream) : List Char :=
  text.take (text.length - (s.rest.dropWhile isSpace).length)

/-- The last line of `pre` has white space only. -/
def EndsBlank (pre : List Char) : Prop := ∀ c ∈ pre.reverse.takeWhile (· ≠ '\n'), isSpace c = true

instance (pre : List Char) : Decidable (EndsBlank pre) := List.decidableBAll _ _

/-- Start and end of BAR `ibar` are the first two numbers on the line of that
number, counted from 0. -/
structure OnLine (text : List Char) (ibar : Fin 6) : Prop where
  start : (textBefore text (fieldStream text ibar 0)).count '\n' = ibar
  first : EndsBlank (textBefore text (fieldStream text ibar 0))
  stop : (textBefore text (fieldStream text ibar 1)).count '\n' = ibar

instance (text : List Char) (ibar : Fin 6) : Decidable (OnLine text ibar) :=
  decidable_of_iff (_ ∧ _ ∧ _) ⟨fun ⟨start, first, stop⟩ => ⟨start, first, stop⟩,
    fun h => ⟨h.start, h.first, h.stop⟩⟩

/-- Every entry has the start and the length of numbers read from its BAR's
line, and every BAR without an entry was read as absent. -/
structure FromText (text : List Char) (bars : BarTable) : Prop where
  entry : ∀ j : Fin 6, (j : Nat) < bars.barCount → ∃ (ibar : Fin 6) (start stop : UInt64),
    (bars.barDescs.get j).barNum = ibar ∧ ReadsBar text ibar start stop ∧ OnLine text ibar ∧
      (bars.barDescs.get j).physicalAddress = start ∧
        (bars.barDescs.get j).length = (stop - start + 1).toUInt32
  absence : ∀ ibar : Fin 6, (∀ j : Fin 6, (j : Nat) < bars.barCount →
    (bars.barDescs.get j).barNum ≠ ibar) → ReadsBar text ibar 0 0

/-- The call returns an error, or the table that it sets comes from the text. -/
def NotInvented (sys : BarSys) (p : Addr) (d : KernelDevice) (w : World) : Prop :=
  ∃ ret w', fillDeviceBarDescriptions sys p w = .ok (ret, w') ∧
    (ret = cronoSuccess → d.bars.barCount = 0 →
      ∃ bars, w'.device? p = some { d with bars } ∧ FromText sys.text bars)

/-- Start and end of every BAR are read, and those of a BAR that exists stand on
its line. -/
def WellRead (text : List Char) : Prop :=
  ∀ ibar : Fin 6, ∃ start stop, ReadsBar text ibar start stop ∧
    (start = 0 ∧ stop = 0 ∨ OnLine text ibar)

/-- The numbers read are the ones extracted, so that they can be looked up. -/
theorem wellRead_iff {text : List Char} : WellRead text ↔ ∀ ibar : Fin 6,
    (fieldStream text ibar 0).next.fail = false ∧ (fieldStream text ibar 1).next.fail = false ∧
      (((fieldStream text ibar 0).extract 0).1 = 0 ∧ ((fieldStream text ibar 1).extract 0).1 = 0 ∨
        OnLine text ibar) := by
  constructor
  · intro h ibar
    obtain ⟨start, stop, ⟨⟨hfail, rfl⟩, ⟨hfail', rfl⟩⟩, hor⟩ := h ibar
    exact ⟨hfail, hfail', hor⟩
  · intro h ibar
    obtain ⟨hfail, hfail', hor⟩ := h ibar
    exact ⟨_, _, ⟨⟨hfail, rfl⟩, ⟨hfail', rfl⟩⟩, hor⟩

instance (text : List Char) : Decidable (WellRead text) :=
  @decidable_of_iff' _ _ wellRead_iff (Nat.decidableForallFin _)

/-! ## The lines that the loop reads -/

theorem rowsFrom_getElem? {sys : BarSys} (ibars : List (Fin 6)) (s : HexStream) (k : Nat) :
    (rowsFrom sys ibars s)[k]? =
      ibars[k]?.map fun ibar => (ibar, ((s.after (3 * k)).readRow (sys.uninit ibar)).1) := by
  induction ibars generalizing s k with
  | nil => rfl
  | cons ibar ibars ih =>
    cases k with
    | zero => rfl
    | succ k =>
      rw [rowsFrom, List.getElem?_cons_succ, ih, HexStream.readRow_next, HexStream.after_add,
        List.getElem?_cons_succ, Nat.mul_succ, Nat.add_comm 3]

/-- The line of BAR `ibar`. -/
def BarSys.row (sys : BarSys) (ibar : Fin 6) : ResourceRow :=
  ((fieldStream sys.text ibar 0).readRow (sys.uninit ibar)).1

theorem BarSys.rows_eq (sys : BarSys) :
    sys.rows = (List.finRange 6).map fun ibar => (ibar, sys.row ibar) := by
  apply List.ext_getElem?
  intro k
  unfold BarSys.rows BarSys.row fieldStream
  rw [rowsFrom_getElem?, List.getElem?_map]
  by_cases hk : k < 6
  · rw [List.getElem?_eq_getElem (by simpa using hk)]
    simp
  · rw [List.getElem?_eq_none (by simpa using hk)]
    rfl

theorem BarSys.mem_present {sys : BarSys} {r : Fin 6 × ResourceRow} :
    r ∈ sys.present ↔ r.2 = sys.row r.1 ∧ ¬r.2.Absent := by
  unfold BarSys.present
  rw [sys.rows_eq, List.mem_filter, List.mem_map]
  constructor
  · rintro ⟨⟨ibar, -, rfl⟩, hr⟩
    exact ⟨rfl, by simpa using hr⟩
  · rintro ⟨hr, habs⟩
    exact ⟨⟨r.1, List.mem_finRange _, by rw [← hr]⟩, by simpa using habs⟩

/-- The numbers read for a BAR are those of its line. -/
theorem ReadsBar.row_eq {sys : BarSys} {ibar : Fin 6} {start stop : UInt64}
    (h : ReadsBar sys.text ibar start stop) :
    (sys.row ibar).startAddr = start ∧ (sys.row ibar).endAddr = stop := by
  have hstop : ((fieldStream sys.text ibar 0).after 1).Extracts stop := by
    unfold fieldStream
    rw [HexStream.after_add]
    exact h.stop
  have he := HexStream.readRow_eq h.start hstop (sys.uninit ibar)
  exact Prod.mk.inj he

/-! ## The table -/

section Filled

variable {sys : BarSys} {d : KernelDevice} {w : World} {dir : List Char} {descs : List BarDesc}
  {bars : BarTable}

/-- The entry of a BAR, by position. -/
theorem Filled.entry_of_lt (h : Filled sys d w dir descs bars) {j : Fin 6}
    (hj : (j : Nat) < bars.barCount) : ∃ ibar : Fin 6, ¬(sys.row ibar).Absent ∧
      (bars.barDescs.get j).barNum = ibar ∧
      (bars.barDescs.get j).physicalAddress = (sys.row ibar).startAddr ∧
      (bars.barDescs.get j).length = (sys.row ibar).length := by
  obtain ⟨⟨ibar, row⟩, hr, he⟩ := h.entry_row hj
  obtain ⟨hrow, habs⟩ := BarSys.mem_present.1 (List.mem_of_getElem? hr)
  simp only at hrow habs
  subst hrow
  exact ⟨ibar, habs, congrArg BarDesc.barNum he, congrArg BarDesc.physicalAddress he,
    congrArg BarDesc.length he⟩

/-- Every BAR whose line is not absent has an entry. -/
theorem Filled.exists_entry (h : Filled sys d w dir descs bars) {ibar : Fin 6}
    (habs : ¬(sys.row ibar).Absent) :
    ∃ j : Fin 6, (j : Nat) < bars.barCount ∧ (bars.barDescs.get j).barNum = ibar := by
  have hmem : (ibar, sys.row ibar) ∈ sys.present := BarSys.mem_present.2 ⟨rfl, habs⟩
  obtain ⟨j, hj, hget⟩ := List.getElem_of_mem hmem
  have hlt : j < bars.barCount := h.barCount_eq ▸ hj
  obtain ⟨r, hr, he⟩ := h.entry_row (j := ⟨j, Nat.lt_of_lt_of_le hlt bars.le⟩) hlt
  rw [List.getElem?_eq_getElem hj, hget, Option.some.injEq] at hr
  subst hr
  exact ⟨_, hlt, congrArg BarDesc.barNum he⟩

/-- A table comes from a text that is read well. -/
theorem Filled.fromText (h : Filled sys d w dir descs bars) (hread : WellRead sys.text) :
    FromText sys.text bars := by
  constructor
  · intro j hj
    obtain ⟨ibar, habs, hnum, hphys, hlen⟩ := h.entry_of_lt hj
    obtain ⟨start, stop, hr, hor⟩ := hread ibar
    obtain ⟨hstart, hstop⟩ := hr.row_eq
    refine ⟨ibar, start, stop, hnum, hr, ?_, hphys.trans hstart, ?_⟩
    · rcases hor with ⟨rfl, rfl⟩ | hline
      · exact absurd ⟨hstart, hstop⟩ habs
      · exact hline
    · rw [hlen, ResourceRow.length, hstart, hstop]
  · intro ibar hnone
    obtain ⟨start, stop, hr, -⟩ := hread ibar
    obtain ⟨hstart, hstop⟩ := hr.row_eq
    have habs : (sys.row ibar).Absent := by
      by_contra habs
      obtain ⟨j, hj, hnum⟩ := h.exists_entry habs
      exact hnone j hj hnum
    obtain rfl : start = 0 := hstart.symm.trans habs.1
    obtain rfl : stop = 0 := hstop.symm.trans habs.2
    exact hr

end Filled

/-- What a table that comes from the text says of the text. -/
theorem FromText.reads {text : List Char} {bars : BarTable} (h : FromText text bars)
    (ibar : Fin 6) : ∃ start stop, ReadsBar text ibar start stop ∧
      (start = 0 ∧ stop = 0 ∨ OnLine text ibar) := by
  by_cases hsome : ∃ j : Fin 6, (j : Nat) < bars.barCount ∧ (bars.barDescs.get j).barNum = ibar
  · obtain ⟨j, hj, hnum⟩ := hsome
    obtain ⟨ibar', start, stop, hnum', hr, hline, -, -⟩ := h.entry j hj
    obtain rfl : ibar' = ibar := Fin.ext (hnum'.symm.trans hnum)
    exact ⟨start, stop, hr, Or.inr hline⟩
  · refine ⟨0, 0, h.absence ibar ?_, Or.inl ⟨rfl, rfl⟩⟩
    intro j hj hnum
    exact hsome ⟨j, hj, hnum⟩

/-- An overrun of the link buffer ends the call. -/
theorem LinkOverruns.fill_error {sys : BarSys} {p : Addr} {d : KernelDevice} {w : World}
    (h : LinkOverruns sys d.pciSlot) (hd : w.device? p = some d) (hcount : d.bars.barCount = 0) :
    ∃ i, fillDeviceBarDescriptions sys p w = .error (.linkBuffer i) := by
  obtain ⟨i, hi⟩ := h
  have hp : p ≠ 0 := Heap.ne_zero_of_get (World.device?_eq_some.1 hd)
  refine ⟨i, ?_⟩
  simp [fillDeviceBarDescriptions, hp, World.derefDevice_eq_ok.2 hd, hcount, hi, bind, Except.bind]

/-- Nothing in the table is invented exactly when a system call fails or start
and end of every BAR are read, on its own line where it exists. -/
theorem not_invented_iff {sys : BarSys} {p : Addr} {d : KernelDevice} {w : World}
    (hd : w.device? p = some d) : NotInvented sys p d w ↔ (d.bars.barCount = 0 →
      ¬LinkOverruns sys d.pciSlot ∧ (FillFails sys d.pciSlot w.space ∨ WellRead sys.text)) := by
  constructor
  · rintro ⟨ret, w', hfill, htext⟩ hcount
    have hruns : ¬LinkOverruns sys d.pciSlot := by
      intro hover
      obtain ⟨i, herr⟩ := hover.fill_error hd hcount
      rw [herr] at hfill
      cases hfill
    refine ⟨hruns, ?_⟩
    cases fill_ok hd hfill with
    | already hpos => omega
    | failed _ _ _ _ hfails => exact Or.inl hfails
    | filled =>
      obtain ⟨bars, -, hfrom⟩ := htext rfl hcount
      exact Or.inr hfrom.reads
  · intro hcond
    rcases fill_ends sys hd with ⟨hover, hcount, -⟩ | ⟨ret, w', hfill, -⟩
    · exact absurd hover (hcond hcount).1
    refine ⟨ret, w', hfill, ?_⟩
    rintro rfl hcount
    obtain ⟨dir, descs, bars, hfilled, hd', -⟩ := fill_success hd hcount hfill
    rcases (hcond hcount).2 with hfails | hread
    · exact absurd hfails hfilled.not_fails
    · exact ⟨bars, hd', hfilled.fromText hread⟩

/-- A device whose only BAR is number 1. -/
def BarSys.lines : BarSys :=
  .small "0 0 0\n1000 1fff 200\n0 0 0\n0 0 0\n0 0 0\n0 0 0\n".toList fun _ => 4096

theorem not_invented_lines : ∃ d, World.oneDevice.device? 16 = some d ∧
    NotInvented .lines 16 d .oneDevice := by
  refine ⟨_, rfl, (not_invented_iff rfl).2 fun _ => ⟨?_, Or.inr (by decide)⟩⟩
  rw [linkOverruns_iff]
  rintro ⟨target, htarget, hlen⟩
  cases htarget
  exact absurd hlen (by decide)

/-- The end of BAR 0 is no number, and the other lines are missing. -/
def BarSys.malformed : BarSys := .small "1000 zzz 200".toList fun _ => 4096

/-- BAR 0 is recorded with a length that no line gives. -/
theorem malformed_recorded : ∃ w' d d', World.oneDevice.device? 16 = some d ∧
    fillDeviceBarDescriptions .malformed 16 .oneDevice = .ok (cronoSuccess, w') ∧
    w'.device? 16 = some d' ∧ d'.bars.barCount = 1 ∧
    d'.bars.barDescs.get 0 = ⟨0, 0, 4096, 0x1000, 0xfffff001⟩ ∧
    ¬NotInvented .malformed 16 d .oneDevice := by
  refine ⟨_, _, _, rfl, rfl, rfl, rfl, rfl, ?_⟩
  rintro ⟨ret, w', hfill, htext⟩
  cases hfill
  obtain ⟨bars, -, hfrom⟩ := htext rfl rfl
  obtain ⟨start, stop, hr, -⟩ := hfrom.reads 0
  exact absurd hr.stop.1 (by decide)

end CronoPci
