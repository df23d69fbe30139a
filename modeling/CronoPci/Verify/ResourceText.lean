import CronoPci.Posix.Numerals
import CronoPci.Verify.BarNumbers

/-!
# The table of a well-formed `resource` file

The lines of a `resource` file are given by a grammar of their own: three
numbers in base 16, with or without a mark and in either case, and white space.
The extractions read six such lines back (`rowsFrom_text`), and the table filled
from them has the BARs that exist and nothing else, in the order of their
numbers (`bars_compacted`).
-/

namespace CronoPci

open Posix Posix.Text

/-! ## Well-formed lines -/

def Spaces (cs : List Char) : Prop := ∀ c ∈ cs, isSpace c = true

/-- The characters of a 64-bit number in base 16. -/
inductive HexText (v : UInt64) : List Char → Prop
  | plain {cs : List Char} {ds : List Nat} (hcs : IsDigits 16 cs ds) (hne : ds ≠ [])
      (hv : digitsValue 16 ds = v.toNat) : HexText v cs
  | marked {x : Char} {cs : List Char} {ds : List Nat} (hx : x = 'x' ∨ x = 'X')
      (hcs : IsDigits 16 cs ds) (hne : ds ≠ []) (hv : digitsValue 16 ds = v.toNat) :
      HexText v ('0' :: x :: cs)

/-- A line with the three numbers of `row`. -/
inductive ResourceLine (row : ResourceRow) : List Char → Prop
  | mk {s₀ start s₁ stop s₂ flags s₃ : List Char} (h₀ : Spaces s₀) (h₁ : Spaces s₁)
      (hne₁ : s₁ ≠ []) (h₂ : Spaces s₂) (hne₂ : s₂ ≠ []) (h₃ : Spaces s₃)
      (hstart : HexText row.startAddr start) (hstop : HexText row.endAddr stop)
      (hflags : HexText row.flags flags) :
      ResourceLine row (s₀ ++ start ++ (s₁ ++ stop ++ (s₂ ++ flags ++ s₃)))

/-- A text that begins with lines for `rows`. -/
inductive ResourceText : List ResourceRow → List Char → Prop
  | nil (rest : List Char) : ResourceText [] rest
  | cons {row : ResourceRow} {rows : List ResourceRow} {line rest : List Char}
      (hline : ResourceLine row line) (hrest : ResourceText rows rest) :
      ResourceText (row :: rows) (line ++ '\n' :: rest)

/-- A number as the kernel prints it, `"0x%016llx"`. -/
def kernelNumber (v : UInt64) : List Char := '0' :: 'x' :: printUnsigned false 16 16 v.toNat

/-- The file as the kernel prints it. -/
def kernelResource : List ResourceRow → List Char
  | [] => []
  | row :: rows => kernelNumber row.startAddr ++ ' ' :: (kernelNumber row.endAddr ++
      ' ' :: kernelNumber row.flags) ++ '\n' :: kernelResource rows

theorem hexText_kernelNumber (v : UInt64) : HexText v (kernelNumber v) := by
  unfold kernelNumber
  rw [printUnsigned_eq]
  exact .marked (Or.inl rfl) (isDigits_print false (by decide) fun d => digitsOf_lt (by decide))
    (digitsOf_ne_nil 16 16 _) (digitsValue_digitsOf 16 16 _)

/-- What the kernel prints is well formed. -/
theorem resourceText_kernelResource (rows : List ResourceRow) :
    ResourceText rows (kernelResource rows) := by
  have hspace : Spaces [' '] := by
    intro c hc
    rw [List.mem_singleton.1 hc]
    decide
  have hnil : Spaces [] := fun c hc => absurd hc List.not_mem_nil
  induction rows with
  | nil => exact .nil _
  | cons row rows ih =>
    refine .cons ?_ ih
    have hline := ResourceLine.mk hnil hspace (by simp) hspace (by simp) hnil
      (hexText_kernelNumber row.startAddr) (hexText_kernelNumber row.endAddr)
      (hexText_kernelNumber row.flags)
    simpa using hline

/-! ## Reading them -/

theorem Spaces.append {cs ds : List Char} (hcs : Spaces cs) (hds : Spaces ds) :
    Spaces (cs ++ ds) := by
  intro c hc
  rcases List.mem_append.1 hc with hc | hc
  · exact hcs c hc
  · exact hds c hc

theorem spaces_newline : Spaces ['\n'] := by
  intro c hc
  rw [List.mem_singleton.1 hc]
  decide

/-- White space ends a number. -/
theorem Spaces.stops {cs : List Char} (hcs : Spaces cs) (hne : cs ≠ []) (rest : List Char) :
    Stops 16 (cs ++ rest) := by
  obtain ⟨c, cs, rfl⟩ := List.exists_cons_of_ne_nil hne
  intro c' hc'
  obtain rfl : c = c' := by simpa using hc'
  have hspace := hcs c List.mem_cons_self
  refine ⟨?_, ?_, ?_⟩
  · cases hd : digitVal 16 c with
    | none => rfl
    | some d =>
      rw [(plain_of_digitVal hd).1] at hspace
      cases hspace
  · rintro rfl
    exact absurd hspace (by decide)
  · rintro rfl
    exact absurd hspace (by decide)

namespace HexText

variable {v : UInt64} {cs : List Char}

/-- A number begins with a character that is no white space. -/
theorem exists_head (h : HexText v cs) : ∃ c cs', cs = c :: cs' ∧ isSpace c = false := by
  cases h with
  | plain hcs hne =>
    cases hcs with
    | nil => exact absurd rfl hne
    | cons hd => exact ⟨_, _, rfl, (plain_of_digitVal hd).1⟩
  | marked => exact ⟨_, _, rfl, by decide⟩

theorem takeNumber_eq (h : HexText v cs) {rest : List Char} (hrest : Stops 16 rest) {width : Nat}
    (hw : cs.length ≤ width) :
    ∃ ds, ds ≠ [] ∧ digitsValue 16 ds = v.toNat ∧
      takeNumber 16 width (cs ++ rest) = (false, ds, rest) := by
  cases h with
  | plain hcs hne hv => exact ⟨_, hne, hv, takeNumber_digits hcs hne hw hrest⟩
  | marked hx hcs hne hv => exact ⟨_, hne, hv, takeNumber_marked hx hcs hw hrest⟩

/-- An extraction reads a number that follows white space. -/
theorem extract_eq (h : HexText v cs) {s rest : List Char} (hs : Spaces s)
    (hrest : Stops 16 rest) (u : UInt64) :
    HexStream.extract ⟨s ++ cs ++ rest, false⟩ u = (v, ⟨rest, false⟩) := by
  have hdrop : (s ++ cs ++ rest).dropWhile isSpace = cs ++ rest := by
    obtain ⟨c, cs', rfl, hc⟩ := h.exists_head
    rw [List.append_assoc, List.dropWhile_append_of_pos hs, List.cons_append,
      List.dropWhile_cons_of_neg (by simp [hc])]
  have hne : cs ++ rest ≠ [] := by
    obtain ⟨c, cs', rfl, -⟩ := h.exists_head
    simp
  have hw : cs.length ≤ (cs ++ rest).length := by
    rw [List.length_append]
    omega
  obtain ⟨ds, hds, hv, htake⟩ := h.takeNumber_eq hrest hw
  have hlt := v.toNat_lt
  simp only [HexStream.extract, Bool.false_eq_true, ↓reduceIte, hdrop, hne, htake, hds, hv,
    toUInt64Value, hlt, UInt64.ofNat_toNat, Nat.not_le.2 hlt, decide_false]

end HexText

/-- A line is read back, and reading goes on after white space. -/
theorem ResourceLine.readRow_eq {row : ResourceRow} {line : List Char} (h : ResourceLine row line)
    {s : List Char} (hs : Spaces s) (rest : List Char) (u : ResourceRow) :
    ∃ s', Spaces s' ∧ HexStream.readRow ⟨s ++ (line ++ '\n' :: rest), false⟩ u =
      (row, ⟨s' ++ rest, false⟩) := by
  obtain ⟨h₀, h₁, hne₁, h₂, hne₂, h₃, hstart, hstop, hflags⟩ := h
  rename_i s₀ start s₁ stop s₂ flags s₃
  refine ⟨s₃ ++ ['\n'], h₃.append spaces_newline, ?_⟩
  have hfirst := hstart.extract_eq (hs.append h₀)
    (h₁.stops hne₁ (stop ++ (s₂ ++ (flags ++ (s₃ ++ ['\n'] ++ rest))))) u.startAddr
  have hsecond := hstop.extract_eq h₁
    (h₂.stops hne₂ (flags ++ (s₃ ++ ['\n'] ++ rest))) u.endAddr
  have hthird := hflags.extract_eq h₂
    ((h₃.append spaces_newline).stops (by simp) rest) u.flags
  simp only [List.append_assoc, List.cons_append, List.nil_append] at hfirst hsecond hthird ⊢
  simp only [HexStream.readRow, hfirst, hsecond, hthird]

/-- Well-formed lines are read back, whatever the variables held before. -/
theorem rowsFrom_text {sys : BarSys} {rows : Fin 6 → ResourceRow} (ibars : List (Fin 6))
    {s text : List Char} (hs : Spaces s) (h : ResourceText (ibars.map rows) text) :
    rowsFrom sys ibars ⟨s ++ text, false⟩ = ibars.map fun ibar => (ibar, rows ibar) := by
  induction ibars generalizing s text with
  | nil => rfl
  | cons ibar ibars ih =>
    rw [List.map_cons] at h
    cases h with
    | @cons _ _ line rest hline hrest =>
      obtain ⟨s', hs', hrow⟩ := hline.readRow_eq hs rest (sys.uninit ibar)
      simp only [rowsFrom, hrow, List.map_cons, ih hs' hrest]

/-! ## The table -/

/-- The numbers of the BARs that exist, in order. -/
def existing (rows : Fin 6 → ResourceRow) : List (Fin 6) :=
  (List.finRange 6).filter fun ibar => ¬(rows ibar).Absent

theorem present_of_text {sys : BarSys} {rows : Fin 6 → ResourceRow}
    (h : ResourceText ((List.finRange 6).map rows) sys.text) :
    sys.present = (existing rows).map fun ibar => (ibar, rows ibar) := by
  have hrows : sys.rows = (List.finRange 6).map fun ibar => (ibar, rows ibar) :=
    rowsFrom_text (List.finRange 6) (s := []) (fun _ h => absurd h List.not_mem_nil) h
  unfold BarSys.present existing
  rw [hrows, List.filter_map]
  rfl

theorem mem_existing {rows : Fin 6 → ResourceRow} {ibar : Fin 6} :
    ibar ∈ existing rows ↔ ¬(rows ibar).Absent := by
  simp [existing]

theorem existing_pairwise (rows : Fin 6 → ResourceRow) : (existing rows).Pairwise (· < ·) :=
  (List.pairwise_lt_finRange 6).filter _

/-- The table lists the BARs that exist, in the order of their numbers: each
with the start of its line and with the region mapped for its file, and nothing
after them. -/
structure Compacted (rows : Fin 6 → ResourceRow) (dir : List Char) (bars : BarTable)
    (space : Space) : Prop where
  count : bars.barCount = (List.finRange 6).countP fun ibar => ¬(rows ibar).Absent
  numbers : ∀ ibar : Fin 6, (∃ j : Fin 6, (j : Nat) < bars.barCount ∧
    (bars.barDescs.get j).barNum = ibar) ↔ ¬(rows ibar).Absent
  increasing : ∀ j k : Fin 6, j < k → (k : Nat) < bars.barCount →
    (bars.barDescs.get j).barNum < (bars.barDescs.get k).barNum
  entry : ∀ j : Fin 6, (j : Nat) < bars.barCount → ∃ ibar : Fin 6,
    (bars.barDescs.get j).barNum = ibar ∧
    (bars.barDescs.get j).physicalAddress = (rows ibar).startAddr ∧
    ∃ m ∈ space.maps, m.start = (bars.barDescs.get j).userAddress ∧
      m.len = (bars.barDescs.get j).length.toNat ∧ m.source = resourceFile dir ibar
  tail : ∀ j : Fin 6, bars.barCount ≤ j → bars.barDescs.get j = .zero

theorem Filled.compacted {sys : BarSys} {d : KernelDevice} {w : World} {dir : List Char}
    {descs : List BarDesc} {bars : BarTable} {rows : Fin 6 → ResourceRow}
    (h : Filled sys d w dir descs bars)
    (htext : ResourceText ((List.finRange 6).map rows) sys.text) :
    Compacted rows dir bars (mapRows sys dir sys.rows w.space).2 := by
  have hpresent := present_of_text htext
  have hcount : bars.barCount = (existing rows).length := by
    rw [h.barCount_eq, hpresent, List.length_map]
  -- the entry at a position is that of the BAR at the same position of the list
  have hentry (j : Fin 6) (hj : (j : Nat) < bars.barCount) : ∃ ibar,
      (existing rows)[j.1]? = some ibar ∧ (bars.barDescs.get j).barNum = ibar ∧
        (bars.barDescs.get j).physicalAddress = (rows ibar).startAddr := by
    obtain ⟨r, hr, he⟩ := h.entry_row hj
    rw [hpresent, List.getElem?_map] at hr
    obtain ⟨ibar, hget, rfl⟩ := Option.map_eq_some_iff.1 hr
    exact ⟨ibar, hget, congrArg BarDesc.barNum he, congrArg BarDesc.physicalAddress he⟩
  refine ⟨?_, ?_, ?_, ?_, h.tail⟩
  · rw [hcount, List.countP_eq_length_filter]
    rfl
  · intro ibar
    rw [← mem_existing]
    constructor
    · rintro ⟨j, hj, hnum⟩
      obtain ⟨ibar', hget, hnum', -⟩ := hentry j hj
      obtain rfl : ibar' = ibar := Fin.ext (hnum'.symm.trans hnum)
      exact List.mem_of_getElem? hget
    · intro hmem
      obtain ⟨j, hj, hget⟩ := List.getElem_of_mem hmem
      have hj6 : j < 6 := Nat.lt_of_lt_of_le (hcount ▸ hj) bars.le
      obtain ⟨ibar', hget', hnum, -⟩ := hentry ⟨j, hj6⟩ (hcount ▸ hj)
      rw [List.getElem?_eq_getElem hj, hget, Option.some.injEq] at hget'
      exact ⟨⟨j, hj6⟩, hcount ▸ hj, hget' ▸ hnum⟩
  · intro j k hjk hk
    obtain ⟨a, ha, hnum, -⟩ := hentry j (Nat.lt_trans hjk hk)
    obtain ⟨b, hb, hnum', -⟩ := hentry k hk
    obtain ⟨hj', rfl⟩ := List.getElem?_eq_some_iff.1 ha
    obtain ⟨hk', rfl⟩ := List.getElem?_eq_some_iff.1 hb
    rw [hnum, hnum']
    exact List.pairwise_iff_getElem.1 (existing_pairwise rows) _ _ hj' hk' hjk
  · intro j hj
    obtain ⟨ibar, -, hnum, hphys⟩ := hentry j hj
    refine ⟨ibar, hnum, hphys, _, h.entry_mapped hj, rfl, rfl, ?_⟩
    simp only [BarDesc.mapping, hnum]

/-- A call that fills the table of a device from six well-formed lines. -/
theorem bars_compacted {sys : BarSys} {p : Addr} {d : KernelDevice} {w w' : World}
    {rows : Fin 6 → ResourceRow} (hd : w.device? p = some d) (hcount : d.bars.barCount = 0)
    (htext : ResourceText ((List.finRange 6).map rows) sys.text)
    (hfill : fillDeviceBarDescriptions sys p w = .ok (cronoSuccess, w')) :
    ∃ dir bars, DirectoryIs sys d.pciSlot dir ∧ w'.device? p = some { d with bars } ∧
      Compacted rows dir bars w'.space := by
  obtain ⟨dir, descs, bars, hfilled, hd', hspace⟩ := fill_success hd hcount hfill
  refine ⟨dir, bars, hfilled.directory, hd', ?_⟩
  rw [hspace]
  exact hfilled.compacted htext

/-- The lines of a device with BARs 1, 2 and 4. -/
def sparseRows (ibar : Fin 6) : ResourceRow :=
  if ibar.1 = 1 ∨ ibar.1 = 2 ∨ ibar.1 = 4 then
    ⟨4096 * ibar.1.toUInt64, 4096 * ibar.1.toUInt64 + 255, 512⟩
  else ⟨0, 0, 0⟩

/-- The `resource` file of that device. -/
def BarSys.sparse : BarSys :=
  .small (kernelResource ((List.finRange 6).map sparseRows)) fun ibar => 4096 * (ibar + 1)

theorem bars_compacted_sparse : ∃ w' dir bars,
    fillDeviceBarDescriptions .sparse 16 .oneDevice = .ok (cronoSuccess, w') ∧
      Compacted sparseRows dir bars w'.space := by
  have hok : (fillDeviceBarDescriptions .sparse 16 .oneDevice).map (fun r => r.1) =
      .ok cronoSuccess := by decide +kernel
  cases hfill : fillDeviceBarDescriptions .sparse 16 .oneDevice with
  | error e => rw [hfill] at hok; cases hok
  | ok r =>
    obtain ⟨ret, w'⟩ := r
    rw [hfill] at hok
    cases hok
    obtain ⟨dir, bars, -, -, h⟩ := bars_compacted (w := .oneDevice) rfl rfl
      (resourceText_kernelResource _) hfill
    exact ⟨w', dir, bars, rfl, h⟩

end CronoPci
