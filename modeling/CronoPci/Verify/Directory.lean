import CronoPci.Model.Sysfs

/-!
# The directory of a device

`resolve` says what a relative link stands for: each leading `../` goes one
directory up from the one that holds the link. The code skips nine characters
and puts `/sys/` before the rest, which is the same for the links of
`/sys/bus/pci/devices` (`resolve_link`). The buffer that takes the link has no
place for the terminator of a link as long as the buffer.
-/

namespace CronoPci

open Posix Posix.Text

/-! ## What a link stands for -/

/-- The directory that holds `dir`. -/
def parentDir (dir : List Char) : List Char :=
  ((dir.reverse.dropWhile (· ≠ '/')).drop 1).reverse

/-- A target of a link in `dir`. -/
def resolve (dir : List Char) : List Char → List Char
  | '.' :: '.' :: '/' :: rest => resolve (parentDir dir) rest
  | rest => dir ++ '/' :: rest

/-- A target that goes no further up. -/
theorem resolve_of_not_up {dir path : List Char} (h : ¬"..".toList <:+: path) :
    resolve dir path = dir ++ '/' :: path := by
  unfold resolve
  split
  · next rest =>
    refine absurd (List.IsPrefix.isInfix ?_) h
    exact ⟨'/' :: rest, rfl⟩
  · rfl

/-- A target three directories up from `/sys/bus/pci/devices`. -/
theorem resolve_link {path : List Char} (h : ¬"..".toList <:+: path) :
    resolve sysBusPcidevsPath ("../../../".toList ++ path) = "/sys/".toList ++ path :=
  calc resolve sysBusPcidevsPath ("../../../".toList ++ path)
    _ = resolve (parentDir (parentDir (parentDir sysBusPcidevsPath))) path := by
      simp [resolve]
    _ = resolve "/sys".toList path := by
      rw [show parentDir (parentDir (parentDir sysBusPcidevsPath)) = "/sys".toList by decide]
    _ = "/sys/".toList ++ path := by
      rw [resolve_of_not_up h]
      rfl

/-! ## What the code makes of it -/

/-- The call returns an error, or the directory that the link stands for, which
fits the caller's buffer of `PATH_MAX - 11` bytes with its terminator. A store
past the buffer of the link is a fault. -/
def ResolvesLink (readlink : List Char → Except Errno (List Char)) (linkBuf : List Char)
    (s : PciSlot) (target : List Char) : Prop :=
  ∃ r, cronoGetSysDevicesDirectoryPath readlink linkBuf s = .ok r ∧
    ∀ pPath, r = .ok pPath →
      pPath = resolve sysBusPcidevsPath target ∧ pPath.length + 1 ≤ pathMax - 11

theorem cString_append_nul {cs : List Char} (h : nul ∉ cs) (rest : List Char) :
    cString (cs ++ nul :: rest) = cs := by
  unfold cString
  have hall : ∀ c ∈ cs, decide (c ≠ nul) = true := by
    intro c hc
    rw [decide_eq_true_eq]
    rintro rfl
    exact h hc
  rw [List.takeWhile_append_of_pos hall, List.takeWhile_cons_of_neg (by simp), List.append_nil]

section Link

variable {readlink : List Char → Except Errno (List Char)} {linkBuf : List Char} {s : PciSlot}
  {path : List Char}

/-- A link that leaves room for the terminator. -/
theorem directoryPath_of_short
    (hlink : readlink (constructDevSlinkPath s) = .ok ("../../../".toList ++ path))
    (hnul : nul ∉ path) (hlen : ("../../../".toList ++ path).length < pathMax - 16) :
    cronoGetSysDevicesDirectoryPath readlink linkBuf s = .ok (.ok ("/sys/".toList ++ path)) := by
  unfold cronoGetSysDevicesDirectoryPath
  rw [hlink]
  have htake : ("../../../".toList ++ path).take (pathMax - 16) = "../../../".toList ++ path :=
    List.take_of_length_le (Nat.le_of_lt hlen)
  simp only [htake, hlen, ↓reduceIte, Except.ok.injEq]
  have hdrop (rest : List Char) :
      ("../../../".toList ++ path ++ nul :: rest).drop 9 = path ++ nul :: rest := by
    rw [List.append_assoc]
    exact List.drop_left' (by decide)
  rw [hdrop, cString_append_nul hnul]

/-- A link that fills the buffer. -/
theorem directoryPath_of_long {target : List Char}
    (hlink : readlink (constructDevSlinkPath s) = .ok target)
    (hlen : pathMax - 16 ≤ target.length) :
    cronoGetSysDevicesDirectoryPath readlink linkBuf s = .error (.linkBuffer (pathMax - 16)) := by
  have htake : (target.take (pathMax - 16)).length = pathMax - 16 :=
    List.length_take_of_le hlen
  unfold cronoGetSysDevicesDirectoryPath
  simp only [hlink, htake, Nat.lt_irrefl, ↓reduceIte]

/-- A link of the form that the kernel makes is resolved within the buffers
exactly when it cannot be read or leaves room for the terminator. -/
theorem link_resolved_iff (hup : ¬"..".toList <:+: path) (hnul : nul ∉ path)
    (hlink : ∀ target, readlink (constructDevSlinkPath s) = .ok target →
      target = "../../../".toList ++ path) :
    ResolvesLink readlink linkBuf s ("../../../".toList ++ path) ↔
      (∃ e, readlink (constructDevSlinkPath s) = .error e) ∨
        ("../../../".toList ++ path).length < pathMax - 16 := by
  unfold ResolvesLink
  rw [resolve_link hup]
  cases hread : readlink (constructDevSlinkPath s) with
  | error e =>
    refine iff_of_true ⟨.error e.code, ?_, fun _ h => by cases h⟩ (Or.inl ⟨e, rfl⟩)
    unfold cronoGetSysDevicesDirectoryPath
    rw [hread]
  | ok target =>
    obtain rfl := hlink target hread
    by_cases hlen : ("../../../".toList ++ path).length < pathMax - 16
    · refine iff_of_true ⟨_, directoryPath_of_short hread hnul hlen, ?_⟩ (Or.inr hlen)
      intro pPath h
      cases h
      refine ⟨rfl, ?_⟩
      have hsys : "/sys/".toList.length = 5 := by decide
      have hup : "../../../".toList.length = 9 := by decide
      simp only [List.length_append, hsys, hup, pathMax] at hlen ⊢
      omega
    · refine iff_of_false ?_ ?_
      · rintro ⟨r, hr, -⟩
        rw [directoryPath_of_long hread (Nat.le_of_not_lt hlen)] at hr
        cases hr
      · rintro (⟨e, he⟩ | h)
        · cases he
        · exact hlen h

end Link

/-- The link of a device behind two bridges. -/
theorem link_resolved_bridges : ResolvesLink
    (fun _ => .ok ("../../../".toList ++ "devices/pci0000:00/0000:00:1c.7/0000:03:00.0".toList)) []
    ⟨0, 3, 0, 0⟩ ("../../../".toList ++ "devices/pci0000:00/0000:00:1c.7/0000:03:00.0".toList) :=
  (link_resolved_iff (by decide) (by decide) fun target h => by cases h; rfl).2
    (Or.inr (by decide))

/-- A path of 4071 characters. -/
def longPath : List Char := List.replicate 4071 'd'

/-- The link of 4080 bytes is read in full, and its terminator stored past the
end of the buffer. -/
theorem link_overruns : longPath ≠ [] ∧ ¬"..".toList <:+: longPath ∧
    cronoGetSysDevicesDirectoryPath (fun _ => .ok ("../../../".toList ++ longPath)) []
      ⟨0, 3, 0, 0⟩ = .error (.linkBuffer 4080) ∧
    ¬ResolvesLink (fun _ => .ok ("../../../".toList ++ longPath)) [] ⟨0, 3, 0, 0⟩
      ("../../../".toList ++ longPath) := by
  have hpath : longPath.length = 4071 := List.length_replicate
  have hover : cronoGetSysDevicesDirectoryPath
      (fun _ => .ok ("../../../".toList ++ longPath)) [] ⟨0, 3, 0, 0⟩ = .error (.linkBuffer 4080) :=
    directoryPath_of_long rfl (by rw [List.length_append, hpath]; decide)
  refine ⟨?_, ?_, hover, ?_⟩
  · intro he
    rw [he] at hpath
    cases hpath
  · intro hup
    have hdot : '.' ∈ longPath := hup.subset (by decide)
    exact absurd (List.eq_of_mem_replicate hdot) (by decide)
  · rintro ⟨r, hr, -⟩
    rw [hover] at hr
    cases hr

end CronoPci
