import CodeWeave.Disk.Project
import CodeWeave.Proofs.Disk.Tree

/-!
# Generated files stay below their directory

The paths of generated files are not trusted. Writing a file reads its path once, resolves
it against the output directory, and either passes it over or writes at its place:

> `Written`: what writing one file does to the files of a disk. `writeBelow_written` says
so for every path.

> `file?_writeAll`: after all files, a location holds the content of the last file that
> was accepted for it, and what it held before if there is none. A fault on the way leaves
> every other location as it was.

> `saveFiles_contained`: whatever the paths are and however writing ends, only places
> below the output directory change; if it does not fail, the paths that are given back
> are those that were written.

A path that goes up is passed over also where it would lead to a place below the
directory, so it does not count as the last one for that place: `path_up_passed_over`.
-/

namespace CodeWeave

open Text

/-! ## Where a path leads -/

namespace Location

variable {base : Location} {path : Text}

/-- However often a path goes up, it leads to a place that is given without going up. -/
theorem Plain.resolve (h : base.Plain) (path : Text) : (resolve base path).Plain := by
  unfold Location.resolve
  have hstart : Plain (if Path.isAbsolute path then [] else base) := by
    split
    next => exact fun _ hc => nomatch hc
    next => exact h
  generalize (if Path.isAbsolute path then [] else base) = l at hstart
  induction Path.components path generalizing l with
  | nil => exact hstart
  | cons c cs ih =>
    rw [List.foldl_cons]
    by_cases hc : c = ['.', '.']
    · rw [if_pos hc]
      exact ih _ (hstart.of_prefix (List.dropLast_prefix l))
    · rw [if_neg hc]
      refine ih _ fun e he => ?_
      rcases List.mem_append.mp he with he | he
      · exact hstart e he
      · rwa [List.mem_singleton.mp he]

/-- A path that does not go up leads to its components, one after another. -/
theorem resolve_of_not_goesUp (h : Disk.goesUp path = false) (base : Location) :
    resolve base path =
      (if Path.isAbsolute path then [] else base) ++ Path.components path := by
  unfold resolve
  have hplain : Plain (Path.components path) := by
    intro c hc hup
    rw [Disk.goesUp, List.contains_iff_mem.mpr (hup ▸ hc)] at h
    exact Bool.noConfusion h
  generalize (if Path.isAbsolute path then [] else base) = l
  generalize Path.components path = cs at hplain ⊢
  induction cs generalizing l with
  | nil => exact (List.append_nil l).symm
  | cons c cs ih =>
    rw [List.foldl_cons, if_neg (hplain c List.mem_cons_self),
      ih _ (fun e he => hplain e (List.mem_cons_of_mem c he)), List.append_assoc,
        List.singleton_append]

end Location

namespace Disk

/-- The home directories are given without going up. -/
structure Homes.Plain (h : Homes) : Prop where
  own : h.own.Plain
  others : ∀ a ∈ h.others, a.2.Plain

theorem Homes.Plain.of? {h : Homes} (hh : h.Plain) {name : Text} {l : Location}
    (hl : h.of? name = some l) : l.Plain := by
  unfold Homes.of? at hl
  split at hl
  next => exact Option.some.inj hl ▸ hh.own
  next =>
    obtain ⟨a, ha, rfl⟩ := Option.map_eq_some_iff.mp hl
    exact hh.others a (List.mem_of_find?_eq_some ha)

/-- The program stands at locations that are given without going up. -/
structure Standing.Plain (s : Standing) : Prop where
  home : s.home.Plain
  current : s.current.Plain

theorem outputLocation_plain {s : Standing} {root : Location} {path : Text} (hs : s.Plain)
    (h : outputLocation s path = .ok root) : root.Plain := by
  unfold outputLocation at h
  dsimp only at h
  split at h
  next => exact nomatch h
  next l hplace =>
    have hl : l.Plain := by
      split at hplace
      next =>
        split at hplace
        next => exact Except.ok.inj hplace ▸ hs.current.resolve _
        next =>
          split at hplace
          next home hhome => exact Except.ok.inj hplace ▸ (hs.home.of? hhome).resolve _
          next => exact nomatch hplace
      next => exact Except.ok.inj hplace ▸ hs.current.resolve _
    split at h
    next => exact nomatch h
    next => exact Except.ok.inj h ▸ hl

/-! ## One file -/

/-- The place that a generated file names below an output directory. -/
def placeOf (root : Location) (file : ProjectFile) : Location :=
  Location.resolve root file.path.toList

/-- The path of a file does not go up, and it leads to the output
directory or below it. -/
def isAccepted (root : Location) (file : ProjectFile) : Bool :=
  !goesUp file.path.toList && isBelow root (placeOf root file)

section Writing

variable {d d' : Disk} {root l : Location}

theorem writeFile_ok (hl : l.Plain) {bytes : List UInt8}
    (h : d.writeFile l bytes = .ok d') :
    l ≠ [] ∧ d' = d.put l (.file bytes) := by
  induction l using List.reverseRecOn with
  | nil => exact nomatch h
  | append_singleton p c _ =>
    exact ⟨List.append_ne_nil_of_right_ne_nil p (List.cons_ne_nil c []),
      ((writeFile_eq_ok_iff hl).mp h).2.2.2⟩

/-- What writing a file does: it fails and changes no file, it passes the file over, or it
writes the file's content at its place and nothing else. -/
inductive Written (d : Disk) (root : Location) (file : ProjectFile) :
    Disk × Except DiskFault Bool → Prop where
  | failed {d' : Disk} (f : DiskFault) (kept : ∀ l, d'.file? l = d.file? l) :
      Written d root file (d', .error f)
  | passedOver (rejected : isAccepted root file = false) :
      Written d root file (d, .ok false)
  | stored {d' : Disk} (accepted : isAccepted root file = true)
      (stored : ∀ l, d'.file? l =
        if placeOf root file = l then some (utf8 file.content) else d.file? l) :
      Written d root file (d', .ok true)

/-- An accepted file is written into its directory, which is made first. -/
theorem writeBelow_of_accepted {file : ProjectFile} (h : isAccepted root file = true)
    (hnull : '\x00' ∉ file.path.toList) (d : Disk) :
    writeBelow d root file = match d.ensureDirectory (placeOf root file).dropLast with
      | (d, some f) => (d, .error f)
      | (d, none) => match d.writeFile (placeOf root file) (utf8 file.content) with
        | .ok d => (d, .ok true)
        | .error f => (d, .error f) := by
  rw [isAccepted, Bool.and_eq_true, Bool.not_eq_true', placeOf] at h
  unfold writeBelow
  dsimp only
  rw [if_neg (Bool.eq_false_iff.mp h.1), if_neg hnull]
  exact if_neg (by simpa using h.2)

theorem writeBelow_of_null {file : ProjectFile} (hup : goesUp file.path.toList = false)
    (hnull : '\x00' ∈ file.path.toList) (d : Disk) :
    writeBelow d root file = (d, .error .nullInPath) := by
  unfold writeBelow
  dsimp only
  rw [if_neg (Bool.eq_false_iff.mp hup), if_pos hnull]

theorem writeBelow_written (hroot : root.Plain) (d : Disk) (file : ProjectFile) :
    Written d root file (writeBelow d root file) := by
  by_cases hwritable : isAccepted root file = true ∧ '\x00' ∉ file.path.toList
  · obtain ⟨haccepted, hnull⟩ := hwritable
    rw [writeBelow_of_accepted haccepted hnull]
    have hplain : (placeOf root file).Plain := hroot.resolve file.path.toList
    -- the directories above come first; they change no file, whether they
    -- can be made or not
    have hpaved := paved_ensureDirectory (hplain.of_prefix (List.dropLast_prefix _)) d
    generalize d.ensureDirectory (placeOf root file).dropLast = made at hpaved ⊢
    rcases made with ⟨paved, _ | f⟩
    · cases hwrite : paved.writeFile (placeOf root file) (utf8 file.content) with
      | error f =>
        dsimp only
        rw [hwrite]
        exact .failed f hpaved.file?
      | ok d' =>
        dsimp only
        rw [hwrite]
        obtain ⟨hne, rfl⟩ := writeFile_ok hplain hwrite
        refine .stored haccepted fun l => ?_
        rw [file?_put hne, hpaved.file?]
        exact if_congr eq_comm rfl rfl
    · exact .failed f hpaved.file?
  · by_cases hup : goesUp file.path.toList = true
    · unfold writeBelow
      dsimp only
      rw [if_pos hup]
      exact .passedOver (by rw [isAccepted, hup, Bool.not_true, Bool.false_and])
    by_cases hnull : '\x00' ∈ file.path.toList
    · rw [writeBelow_of_null (Bool.eq_false_iff.mpr hup) hnull]
      exact .failed _ fun _ => rfl
    have hrejected : isAccepted root file = false :=
      Bool.eq_false_iff.mpr fun haccepted => hwritable ⟨haccepted, hnull⟩
    have hout : isBelow root (Location.resolve root file.path.toList) = false := by
      simpa [isAccepted, placeOf, hup] using hrejected
    unfold writeBelow
    dsimp only
    rw [if_neg hup, if_neg hnull, if_pos (by rw [hout]; rfl)]
    exact .passedOver hrejected

/-! ## All files -/

/-- The file that decides what a location holds: the last one that is accepted
and leads there. -/
def lastAt (root : Location) (files : List ProjectFile) (l : Location) :
    Option ProjectFile :=
  (files.filter fun f => isAccepted root f && placeOf root f == l).getLast?

theorem lastAt_cons (root : Location) (f : ProjectFile) (fs : List ProjectFile)
    (l : Location) :
    lastAt root (f :: fs) l =
      (lastAt root fs l).or (if isAccepted root f ∧ placeOf root f = l then some f
        else none) := by
  unfold lastAt
  by_cases h : isAccepted root f ∧ placeOf root f = l
  · rw [List.filter_cons_of_pos (by simpa using h), if_pos h, List.getLast?_cons]
    cases (fs.filter fun f => isAccepted root f && placeOf root f == l).getLast? <;> rfl
  · rw [List.filter_cons_of_neg (by simpa using h), if_neg h, Option.or_none]

/-- For the place of an accepted file there is a last one. -/
theorem lastAt_isSome {files : List ProjectFile} {f : ProjectFile} (hf : f ∈ files)
    (h : isAccepted root f = true) :
    ∃ g, lastAt root files (placeOf root f) = some g := by
  have hmem :
      f ∈ files.filter fun g => isAccepted root g && placeOf root g == placeOf root f :=
    List.mem_filter.mpr ⟨hf, by simp [h]⟩
  exact ⟨_, List.getLast?_eq_some_getLast (List.ne_nil_of_mem hmem)⟩

/-- What a location holds after files were written over what was there. -/
def contentAfter (d : Disk) (root : Location) (files : List ProjectFile) (l : Location) :
    Option (List UInt8) :=
  ((lastAt root files l).map fun f => utf8 f.content).or (d.file? l)

/-- Without a fault, each location holds the last content that it was given. -/
theorem file?_writeAll (hroot : root.Plain) {files : List ProjectFile}
    {paths : List String} (h : writeAll d root files = (d', .ok paths)) :
    paths = (files.filter (isAccepted root)).map (·.path) ∧
      ∀ l, d'.file? l = contentAfter d root files l := by
  induction files generalizing d paths with
  | nil =>
    cases h
    exact ⟨rfl, fun _ => rfl⟩
  | cons f fs ih =>
    unfold writeAll at h
    have hwritten := writeBelow_written hroot d f
    generalize writeBelow d root f = r at h hwritten
    cases hwritten with
    | failed => exact nomatch h
    | passedOver hrejected =>
      dsimp only at h
      rcases hrest : writeAll d root fs with ⟨d'', _ | paths'⟩
      · rw [hrest] at h
        exact nomatch h
      · rw [hrest] at h
        cases h
        obtain ⟨hpaths, hfile⟩ := ih hrest
        refine ⟨?_, fun l => ?_⟩
        · rw [List.filter_cons_of_neg (by simp [hrejected])]
          exact hpaths
        · rw [hfile, contentAfter, contentAfter, lastAt_cons,
            if_neg (by simp [hrejected]),
            Option.or_none]
    | @stored d₁ haccepted hstored =>
      dsimp only at h
      rcases hrest : writeAll d₁ root fs with ⟨d'', _ | paths'⟩
      · rw [hrest] at h
        exact nomatch h
      · rw [hrest] at h
        cases h
        obtain ⟨hpaths, hfile⟩ := ih hrest
        refine ⟨?_, fun l => ?_⟩
        · rw [List.filter_cons_of_pos haccepted, List.map_cons, ← hpaths]
          rfl
        · rw [hfile, contentAfter, contentAfter, hstored, lastAt_cons]
          cases lastAt root fs l with
          | some g => rfl
          | none =>
            by_cases hl : placeOf root f = l
            · rw [if_pos hl, if_pos ⟨haccepted, hl⟩]
              rfl
            · rw [if_neg hl, if_neg (fun h => hl h.2)]
              rfl

/-- However writing ends, what has changed is the place of an accepted file. -/
theorem place_of_changed (hroot : root.Plain) {files : List ProjectFile}
    (h : (writeAll d root files).1.file? l ≠ d.file? l) :
    ∃ f ∈ files, isAccepted root f = true ∧ placeOf root f = l := by
  induction files generalizing d with
  | nil => exact absurd rfl h
  | cons f fs ih =>
    unfold writeAll at h
    have hwritten := writeBelow_written hroot d f
    generalize writeBelow d root f = r at h hwritten
    cases hwritten with
    | failed _ hkept => exact absurd (hkept l) h
    | passedOver =>
      dsimp only at h
      have hrest : (writeAll d root fs).1.file? l ≠ d.file? l := by
        rcases hr : writeAll d root fs with ⟨d'', _ | paths⟩ <;> rw [hr] at h <;> exact h
      obtain ⟨g, hg, hplace⟩ := ih hrest
      exact ⟨g, List.mem_cons_of_mem f hg, hplace⟩
    | @stored d₁ haccepted hstored =>
      dsimp only at h
      by_cases hl : placeOf root f = l
      · exact ⟨f, List.mem_cons_self, haccepted, hl⟩
      · have hrest : (writeAll d₁ root fs).1.file? l ≠ d₁.file? l := by
          rw [hstored l, if_neg hl]
          rcases hr : writeAll d₁ root fs with ⟨d'', _ | paths⟩ <;>
            rw [hr] at h <;> exact h
        obtain ⟨g, hg, hplace⟩ := ih hrest
        exact ⟨g, List.mem_cons_of_mem f hg, hplace⟩

/-! ## The output directory -/

/-- Whatever the paths of the files are, and also if writing fails on the way: what has
changed is at the place of an accepted file, which is the output directory or below it. If
nothing fails, the paths that are given back are those of the accepted files, in order,
and the place of each of them holds the content of the last of them that leads there. -/
theorem saveFiles_contained {s : Standing} (hs : s.Plain) (d : Disk)
    (files : List ProjectFile) (outputDir : String) :
    (∀ l, (saveFiles d s files outputDir).1.file? l ≠ d.file? l →
      ∃ root, outputLocation s outputDir.toList = .ok root ∧ isBelow root l = true ∧
        ∃ f ∈ files, isAccepted root f = true ∧ placeOf root f = l) ∧
    ∀ paths, (saveFiles d s files outputDir).2 = .ok paths →
      ∃ root, outputLocation s outputDir.toList = .ok root ∧
        paths = (files.filter (isAccepted root)).map (·.path) ∧
        ∀ f ∈ files, isAccepted root f = true → ∃ g,
          lastAt root files (placeOf root f) = some g ∧
          (saveFiles d s files outputDir).1.file? (placeOf root f) =
            some (utf8 g.content) := by
  unfold saveFiles
  cases hroot : outputLocation s outputDir.toList with
  | error f => exact ⟨fun l h => absurd rfl h, fun paths h => nomatch h⟩
  | ok root =>
    have hplain := outputLocation_plain hs hroot
    constructor
    · intro l h
      obtain ⟨f, hf, haccepted, hplace⟩ := place_of_changed hplain h
      have hbelow := (Bool.and_eq_true _ _).mp haccepted |>.2
      exact ⟨root, rfl, hplace ▸ hbelow, f, hf, haccepted, hplace⟩
    · intro paths h
      obtain ⟨hpaths, hfile⟩ := file?_writeAll hplain (Prod.ext rfl h)
      refine ⟨root, rfl, hpaths, fun f hf haccepted => ?_⟩
      obtain ⟨g, hg⟩ := lastAt_isSome hf haccepted
      refine ⟨g, hg, ?_⟩
      show (writeAll d root files).1.file? (placeOf root f) = _
      rw [hfile, contentAfter, hg]
      rfl

/-- Two paths for one file in the home directory of an account, and one that leads out:
the first two are written, the later one stays. -/
theorem saveFiles_contained_same_place :
    let s : Standing :=
      ⟨⟨["h".toList], [("ann".toList, ["home".toList, "ann".toList])]⟩, ["w".toList]⟩
    let files : List ProjectFile :=
      [{ name := "a", path := "a", content := ['1'] },
        { name := "b", path := "../b", content := ['2'] },
        { name := "a", path := ".//a", content := ['3'] }]
    s.Plain ∧ ∃ root, outputLocation s "~ann/out".toList = .ok root ∧
      ["a", ".//a"] = (files.filter (isAccepted root)).map (·.path) ∧
      ∀ f ∈ files, isAccepted root f = true → ∃ g,
        lastAt root files (placeOf root f) = some g ∧
        (saveFiles ⟨[]⟩ s files "~ann/out").1.file? (placeOf root f) =
          some (utf8 g.content) := by
  intro s files
  have hs : s.Plain := ⟨⟨by decide +kernel, by decide +kernel⟩, by decide +kernel⟩
  have hpaths : (saveFiles ⟨[]⟩ s files "~ann/out").2 = .ok ["a", ".//a"] := by
    decide +kernel
  exact ⟨hs, (saveFiles_contained hs ⟨[]⟩ files "~ann/out").2 _ hpaths⟩

/-- A path that goes up is passed over also where it would lead to the place of another
file: that file keeps the content that it was given before. -/
theorem path_up_passed_over :
    let s : Standing := ⟨["h".toList], ["w".toList]⟩
    let root : Location := ["w".toList, "out".toList]
    let first : ProjectFile := { name := "a.txt", path := "a.txt", content := ['1'] }
    let second : ProjectFile :=
      { name := "a.txt", path := "x/../a.txt", content := ['2'] }
    outputLocation s "out".toList = .ok root ∧ placeOf root second = placeOf root first ∧
      (saveFiles ⟨[]⟩ s [first, second] "out").2 = .ok ["a.txt"] ∧
      (saveFiles ⟨[]⟩ s [first, second] "out").1.file? (placeOf root first) =
        some (utf8 first.content) ∧
      utf8 first.content ≠ utf8 second.content := by
  decide +kernel

end Writing

end Disk

end CodeWeave
