import CodeWeave.Proofs.Disk.Containment
import CodeWeave.Proofs.Text.Utf8
import Mathlib.Data.List.Basic

/-!
# Projects that are written and read again

A project is written to disk file by file, and read back by walking over what lies below
its directory. In a fresh directory, and for paths of ordinary components of which none
leads to another or through it, each file has a place of its own:

> `Filled`: below the directory there are the written files and the directories on the way
> to them. `Filled.writeBelow` adds one file, and `writeAll_filled` all of them.

> `readProject_filled`: such a directory is read as its files, in the order of their
> components, with every line break as a line feed.

The last point is the only one in which a project is read differently from
how it was written:

> `readBack_iff`: the project is read back exactly if no content has a carriage return and
> the disk can hold the paths.
-/

namespace CodeWeave

open Text

namespace Disk

variable {d d' : Disk} {root : Location} {f : ProjectFile} {files done : List ProjectFile}

/-! ## Ordinary paths -/

/-- The names that the path of a file is made of. -/
def parts (file : ProjectFile) : Location := file.path.toList.splitOn '/'

/-- A relative path without empty or hidden names. A name that leads up
counts as hidden. -/
def IsOrdinary (file : ProjectFile) : Prop :=
  ∀ c ∈ parts file, c ≠ [] ∧ isHidden c = false

theorem components_eq_parts (hf : IsOrdinary f) :
    Path.components f.path.toList = parts f := by
  refine List.filter_eq_self.mpr fun c hc => ?_
  obtain ⟨hne, hvisible⟩ := hf c hc
  have hdot : c ≠ ['.'] := by
    rintro rfl
    exact Bool.noConfusion hvisible
  simp [hne, hdot]

theorem isAbsolute_eq_false (hf : IsOrdinary f) :
    Path.isAbsolute f.path.toList = false := by
  unfold IsOrdinary parts at hf
  cases hpath : f.path.toList with
  | nil => rfl
  | cons c cs =>
    by_cases hc : c = '/'
    · have hempty : [] ∈ (c :: cs).splitOn '/' := by
        rw [List.splitOn, List.splitOnP_cons_eq_if_modifyHead, if_pos (beq_iff_eq.mpr hc)]
        exact List.mem_cons_self
      exact absurd rfl (hf [] (hpath ▸ hempty)).1
    · simpa [Path.isAbsolute] using hc

theorem goesUp_eq_false (hf : IsOrdinary f) : goesUp f.path.toList = false := by
  rw [goesUp, components_eq_parts hf, Bool.eq_false_iff]
  intro hup
  exact Bool.noConfusion (hf _ (List.contains_iff_mem.mp hup)).2

/-- An ordinary file has its place below the root, at the parts of its path. -/
theorem placeOf_eq (hf : IsOrdinary f) (root : Location) :
    placeOf root f = root ++ parts f := by
  rw [placeOf, Location.resolve_of_not_goesUp (goesUp_eq_false hf),
    components_eq_parts hf, isAbsolute_eq_false hf]
  rfl

/-- An ordinary file is accepted. -/
theorem isAccepted_of_ordinary (hf : IsOrdinary f) (root : Location) :
    isAccepted root f = true := by
  rw [isAccepted, goesUp_eq_false hf, placeOf_eq hf, isBelow]
  exact List.isPrefixOf_iff_prefix.mpr (List.prefix_append root _)

/-- Neither path leads to the other one or through it. -/
def Apart (f g : ProjectFile) : Prop := ¬ parts f <+: parts g ∧ ¬ parts g <+: parts f

/-- Files that can be published together: their paths are ordinary and distinct, and none
is a directory of another. -/
structure Publishable (files : List ProjectFile) : Prop where
  ordinary : ∀ f ∈ files, IsOrdinary f
  distinct : (files.map (·.path)).Nodup
  apart : ∀ f ∈ files, ∀ g ∈ files, parts f <+: parts g → f.path = g.path

theorem Publishable.pairwise (h : Publishable files) : files.Pairwise Apart := by
  refine (List.pairwise_map.mp h.distinct).imp_of_mem fun {f g} hf hg hne => ⟨?_, ?_⟩
  · exact fun hfg => hne (h.apart f hf g hg hfg)
  · exact fun hgf => hne (h.apart g hg f hf hgf).symm

/-- The disk can hold a file with this path below the directory. -/
structure Fits (root : Location) (file : ProjectFile) : Prop where
  null : '\x00' ∉ file.path.toList
  names : ∀ c ∈ placeOf root file, isTooLong c = false
  short : (utf8 (placeOf root file).path).length ≤ maxPathBytes

/-! ## A directory with files -/

/-- The directory is not there yet or is empty, and no file stands on the way to it. -/
structure Fresh (d : Disk) (root : Location) : Prop where
  clear : ∀ p, p <+: root → d.file? p = none
  empty : ∀ e ∈ d.entries, root <+: e.1 → e = (root, .directory)

/-- Below the directory there are the files that are done and the directories on the way
to them, and nothing else. -/
structure Filled (d : Disk) (root : Location) (done : List ProjectFile) : Prop where
  clear : ∀ p, p <+: root → d.file? p = none
  files : d.files.filter (isBelow root ·.1) = done.map fun f =>
    (root ++ parts f, utf8 f.content)
  stored : ∀ l, root <+: l → d.file? l ≠ none → ∃ f ∈ done, l = root ++ parts f
  occupied : ∀ l, root <+: l → d.entry? l ≠ none → l = root ∨ ∃ f ∈ done,
    l <+: root ++ parts f
  directories : done ≠ [] → ∀ p, p <+: root → d.hasDirectory p = true

theorem mem_files {l : Location} {bytes : List UInt8} (h : (l, bytes) ∈ d.files) :
    (l, .file bytes) ∈ d.entries := by
  obtain ⟨⟨m, e⟩, hmem, he⟩ := List.mem_filterMap.mp h
  cases e with
  | directory => exact nomatch he
  | file b =>
    cases he
    exact hmem

theorem Fresh.entry?_eq_none (h : Fresh d root) {l : Location} (hl : root <+: l)
    (hne : l ≠ root) :
    d.entry? l = none := by
  refine entry?_eq_none_iff.mpr ⟨?_, fun e he hel => ?_⟩
  · rintro rfl
    exact hne (List.prefix_nil.mp hl).symm
  · exact hne (hel.symm.trans (congrArg Prod.fst (h.empty e he (hel ▸ hl))))

theorem fresh_nil (root : Location) : Fresh ⟨[]⟩ root where
  clear p _ := by
    refine file?_eq_none_iff.mpr ?_
    by_cases hp : p = []
    · exact Or.inr (hp ▸ entry?_nil _)
    · exact Or.inl (entry?_eq_none_iff.mpr ⟨hp, fun _ he => nomatch he⟩)
  empty _ he := nomatch he

/-- A fresh directory is filled with no files. -/
theorem Fresh.filled (h : Fresh d root) : Filled d root [] where
  clear := h.clear
  files := by
    refine List.filter_eq_nil_iff.mpr fun ⟨l, bytes⟩ hmem hbelow => ?_
    have := h.empty _ (mem_files hmem) (List.isPrefixOf_iff_prefix.mp hbelow)
    exact nomatch congrArg Prod.snd this
  stored l hl hfile := by
    by_cases hroot : l = root
    · exact absurd (h.clear l (hroot ▸ List.prefix_rfl)) hfile
    · exact absurd (file?_eq_none_iff.mpr (Or.inl (h.entry?_eq_none hl hroot))) hfile
  occupied l hl hentry :=
    Or.inl (Classical.byContradiction fun hroot => hentry (h.entry?_eq_none hl hroot))
  directories h := absurd rfl h

/-! ## Writing -/

/-- No file stands on the way to a file that is apart from those that are done. -/
theorem Filled.clear_of_apart (h : Filled d root done) (hapart : ∀ g ∈ done, Apart g f)
    {p : Location} (hp : p <+: root ++ parts f) : d.file? p = none := by
  rcases List.prefix_or_prefix_of_prefix hp (List.prefix_append root (parts f))
    with habove | hbelow
  · exact h.clear p habove
  · refine Classical.byContradiction fun hfile => ?_
    obtain ⟨g, hg, rfl⟩ := h.stored p hbelow hfile
    exact (hapart g hg).1 ((List.prefix_append_right_inj root).mp hp)

/-- Nothing is at the place of such a file. -/
theorem Filled.entry?_of_apart (h : Filled d root done) (hapart : ∀ g ∈ done, Apart g f) :
    d.entry? (root ++ parts f) = none := by
  refine Classical.byContradiction fun hentry => ?_
  rcases h.occupied _ (List.prefix_append root (parts f)) hentry with hroot | ⟨g, hg, hfg⟩
  · exact List.splitOn_ne_nil _ _ (List.append_right_eq_self.mp hroot)
  · exact (hapart g hg).2 ((List.prefix_append_right_inj root).mp hfg)

section Last

variable {q : Location} {c : Text}

/-- The disk after the directories above a file were made and the file was
put at its place. -/
theorem Filled.put (h : Filled d root done) (hapart : ∀ g ∈ done, Apart g f)
    (hqc : parts f = q ++ [c]) (hpaved : Paved d d' (root ++ q))
    (hall : ∀ p, p <+: root ++ q → d'.hasDirectory p = true) :
    Filled (d'.put (root ++ parts f) (.file (utf8 f.content))) root (done ++ [f]) := by
  have hplace : root ++ parts f ≠ [] := by simp [hqc]
  have hdirectory : root ++ q <+: root ++ parts f := by
    rw [hqc]
    exact (List.prefix_append_right_inj root).mpr (List.prefix_append q [c])
  have habove : ∀ p, p <+: root → p ≠ root ++ parts f := by
    rintro p hp rfl
    have hself : root ++ parts f = root :=
      List.IsPrefix.eq_of_length_le hp (List.prefix_append root (parts f)).length_le
    exact List.splitOn_ne_nil _ _ (List.append_right_eq_self.mp hself)
  have hself : f ∈ done ++ [f] := List.mem_append_right done (List.mem_singleton_self f)
  constructor
  case clear =>
    intro p hp
    rw [file?_put hplace, if_neg (habove p hp), hpaved.file?, h.clear p hp]
  case files =>
    have hbelow : isBelow root (root ++ parts f) = true :=
      List.isPrefixOf_iff_prefix.mpr (List.prefix_append root (parts f))
    have hnone : d'.entry? (root ++ parts f) = none := by
      rw [hqc, ← List.append_assoc, hpaved.entry?_concat, List.append_assoc, ← hqc]
      exact h.entry?_of_apart hapart
    rw [files_put hnone, hpaved.files, List.filter_append, h.files, List.map_append]
    simp [hbelow]
  case stored =>
    intro l hl hfile
    rw [file?_put hplace] at hfile
    by_cases hlf : l = root ++ parts f
    · exact ⟨f, hself, hlf⟩
    · rw [if_neg hlf, hpaved.file?] at hfile
      obtain ⟨g, hg, hlg⟩ := h.stored l hl hfile
      exact ⟨g, List.mem_append_left [f] hg, hlg⟩
  case occupied =>
    intro l hl hentry
    rw [entry?_put hplace] at hentry
    by_cases hlf : l = root ++ parts f
    · exact Or.inr ⟨f, hself, hlf ▸ List.prefix_rfl⟩
    · rw [if_neg hlf] at hentry
      rcases hpaved.entry? l with heq | ⟨-, -, hlq⟩
      · rw [heq] at hentry
        rcases h.occupied l hl hentry with hlroot | ⟨g, hg, hlg⟩
        · exact Or.inl hlroot
        · exact Or.inr ⟨g, List.mem_append_left [f] hg, hlg⟩
      · exact Or.inr ⟨f, hself, hlq.trans hdirectory⟩
  case directories =>
    intro _ p hp
    rw [hasDirectory_iff, entry?_put hplace, if_neg (habove p hp)]
    exact hasDirectory_iff.mp (hall p (hp.trans (List.prefix_append root q)))

/-- A file can be written if nothing is at its place and no file stands
on the way there. -/
theorem writeBelow_of_clear {p : Location} (haccepted : isAccepted root f = true)
    (hplace : placeOf root f = p ++ [c]) (hplain : (placeOf root f).Plain)
    (hfits : Fits root f) (hclear : ∀ q, q <+: p → d.file? q = none)
    (hnone : d.entry? (p ++ [c]) = none) :
    ∃ d', Paved d d' p ∧ (∀ q, q <+: p → d'.hasDirectory q = true) ∧
      writeBelow d root f = (d'.put (p ++ [c]) (.file (utf8 f.content)), .ok true) := by
  have hnames := hfits.names
  have hshort := hfits.short
  rw [hplace] at hplain hnames hshort
  have habove : p <+: p ++ [c] := List.prefix_append p [c]
  have hmakeable : Makeable d p :=
    ⟨hplain.of_prefix habove, Nat.le_trans (Location.length_path_le habove) hshort,
      fun e he => hnames e (habove.subset he), hclear⟩
  obtain ⟨hmade, hall⟩ := ensureDirectory_of_makeable hmakeable
  have hpaved := paved_ensureDirectory hmakeable.plain d
  rw [writeBelow_of_accepted haccepted hfits.null, hplace, List.dropLast_concat]
  generalize d.ensureDirectory p = made at hmade hall hpaved ⊢
  obtain ⟨d', r⟩ := made
  obtain rfl : r = none := hmade
  dsimp only at hall hpaved ⊢
  have hentry : d'.entry? (p ++ [c]) ≠ some .directory := by
    rw [hpaved.entry?_concat, hnone]
    exact nofun
  have hwalk : Walkable d' (Location.path (p ++ [c])) p := ⟨hshort, hmakeable.names, hall⟩
  have hc : isTooLong c = false :=
    hnames c (List.mem_append_right p (List.mem_singleton_self c))
  have hwrite : d'.writeFile (p ++ [c]) (utf8 f.content) = .ok _ :=
    (writeFile_eq_ok_iff hplain).mpr ⟨hwalk, hc, hentry, rfl⟩
  rw [hwrite]
  exact ⟨d', hpaved, hall, rfl⟩

end Last

/-- One more file is written, whatever was written before. -/
theorem Filled.writeBelow (h : Filled d root done) (hroot : root.Plain)
    (hf : IsOrdinary f) (hfits : Fits root f) (hapart : ∀ g ∈ done, Apart g f) :
    ∃ d', writeBelow d root f = (d', .ok true) ∧ Filled d' root (done ++ [f]) := by
  obtain ⟨q, c, hqc⟩ : ∃ q c, parts f = q ++ [c] :=
    ⟨_, _, (List.dropLast_concat_getLast (List.splitOn_ne_nil _ _)).symm⟩
  have hparts : root ++ parts f = root ++ q ++ [c] := by
    rw [hqc, List.append_assoc]
  have hclear : ∀ p, p <+: root ++ q → d.file? p = none := fun p hp =>
    h.clear_of_apart hapart (hparts ▸ hp.trans (List.prefix_append _ _))
  have hnone : d.entry? (root ++ q ++ [c]) = none := hparts ▸ h.entry?_of_apart hapart
  obtain ⟨d', hpaved, hall, hwrite⟩ :=
    writeBelow_of_clear (isAccepted_of_ordinary hf root)
    ((placeOf_eq hf root).trans hparts) (hroot.resolve f.path.toList) hfits hclear hnone
  have hput := h.put hapart hqc hpaved hall
  rw [hparts] at hput
  exact ⟨_, hwrite, hput⟩

/-- Files that are apart from those in the directory are all written, and it is filled
with them as well. -/
theorem writeAll_filled (hroot : root.Plain) (h : Filled d root done)
    (hordinary : ∀ f ∈ files, IsOrdinary f) (hfits : ∀ f ∈ files, Fits root f)
    (hpairwise : files.Pairwise Apart) (hapart : ∀ g ∈ done, ∀ f ∈ files, Apart g f) :
    ∃ d', writeAll d root files = (d', .ok (files.map (·.path))) ∧
      Filled d' root (done ++ files) := by
  induction files generalizing d done with
  | nil => exact ⟨d, rfl, by rwa [List.append_nil]⟩
  | cons f fs ih =>
    rw [List.forall_mem_cons] at hordinary hfits
    obtain ⟨hfirst, hrest⟩ := List.pairwise_cons.mp hpairwise
    obtain ⟨d₁, hwrite, hfilled⟩ := h.writeBelow hroot hordinary.1 hfits.1
      fun g hg => hapart g hg f List.mem_cons_self
    have hapart' : ∀ g ∈ done ++ [f], ∀ e ∈ fs, Apart g e := by
      intro g hg e he
      rcases List.mem_append.mp hg with hg | hg
      · exact hapart g hg e (List.mem_cons_of_mem f he)
      · rw [List.mem_singleton.mp hg]
        exact hfirst e he
    obtain ⟨d', hall, hfilled'⟩ := ih hfilled hordinary.2 hfits.2 hrest hapart'
    rw [List.append_assoc, List.singleton_append] at hfilled'
    refine ⟨d', ?_, hfilled'⟩
    unfold writeAll
    rw [hwrite]
    dsimp only
    rw [hall]
    rfl

/-- A file that was written has a path that the disk can hold. -/
theorem fits_of_writeBelow (hroot : root.Plain) (haccepted : isAccepted root f = true)
    {b : Bool} (h : (writeBelow d root f).2 = .ok b) : Fits root f := by
  have hplain : (placeOf root f).Plain := hroot.resolve f.path.toList
  have hnull : '\x00' ∉ f.path.toList := by
    intro hnull
    have hup : goesUp f.path.toList = false := by
      rw [isAccepted, Bool.and_eq_true, Bool.not_eq_true'] at haccepted
      exact haccepted.1
    rw [writeBelow_of_null hup hnull] at h
    cases h
  rw [writeBelow_of_accepted haccepted hnull] at h
  generalize d.ensureDirectory (placeOf root f).dropLast = made at h
  rcases made with ⟨d₁, _ | fault⟩
  · cases hwrite : d₁.writeFile (placeOf root f) (utf8 f.content) with
    | error fault =>
      dsimp only at h
      rw [hwrite] at h
      cases h
    | ok d' =>
      have hlast := List.dropLast_concat_getLast (writeFile_ok hplain hwrite).1
      rw [← hlast] at hplain hwrite
      obtain ⟨hwalk, hc, -⟩ := (writeFile_eq_ok_iff hplain).mp hwrite
      rw [hlast] at hwalk
      refine ⟨hnull, fun e he => ?_, hwalk.short⟩
      rw [← hlast] at he
      rcases List.mem_append.mp he with he | he
      · exact hwalk.names e he
      · rw [List.mem_singleton.mp he, hc]
  · cases h

/-- If nothing fails, the disk could hold every accepted path. -/
theorem fits_of_writeAll (hroot : root.Plain) {paths : List String}
    (h : (writeAll d root files).2 = .ok paths) :
    ∀ f ∈ files, isAccepted root f = true → Fits root f := by
  induction files generalizing d paths with
  | nil => exact fun _ hf => absurd hf List.not_mem_nil
  | cons f fs ih =>
    unfold writeAll at h
    rcases hwrite : writeBelow d root f with ⟨d₁, _ | b⟩
    · rw [hwrite] at h
      cases h
    · rw [hwrite] at h
      dsimp only at h
      rcases hrest : writeAll d₁ root fs with ⟨d₂, _ | paths'⟩
      · rw [hrest] at h
        cases h
      · rw [List.forall_mem_cons]
        exact ⟨fun haccepted => fits_of_writeBelow hroot haccepted
          (congrArg Prod.snd hwrite),
          ih (congrArg Prod.snd hrest)⟩

/-! ## Reading -/

/-- A written file as it is read: its name is the last one of its path, and its line
breaks are line feeds. -/
def asRead (file : ProjectFile) : ProjectFile :=
  projectFile (parts file) (unifyNewlines file.content)

theorem path_asRead (f : ProjectFile) : (asRead f).path = f.path := by
  show String.ofList (['/'].intercalate (f.path.toList.splitOn '/')) = f.path
  rw [List.intercalate_splitOn, String.ofList_toList]

/-- What was encoded is read back, but for its line ends. -/
theorem readAll_encoded (fs : List ProjectFile) :
    readAll (fs.map fun f => (parts f, utf8 f.content)) = .ok (fs.map asRead) := by
  induction fs with
  | nil => rfl
  | cons f fs ih =>
    have hread : readText (utf8 f.content) = .ok (unifyNewlines f.content) := by
      unfold readText
      rw [decodeUtf8_utf8]
    rw [List.map_cons, readAll, hread, ih]
    rfl

/-- Who looks only below the directory sees the written files. -/
theorem filterMap_files_filled (h : Filled d root files) {α : Type}
    {look : Location × List UInt8 → Option α}
    (hlook : ∀ e, ¬ isBelow root e.1 = true → look e = none) :
    d.files.filterMap look =
      files.filterMap fun f => look (root ++ parts f, utf8 f.content) := by
  have hbelow :
      d.files.filterMap look = (d.files.filter (isBelow root ·.1)).filterMap look := by
    rw [List.filterMap_filter]
    refine List.filterMap_congr fun e _ => ?_
    by_cases he : isBelow root e.1 = true
    · rw [if_pos he]
    · rw [if_neg he, hlook e he]
  rw [hbelow, h.files, List.filterMap_map]
  rfl

/-- What is found below the directory is what was written, in the order of
the components. -/
theorem visibleBelow_filled (h : Filled d root files)
    (hordinary : ∀ f ∈ files, IsOrdinary f) :
    ∃ fs : List ProjectFile, fs.Perm files ∧
      visibleBelow d root = fs.map fun f => (parts f, utf8 f.content) := by
  let fs := files.mergeSort fun f g => !Location.precedes (parts g) (parts f)
  refine ⟨fs, List.mergeSort_perm _ _, ?_⟩
  unfold visibleBelow
  rw [filterMap_files_filled h, List.filterMap_eq_map_iff_forall_eq_some.mpr,
    List.map_mergeSort]
  · exact fun _ _ _ _ => rfl
  · intro f hf
    have hbelow : isBelow root (root ++ parts f) = true :=
      List.isPrefixOf_iff_prefix.mpr (List.prefix_append root (parts f))
    simpa [hbelow] using fun c hc => (hordinary f hf c hc).2
  · rintro ⟨l, bytes⟩ hl
    exact if_neg fun h => hl h.1

section Project

variable {s : Standing} {outputDir projectDir : String} {project : Project}

/-- A project is read only from a directory. -/
theorem isDirectoryAt_of_readProject (h : readProject d s projectDir =
      .ok (some project)) :
    d.isDirectoryAt (Location.resolve s.current projectDir.toList) = .ok true := by
  unfold readProject at h
  dsimp only at h
  split at h
  next => exact nomatch h
  next =>
    cases hthere : d.isDirectoryAt (Location.resolve s.current projectDir.toList) with
    | error f =>
      rw [hthere] at h
      exact nomatch h
    | ok isThere =>
      rw [hthere] at h
      cases isThere with
      | false => exact nomatch h
      | true => rfl

/-- A directory that holds written files is read as these files, in some order. -/
theorem readProject_filled (hdir : Location.resolve s.current projectDir.toList = root)
    (hnull : '\x00' ∉ projectDir.toList) (hthere : d.isDirectoryAt root = .ok true)
    (h : Filled d root files) (hordinary : ∀ f ∈ files, IsOrdinary f) :
    ∃ fs : List ProjectFile, fs.Perm files ∧
      readProject d s projectDir = .ok (some
        { name := String.ofList (root.getLast?.getD [])
          files := fs.map asRead
          plan := (fs.map asRead).map (·.path) }) := by
  obtain ⟨fs, hperm, hvisible⟩ := visibleBelow_filled h hordinary
  refine ⟨fs, hperm, ?_⟩
  unfold readProject
  dsimp only
  rw [hdir, if_neg hnull, hthere, hvisible, readAll_encoded]
  rfl

/-- What is read differs from what was written in nothing but carriage returns. -/
theorem pairs_asRead_perm_iff {fs : List ProjectFile} (hperm : fs.Perm files) :
    ((fs.map asRead).map fun f => (f.path, f.content)).Perm
      (files.map fun f => (f.path, f.content)) ↔
      ∀ f ∈ files, '\r' ∉ f.content := by
  constructor
  · intro h f hf
    -- every content that is read comes from a text with unified line breaks
    obtain ⟨e, he, heq⟩ := List.mem_map.mp (h.symm.subset (List.mem_map_of_mem hf))
    obtain ⟨g, -, rfl⟩ := List.mem_map.mp he
    have hcontent : unifyNewlines g.content = f.content := congrArg Prod.snd heq
    rw [← hcontent]
    exact not_mem_unifyNewlines g.content
  · intro h
    have hsame : ((fs.map asRead).map fun f => (f.path, f.content)) =
        fs.map fun f => (f.path, f.content) := by
      rw [List.map_map]
      refine List.map_congr_left fun f hf => Prod.ext (path_asRead f) ?_
      exact (unifyNewlines_eq_self_iff f.content).mpr (h f (hperm.subset hf))
    rw [hsame]
    exact hperm.map _

/-! ## Writing and reading -/

/-- Files that are written below a directory are read back from there: all are
written, and the project that is read has their paths and contents, in some order, and
its paths as its plan. -/
def ReadBack (d : Disk) (s : Standing) (files : List ProjectFile)
    (outputDir projectDir : String) :
    Prop :=
  (saveFiles d s files outputDir).2 = .ok (files.map (·.path)) ∧
    ∃ project, readProject (saveFiles d s files outputDir).1 s projectDir =
      .ok (some project) ∧
      (project.files.map fun f => (f.path, f.content)).Perm
        (files.map fun f => (f.path, f.content)) ∧
      project.plan = project.files.map (·.path)

section Fresh

variable (hroot : root.Plain) (hfresh : Fresh d root) (hfiles : Publishable files)

include hroot hfresh hfiles

/-- Files that fit are all written, and fill the directory. -/
theorem writeAll_of_fits (hfits : ∀ f ∈ files, Fits root f) :
    ∃ d', writeAll d root files = (d', .ok (files.map (·.path))) ∧ Filled d' root files :=
  writeAll_filled hroot hfresh.filled hfiles.ordinary hfits hfiles.pairwise
    fun _ hg => nomatch hg

/-- The directory is there after something was written to it; if nothing was,
it is as it was. -/
theorem isDirectoryAt_of_fits (hfits : ∀ f ∈ files, Fits root f)
    (hempty : files = [] → d.isDirectoryAt root = .ok true) :
    (writeAll d root files).1.isDirectoryAt root = .ok true := by
  obtain ⟨d', hall, hfilled⟩ := writeAll_of_fits hroot hfresh hfiles hfits
  rw [hall]
  cases files with
  | nil =>
    cases hall
    exact hempty rfl
  | cons f fs =>
    have hf := hfits f List.mem_cons_self
    have habove : root <+: placeOf root f := by
      rw [placeOf_eq (hfiles.ordinary f List.mem_cons_self)]
      exact List.prefix_append root _
    have hwalk : Walkable d' root.path root :=
      ⟨Nat.le_trans (Location.length_path_le habove) hf.short,
        fun c hc => hf.names c (habove.subset hc),
          hfilled.directories (List.cons_ne_nil _ _)⟩
    unfold isDirectoryAt
    rw [(follow_eq_ok_iff hroot).mpr ⟨rfl, hwalk⟩]
    rfl

end Fresh

/-- Files with ordinary paths that are written to a fresh directory are read back from it
exactly if the disk can hold their paths and no content has a carriage return. Without any
file nothing is made, so the directory has to be there already. -/
theorem readBack_iff (hs : s.Plain) (hout : outputLocation s outputDir.toList = .ok root)
    (hdir : Location.resolve s.current projectDir.toList = root)
    (hnull : '\x00' ∉ projectDir.toList) (hfresh : Fresh d root)
    (hfiles : Publishable files) :
    ReadBack d s files outputDir projectDir ↔
      (∀ f ∈ files, Fits root f ∧ '\r' ∉ f.content) ∧
        (files = [] → d.isDirectoryAt root = .ok true) := by
  have hroot : root.Plain := outputLocation_plain hs hout
  have hsave : saveFiles d s files outputDir = writeAll d root files := by
    unfold saveFiles
    rw [hout]
  unfold ReadBack
  rw [hsave]
  constructor
  · rintro ⟨hok, project, hread, hperm, -⟩
    have hfits : ∀ f ∈ files, Fits root f := fun f hf =>
      fits_of_writeAll hroot hok f hf (isAccepted_of_ordinary (hfiles.ordinary f hf) root)
    obtain ⟨d', hall, hfilled⟩ := writeAll_of_fits hroot hfresh hfiles hfits
    rw [hall] at hread
    have hthere := isDirectoryAt_of_readProject hread
    rw [hdir] at hthere
    obtain ⟨fs, hfs, hread'⟩ :=
      readProject_filled hdir hnull hthere hfilled hfiles.ordinary
    cases Option.some.inj (Except.ok.inj (hread.symm.trans hread'))
    refine ⟨fun f hf => ⟨hfits f hf, (pairs_asRead_perm_iff hfs).mp hperm f hf⟩, ?_⟩
    rintro rfl
    cases hall
    exact hthere
  · rintro ⟨hboth, hempty⟩
    have hfits : ∀ f ∈ files, Fits root f := fun f hf => (hboth f hf).1
    have hthere := isDirectoryAt_of_fits hroot hfresh hfiles hfits hempty
    obtain ⟨d', hall, hfilled⟩ := writeAll_of_fits hroot hfresh hfiles hfits
    rw [hall] at hthere ⊢
    obtain ⟨fs, hfs, hread⟩ :=
      readProject_filled hdir hnull hthere hfilled hfiles.ordinary
    exact ⟨rfl, _, hread, (pairs_asRead_perm_iff hfs).mpr fun f hf => (hboth f hf).2, rfl⟩

/-- A nested path and a short one, with a line break and a letter of two bytes, below a
directory that is not there yet. -/
theorem readBack_two_files :
    let s : Standing := ⟨["h".toList], ["w".toList]⟩
    let files : List ProjectFile :=
      [{ name := "b.ts", path := "src/b.ts", content := "x\ny".toList },
        { name := "a", path := "a", content := "é".toList }]
    Fresh ⟨[]⟩ ["w".toList, "out".toList] ∧ Publishable files ∧
      ReadBack ⟨[]⟩ s files "out" "./out" := by
  intro s files
  have hs : s.Plain := ⟨⟨by decide +kernel, nofun⟩, by decide +kernel⟩
  have hfresh : Fresh ⟨[]⟩ ["w".toList, "out".toList] := fresh_nil _
  have hfiles : Publishable files :=
    ⟨by unfold IsOrdinary; decide +kernel, by decide +kernel, by decide +kernel⟩
  have hfits : ∀ f ∈ files, Fits ["w".toList, "out".toList] f ∧ '\r' ∉ f.content := by
    intro f hf
    have hall : ∀ f ∈ files, ('\x00' ∉ f.path.toList ∧
        (∀ c ∈ placeOf ["w".toList, "out".toList] f, isTooLong c = false) ∧
        (utf8 (placeOf ["w".toList, "out".toList] f).path).length ≤ maxPathBytes) ∧
        '\r' ∉ f.content := by decide +kernel
    obtain ⟨⟨hnull, hnames, hshort⟩, hcontent⟩ := hall f hf
    exact ⟨⟨hnull, hnames, hshort⟩, hcontent⟩
  exact ⟨hfresh, hfiles, (readBack_iff hs (by decide +kernel) (by decide +kernel)
    (by decide +kernel)
    hfresh hfiles).mpr ⟨hfits, fun h => nomatch h⟩⟩

/-- A file with a carriage return is written as it is, but it is read back without it. -/
theorem carriage_return_lost :
    let s : Standing := ⟨["h".toList], ["w".toList]⟩
    let file : ProjectFile :=
      { name := "a.txt", path := "a.txt", content := "a\r\nb".toList }
    Fresh ⟨[]⟩ ["w".toList, "out".toList] ∧ Publishable [file] ∧
      (saveFiles ⟨[]⟩ s [file] "out").2 = .ok ["a.txt"] ∧
        ¬ ReadBack ⟨[]⟩ s [file] "out" "out" := by
  intro s file
  have hread : ((readProject (saveFiles ⟨[]⟩ s [file] "out").1 s "out").toOption.map
      fun project => project.map fun p => p.files.map (·.content)) =
        some (some ["a\nb".toList]) := by
    decide +kernel
  refine ⟨fresh_nil _,
    ⟨by unfold IsOrdinary; decide +kernel, by decide +kernel, by decide +kernel⟩,
    by decide +kernel, ?_⟩
  rintro ⟨-, project, hproject, hperm, -⟩
  rw [hproject] at hread
  have hcontents : project.files.map (·.content) = ["a\nb".toList] :=
    Option.some.inj (Option.some.inj hread)
  have hpairs := hperm.map Prod.snd
  rw [List.map_map, List.map_map] at hpairs
  have hpairs : (project.files.map (·.content)).Perm ["a\r\nb".toList] := hpairs
  rw [hcontents, List.singleton_perm_singleton] at hpairs
  exact absurd hpairs (by decide)

end Project

end Disk

end CodeWeave
