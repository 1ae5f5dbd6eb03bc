import CodeWeave.Disk.Tree
import Mathlib.Data.List.Induction

/-!
# What changes a disk

A disk is changed in two ways: a directory is made where nothing was, and a file is put at
a location. What either does to the rest of the disk is said here once, so that nobody
opens a search through the entries again:

> `entry?_put`, `entries_put`: what is put at a location is there, and
everything else stays.

> `Paved`: a disk to which nothing but directories on the way to a location have been
> added. `paved_ensureDirectory` says that making a directory does no more than that,
> also when it fails.

> `ensureDirectory_of_makeable`, `writeFile_eq_ok_iff`: when a directory can be made, and
> when a file can be written.
-/

namespace CodeWeave

open Text

/-! ## Locations -/

namespace Location

/-- No component leads up. -/
def Plain (l : Location) : Prop := ∀ c ∈ l, c ≠ ['.', '.']

instance (l : Location) : Decidable l.Plain :=
  inferInstanceAs (Decidable (∀ c ∈ l, c ≠ ['.', '.']))

theorem Plain.of_prefix {l m : Location} (h : l.Plain) (hm : m <+: l) : m.Plain :=
  fun c hc => h c (hm.subset hc)

/-- The path of a location above another one is a prefix of its path. -/
theorem intercalate_prefix {l m : Location} (h : l <+: m) :
    ['/'].intercalate l <+: ['/'].intercalate m := by
  obtain ⟨r, rfl⟩ := h
  induction l with
  | nil => exact List.nil_prefix
  | cons c cs ih =>
    cases cs with
    | nil =>
      cases r with
      | nil => exact List.prefix_rfl
      | cons d ds =>
        rw [List.intercalate_singleton, List.singleton_append, List.intercalate_cons_cons,
          List.append_assoc]
        exact List.prefix_append _ _
    | cons d ds =>
      rw [List.cons_append, List.cons_append, List.intercalate_cons_cons,
        List.intercalate_cons_cons]
      exact (List.prefix_append_right_inj _).mpr ih

/-- The path of a location is not longer than that of a location below it. -/
theorem length_path_le {l m : Location} (h : l <+: m) :
    (utf8 l.path).length ≤ (utf8 m.path).length := by
  obtain ⟨r, hr⟩ := intercalate_prefix h
  unfold path utf8
  rw [← hr, List.flatMap_cons, List.flatMap_cons, List.flatMap_append]
  simp only [List.length_append]
  omega

end Location

namespace Disk

variable {d d' : Disk} {l m : Location} {asked : Text}

/-! ## Putting something at a location -/

/-- Replacing an entry puts the new one there. -/
theorem find?_replace_self {es : List (Location × Entry)} (h : es.any (·.1 == l) = true)
    (e : Entry) :
    (es.map fun f => if f.1 == l then (l, e) else f).find? (·.1 == l) = some (l, e) := by
  induction es with
  | nil => exact nomatch h
  | cons f fs ih =>
    rw [List.map_cons, List.find?_cons]
    by_cases hf : f.1 = l
    · simp [hf]
    · have hne : (f.1 == l) = false := by simpa using hf
      rw [List.any_cons, hne, Bool.false_or] at h
      simpa [hne] using ih h

/-- No other entry is touched by that. -/
theorem find?_replace_other (hm : m ≠ l) (es : List (Location × Entry)) (e : Entry) :
    (es.map fun f => if f.1 == l then (l, e) else f).find? (·.1 == m) =
      es.find? (·.1 == m) := by
  induction es with
  | nil => rfl
  | cons f fs ih =>
    rw [List.map_cons, List.find?_cons, List.find?_cons, ih]
    by_cases hf : f.1 = l
    · have hlm : (l == m) = false := by simpa using Ne.symm hm
      simp [hf, hlm]
    · have hne : (f.1 == l) = false := by simpa using hf
      simp [hne]

/-- The root is always a directory. -/
theorem entry?_nil (d : Disk) : d.entry? [] = some .directory := rfl

theorem entry?_of_ne_nil (d : Disk) (hl : l ≠ []) :
    d.entry? l = (d.entries.find? (·.1 == l)).map (·.2) := if_neg hl

/-- Nothing is at a location if no entry is for it. -/
theorem entry?_eq_none_iff : d.entry? l = none ↔ l ≠ [] ∧ ∀ e ∈ d.entries, e.1 ≠ l := by
  by_cases hl : l = []
  · rw [hl, entry?_nil]
    exact iff_of_false (fun h => nomatch h) fun h => h.1 rfl
  · rw [entry?_of_ne_nil d hl, Option.map_eq_none_iff, List.find?_eq_none]
    simp only [beq_iff_eq]
    exact ⟨fun h => ⟨hl, h⟩, fun h => h.2⟩

/-- What is put at a location is there, and everything else stays. -/
theorem entry?_put (hl : l ≠ []) (d : Disk) (e : Entry) (m : Location) :
    entry? (d.put l e) m = if m = l then some e else d.entry? m := by
  by_cases hm : m = []
  · rw [hm, if_neg (Ne.symm hl)]
    rfl
  · rw [entry?_of_ne_nil _ hm, entry?_of_ne_nil _ hm]
    unfold put
    by_cases hany : d.entries.any (·.1 == l) = true
    · rw [if_pos hany]
      by_cases hml : m = l
      · rw [if_pos hml, hml, find?_replace_self hany]
        rfl
      · rw [if_neg hml, find?_replace_other hml]
    · rw [if_neg hany, List.find?_append]
      by_cases hml : m = l
      · have hnone : d.entries.find? (·.1 == l) = none :=
          List.find?_eq_none.mpr fun f hf hfl => hany (List.any_eq_true.mpr ⟨f, hf, hfl⟩)
        rw [if_pos hml, hml, hnone]
        simp
      · have hlm : (l == m) = false := by simpa using Ne.symm hml
        rw [if_neg hml]
        simp [hlm]

/-- What is put where nothing was comes last among the entries. -/
theorem entries_put (h : d.entry? l = none) (e : Entry) :
    (d.put l e).entries = d.entries ++ [(l, e)] := by
  have hany : ¬ d.entries.any (·.1 == l) = true := by
    rw [List.any_eq_true]
    rintro ⟨f, hf, hfl⟩
    exact (entry?_eq_none_iff.mp h).2 f hf (beq_iff_eq.mp hfl)
  unfold put
  rw [if_neg hany]

theorem hasDirectory_iff : d.hasDirectory l = true ↔ d.entry? l = some .directory :=
  beq_iff_eq

/-- There is no file where there is nothing, or a directory. -/
theorem file?_eq_none_iff :
    d.file? l = none ↔ d.entry? l = none ∨ d.entry? l = some .directory := by
  unfold file?
  cases d.entry? l with
  | none => simp
  | some e => cases e <;> simp

/-- A written file holds its bytes, and every other one stays. -/
theorem file?_put (hl : l ≠ []) (d : Disk) (bytes : List UInt8) (m : Location) :
    (d.put l (.file bytes)).file? m = if m = l then some bytes else d.file? m := by
  unfold file?
  rw [entry?_put hl]
  by_cases hm : m = l
  · rw [if_pos hm, if_pos hm]
  · rw [if_neg hm, if_neg hm]

/-- The files of a disk with more entries are those of either part. -/
theorem files_of_entries {es : List (Location × Entry)}
    (h : d'.entries = d.entries ++ es) :
    d'.files = d.files ++ (Disk.mk es).files := by
  unfold files
  rw [h, List.filterMap_append]

theorem files_directories (ms : List Location) :
    (Disk.mk (ms.map (·, .directory))).files = [] := by
  unfold files
  rw [List.filterMap_map]
  exact List.filterMap_eq_nil_iff.mpr fun _ _ => rfl

/-- A file that is written where nothing was comes last among the files. -/
theorem files_put (h : d.entry? l = none) (bytes : List UInt8) :
    (d.put l (.file bytes)).files = d.files ++ [(l, bytes)] :=
  files_of_entries (entries_put h _)

/-! ## Added directories -/

/-- The disk with directories added to it, each of them on the way to the location. -/
def Paved (d d' : Disk) (l : Location) : Prop :=
  ∃ ms : List Location, d'.entries = d.entries ++ ms.map (·, .directory) ∧
    ∀ m ∈ ms, m <+: l

namespace Paved

theorem refl (d : Disk) (l : Location) : Paved d d l :=
  ⟨[], (List.append_nil _).symm, fun _ hm => nomatch hm⟩

/-- Directories that were made above others stay. -/
theorem trans {d'' : Disk} {p : Location} (h : Paved d d' p) (h' : Paved d' d'' l)
    (hp : p <+: l) :
    Paved d d'' l := by
  obtain ⟨ms, hms, hall⟩ := h
  obtain ⟨ns, hns, hall'⟩ := h'
  refine ⟨ms ++ ns, by rw [hns, hms, List.map_append, List.append_assoc], fun m hm => ?_⟩
  rcases List.mem_append.mp hm with hm | hm
  · exact (hall m hm).trans hp
  · exact hall' m hm

/-- A directory that is put where nothing was is paved. -/
theorem put (h : d.entry? l = none) : Paved d (d.put l .directory) l :=
  ⟨[l], entries_put h _, fun _ hm => List.mem_singleton.mp hm ▸ List.prefix_rfl⟩

/-- What was there stays, and what is new is a directory. -/
theorem entry? (h : Paved d d' l) (m : Location) :
    d'.entry? m = d.entry? m ∨
      d.entry? m = none ∧ d'.entry? m = some .directory ∧ m <+: l := by
  obtain ⟨ms, hms, hall⟩ := h
  by_cases hm : m = []
  · rw [hm]
    exact Or.inl rfl
  · rw [entry?_of_ne_nil _ hm, entry?_of_ne_nil _ hm, hms, List.find?_append]
    cases d.entries.find? (·.1 == m) with
    | some f => exact Or.inl rfl
    | none =>
      cases hnew : (ms.map fun m => (m, Entry.directory)).find? (·.1 == m) with
      | none => exact Or.inl rfl
      | some f =>
        obtain ⟨n, hn, rfl⟩ := List.mem_map.mp (List.mem_of_find?_eq_some hnew)
        have hnm : n = m := by simpa using List.find?_some hnew
        exact Or.inr ⟨rfl, rfl, hnm ▸ hall n hn⟩

/-- What is in the directory itself has not changed. -/
theorem entry?_concat (h : Paved d d' l) (c : Text) :
    d'.entry? (l ++ [c]) = d.entry? (l ++ [c]) := by
  rcases h.entry? (l ++ [c]) with heq | ⟨-, -, hback⟩
  · exact heq
  · have hlength := hback.length_le
    rw [List.length_append, List.length_singleton] at hlength
    omega

/-- Paving touches no file. -/
theorem file? (h : Paved d d' l) (m : Location) : d'.file? m = d.file? m := by
  rcases h.entry? m with heq | ⟨hnone, hdirectory, -⟩
  · unfold Disk.file?
    rw [heq]
  · rw [file?_eq_none_iff.mpr (Or.inl hnone), file?_eq_none_iff.mpr (Or.inr hdirectory)]

theorem files (h : Paved d d' l) : d'.files = d.files := by
  obtain ⟨ms, hms, -⟩ := h
  rw [files_of_entries hms, files_directories, List.append_nil]

end Paved

/-! ## Following components -/

/-- A check that refuses and then a computation: it succeeds if nothing is refused. -/
theorem refused_eq_ok_iff {α : Type} {b : Bool} {f : DiskFault}
    {r : Except DiskFault α} {a : α} :
    (if b then .error f else r) = .ok a ↔ b = false ∧ r = .ok a := by
  cases b <;> simp

/-- Every directory down to the location is there, and no name or path on the
way is too long. -/
structure Walkable (d : Disk) (asked : Text) (l : Location) : Prop where
  short : (utf8 asked).length ≤ maxPathBytes
  names : ∀ c ∈ l, isTooLong c = false
  directories : ∀ p, p <+: l → d.hasDirectory p = true

/-- The directories below a base are the first one and those below it. -/
theorem hasDirectory_below_cons_iff {c : Text} {cs : List Text} {base : Location} :
    (∀ p, p <+: c :: cs → p ≠ [] → d.hasDirectory (base ++ p) = true) ↔
      d.hasDirectory (base ++ [c]) = true ∧
        ∀ p, p <+: cs → p ≠ [] → d.hasDirectory (base ++ [c] ++ p) = true := by
  constructor
  · intro h
    refine ⟨h [c] ⟨cs, rfl⟩ (List.cons_ne_nil _ _), fun p hp _ => ?_⟩
    rw [List.append_assoc]
    exact h (c :: p) (List.cons_prefix_cons.mpr ⟨rfl, hp⟩) (List.cons_ne_nil _ _)
  · rintro ⟨hfirst, hrest⟩ p hp hne
    cases p with
    | nil => exact absurd rfl hne
    | cons e q =>
      obtain ⟨rfl, hq⟩ := List.cons_prefix_cons.mp hp
      by_cases hqne : q = []
      · rw [hqne]
        exact hfirst
      · have := hrest q hq hqne
        rwa [List.append_assoc] at this

/-- Following a plain path component by component ends at it, if all above it
are directories. -/
theorem followFrom_eq_ok_iff {cs : List Text} (hcs : Location.Plain cs)
    (base : Location) :
    d.followFrom asked base cs = .ok m ↔
      m = base ++ cs ∧ (∀ c ∈ cs, isTooLong c = false) ∧
        ∀ p, p <+: cs → p ≠ [] → d.hasDirectory (base ++ p) = true := by
  induction cs generalizing base with
  | nil =>
    rw [followFrom, List.append_nil]
    constructor
    · intro h
      cases h
      exact ⟨rfl, fun _ hc => (nomatch hc), fun p hp hne =>
        absurd (List.prefix_nil.mp hp) hne⟩
    · intro h
      rw [h.1]
  | cons c cs ih =>
    have ih := ih (fun e he => hcs e (List.mem_cons_of_mem c he))
    rw [followFrom, if_neg (hcs c List.mem_cons_self), refused_eq_ok_iff,
      hasDirectory_below_cons_iff, List.forall_mem_cons, hasDirectory_iff]
    by_cases hentry : d.entry? (base ++ [c]) = some .directory
    · rw [hentry]
      dsimp only
      rw [ih, List.append_assoc, List.singleton_append, and_left_comm, and_assoc,
        eq_self, true_and]
    · refine iff_of_false ?_ fun h => hentry h.2.2.1
      rintro ⟨-, h⟩
      split at h
      next hdirectory => exact hentry hdirectory
      next => exact nomatch h
      next => exact nomatch h

/-- So a plain path is followed to itself, if it can be walked. -/
theorem follow_eq_ok_iff (hl : l.Plain) :
    d.follow asked [] l = .ok m ↔ m = l ∧ Walkable d asked l := by
  unfold follow
  by_cases hlong : maxPathBytes < (utf8 asked).length
  · rw [if_pos hlong]
    exact iff_of_false (fun h => nomatch h) fun h => absurd h.2.short
      (Nat.not_le_of_lt hlong)
  · rw [if_neg hlong, followFrom_eq_ok_iff hl]
    refine and_congr Iff.rfl ⟨fun ⟨hnames, hall⟩ =>
      ⟨Nat.le_of_not_lt hlong, hnames, fun p hp => ?_⟩,
      fun h => ⟨h.names, fun p hp _ => h.directories p hp⟩⟩
    by_cases hne : p = []
    · rw [hne]
      rfl
    · exact hall p hp hne

/-- What is done behind following a path is done at the path. -/
theorem bind_follow_eq_ok_iff {α : Type} {k : Location → Except DiskFault α} {a : α}
    (hl : l.Plain) :
    (d.follow asked [] l >>= k) = .ok a ↔ Walkable d asked l ∧ k l = .ok a := by
  cases hfollow : d.follow asked [] l with
  | error f =>
    refine iff_of_false (fun h => nomatch h) fun h => ?_
    rw [(follow_eq_ok_iff hl).mpr ⟨rfl, h.1⟩] at hfollow
    exact nomatch hfollow
  | ok m =>
    obtain ⟨rfl, hwalk⟩ := (follow_eq_ok_iff hl).mp hfollow
    exact ⟨fun h => ⟨hwalk, h⟩, And.right⟩

/-- Where no file is in the way, the only thing that can be wrong is that a
directory is missing. -/
theorem followFrom_of_no_file {cs : List Text} (hcs : Location.Plain cs)
    (hnames : ∀ c ∈ cs, isTooLong c = false) {base : Location}
    (hclear : ∀ p, p <+: cs → d.file? (base ++ p) = none) :
    (∃ m, d.followFrom asked base cs = .ok m) ∨
      d.followFrom asked base cs = .error (.missing asked) := by
  induction cs generalizing base with
  | nil => exact Or.inl ⟨base, rfl⟩
  | cons c cs ih =>
    have hshort : ¬ isTooLong c = true := by
      rw [hnames c List.mem_cons_self]
      exact Bool.false_ne_true
    have hhere := hclear [c] ⟨cs, rfl⟩
    rw [followFrom, if_neg (hcs c List.mem_cons_self), if_neg hshort]
    rcases file?_eq_none_iff.mp hhere with hentry | hentry
    · rw [hentry]
      exact Or.inr rfl
    · rw [hentry]
      refine ih (fun e he => hcs e (List.mem_cons_of_mem c he))
        (fun e he => hnames e (List.mem_cons_of_mem c he)) fun p hp => ?_
      rw [List.append_assoc]
      exact hclear (c :: p) (List.cons_prefix_cons.mpr ⟨rfl, hp⟩)

/-! ## Making directories -/

/-- A location that nothing speaks against: no file stands on the way to it or at it, and
neither its path nor any of its names is too long. -/
structure Makeable (d : Disk) (l : Location) : Prop where
  plain : l.Plain
  short : (utf8 l.path).length ≤ maxPathBytes
  names : ∀ c ∈ l, isTooLong c = false
  clear : ∀ p, p <+: l → d.file? p = none

/-- Above a place where a directory can be made, directories can be made. -/
theorem Makeable.of_prefix (h : Makeable d l) (hm : m <+: l) : Makeable d m where
  plain := h.plain.of_prefix hm
  short := Nat.le_trans (Location.length_path_le hm) h.short
  names c hc := h.names c (hm.subset hc)
  clear _ hp := h.clear _ (hp.trans hm)

/-- Whether a directory can be made depends on the files only. -/
theorem Makeable.congr (h : Makeable d l) (hfile : ∀ m, d'.file? m = d.file? m) :
    Makeable d' l where
  plain := h.plain
  short := h.short
  names := h.names
  clear p hp := (hfile p).trans (h.clear p hp)

/-- On the way to such a location a directory can at most be missing. -/
theorem follow_of_makeable (h : Makeable d l) (asked : Text)
    (hasked : (utf8 asked).length ≤ maxPathBytes) :
    Walkable d asked l ∨ d.follow asked [] l = .error (.missing asked) := by
  unfold follow
  rw [if_neg (Nat.not_lt_of_le hasked)]
  have hclear : ∀ p, p <+: l → d.file? ([] ++ p) = none := h.clear
  rcases followFrom_of_no_file h.plain h.names hclear with ⟨m, hm⟩ | hmissing
  · have hfollow : d.follow asked [] l = .ok m := by
      unfold follow
      rw [if_neg (Nat.not_lt_of_le hasked), hm]
    exact Or.inl ((follow_eq_ok_iff h.plain).mp hfollow).2
  · exact Or.inr hmissing

/-- The location above is followed before anything is made. -/
theorem makeDirectory_concat (d : Disk) (p : Location) (c : Text) :
    d.makeDirectory (p ++ [c]) = (do
      let parent ← d.follow (Location.path (p ++ [c])) [] p
      if isTooLong c then .error (.nameTooLong (Location.path (p ++ [c])))
      else match d.entry? (parent ++ [c]) with
        | some _ => .error (.alreadyThere (Location.path (p ++ [c])))
        | none => .ok (d.put (p ++ [c]) .directory)) := by
  unfold makeDirectory
  rewrite [List.getLast?_concat, List.dropLast_concat]
  rfl

/-- If nothing is missing above the last directory, it is all there is to do. -/
theorem ensureDirectory_concat (d : Disk) (p : Location) (c : Text) :
    d.ensureDirectory (p ++ [c]) = match d.makeDirectory (p ++ [c]) with
      | .error (.missing _) => match d.ensureDirectory p with
        | (d', none) => d'.ensureLast (p ++ [c])
        | (d', some f) => (d', some f)
      | _ => d.ensureLast (p ++ [c]) := by
  have hlast : (p ++ [c]).dropLast = p := List.dropLast_concat
  have hne : p ++ [c] ≠ [] := List.append_ne_nil_of_right_ne_nil p (List.cons_ne_nil c [])
  generalize p ++ [c] = l at hlast hne
  obtain ⟨e, es, rfl⟩ := List.exists_cons_of_ne_nil hne
  rw [ensureDirectory.eq_def]
  unfold ensureLast
  cases hmake : d.makeDirectory (e :: es) with
  | ok d' => rfl
  | error f =>
    cases f with
    | missing path =>
      dsimp only
      rewrite [hlast]
      rfl
    | _ => rfl

section Last

variable {p : Location} {c : Text}

/-- A directory is made if the one above can be reached, its name is not too long, and
nothing is there. -/
theorem makeDirectory_eq_ok_iff (hl : Location.Plain (p ++ [c])) :
    d.makeDirectory (p ++ [c]) = .ok d' ↔
      Walkable d (Location.path (p ++ [c])) p ∧ isTooLong c = false ∧
        d.entry? (p ++ [c]) = none ∧
        d' = d.put (p ++ [c]) .directory := by
  rw [makeDirectory_concat, bind_follow_eq_ok_iff
    (hl.of_prefix (List.prefix_append p [c])),
    refused_eq_ok_iff]
  refine and_congr Iff.rfl (and_congr Iff.rfl ?_)
  cases d.entry? (p ++ [c]) with
  | some e => exact iff_of_false (fun h => nomatch h) fun h => nomatch h.1
  | none =>
    dsimp only
    rw [Except.ok.injEq]
    exact ⟨fun h => ⟨rfl, h.symm⟩, fun h => h.2.symm⟩

/-- A file is written under the same conditions, except that a file may be there. -/
theorem writeFile_eq_ok_iff (hl : Location.Plain (p ++ [c])) {bytes : List UInt8} :
    d.writeFile (p ++ [c]) bytes = .ok d' ↔
      Walkable d (Location.path (p ++ [c])) p ∧ isTooLong c = false ∧
        d.entry? (p ++ [c]) ≠ some .directory ∧ d' = d.put (p ++ [c]) (.file bytes) := by
  unfold writeFile
  rw [List.getLast?_concat, List.dropLast_concat]
  dsimp only
  rw [bind_follow_eq_ok_iff (hl.of_prefix (List.prefix_append p [c])), refused_eq_ok_iff]
  refine and_congr Iff.rfl (and_congr Iff.rfl ?_)
  split
  next hdirectory => exact iff_of_false (fun h => nomatch h) fun h => h.1 hdirectory
  next hother =>
    rw [Except.ok.injEq]
    exact ⟨fun h => ⟨hother, h.symm⟩, fun h => h.2.symm⟩

/-- Making sure of a directory paves it, also if that fails. -/
theorem paved_ensureLast (hl : Location.Plain (p ++ [c])) :
    Paved d (d.ensureLast (p ++ [c])).1 (p ++ [c]) := by
  unfold ensureLast
  cases hmake : d.makeDirectory (p ++ [c]) with
  | ok d' =>
    obtain ⟨-, -, hnone, rfl⟩ := (makeDirectory_eq_ok_iff hl).mp hmake
    exact Paved.put hnone
  | error f =>
    dsimp only
    split <;> exact Paved.refl d _

/-- With all directories above it there, the last one can be made or is there too. -/
theorem ensureLast_of_makeable (h : Makeable d (p ++ [c]))
    (hp : ∀ q, q <+: p → d.hasDirectory q = true) :
    (d.ensureLast (p ++ [c])).2 = none ∧
      ∀ q, q <+: p ++ [c] → (d.ensureLast (p ++ [c])).1.hasDirectory q = true := by
  have hwalk : Walkable d (Location.path (p ++ [c])) p :=
    ⟨h.short, fun e he => h.names e (List.mem_append_left [c] he), hp⟩
  have hc : isTooLong c = false :=
    h.names c (List.mem_append_right p (List.mem_singleton_self c))
  unfold ensureLast
  rcases file?_eq_none_iff.mp (h.clear (p ++ [c]) List.prefix_rfl) with hentry | hentry
  · rw [(makeDirectory_eq_ok_iff h.plain).mpr ⟨hwalk, hc, hentry, rfl⟩]
    refine ⟨rfl, fun q hq => ?_⟩
    have hne : p ++ [c] ≠ [] := (entry?_eq_none_iff.mp hentry).1
    rw [hasDirectory_iff]
    show entry? (d.put (p ++ [c]) .directory) q = _
    rw [entry?_put hne]
    by_cases hql : q = p ++ [c]
    · rw [if_pos hql]
    · rw [if_neg hql]
      exact hasDirectory_iff.mp (hp q ((List.prefix_concat_iff.mp hq).resolve_left hql))
  · have hthere : d.hasDirectory (p ++ [c]) = true := hasDirectory_iff.mpr hentry
    cases hmake : d.makeDirectory (p ++ [c]) with
    | ok d' =>
      obtain ⟨-, -, hnone, -⟩ := (makeDirectory_eq_ok_iff h.plain).mp hmake
      rw [hentry] at hnone
      exact nomatch hnone
    | error f =>
      dsimp only
      rw [if_pos hthere]
      refine ⟨rfl, fun q hq => ?_⟩
      rcases List.prefix_concat_iff.mp hq with hq | hq
      · rw [hq]
        exact hthere
      · exact hp q hq

end Last

/-- Making a directory adds nothing but directories on the way to it,
also when it fails. -/
theorem paved_ensureDirectory (hl : l.Plain) (d : Disk) :
    Paved d (d.ensureDirectory l).1 l := by
  induction l using List.reverseRecOn with
  | nil =>
    have hroot : d.ensureDirectory [] = (d, none) := by rw [ensureDirectory.eq_def]; rfl
    rw [hroot]
    exact Paved.refl d []
  | append_singleton p c ih =>
    have ih := ih (hl.of_prefix (List.prefix_append p [c]))
    rw [ensureDirectory_concat]
    split
    next =>
      -- the directories above come first, and the last one only if they could be made
      rcases hp : d.ensureDirectory p with ⟨d', _ | f⟩
      · rw [hp] at ih
        exact ih.trans (paved_ensureLast hl) (List.prefix_append p [c])
      · rw [hp] at ih
        exact ih.trans (Paved.refl d' (p ++ [c])) (List.prefix_append p [c])
    next => exact paved_ensureLast hl

/-- A directory can be made where nothing speaks against it, and then it is there
with all above it. -/
theorem ensureDirectory_of_makeable (h : Makeable d l) :
    (d.ensureDirectory l).2 = none ∧ ∀ p, p <+: l →
      (d.ensureDirectory l).1.hasDirectory p = true := by
  induction l using List.reverseRecOn with
  | nil =>
    have hroot : d.ensureDirectory [] = (d, none) := by rw [ensureDirectory.eq_def]; rfl
    rw [hroot]
    refine ⟨rfl, fun p hp => ?_⟩
    rw [List.prefix_nil.mp hp]
    rfl
  | append_singleton p c ih =>
    have hp := h.of_prefix (List.prefix_append p [c])
    obtain ⟨hnone, hall⟩ := ih hp
    rw [ensureDirectory_concat]
    split
    next =>
      have hpaved := paved_ensureDirectory hp.plain d
      rcases hd : d.ensureDirectory p with ⟨d', r⟩
      rw [hd] at hnone hall hpaved
      obtain rfl : r = none := hnone
      exact ensureLast_of_makeable (h.congr hpaved.file?) hall
    next hnotMissing =>
      refine ensureLast_of_makeable h ?_
      rcases follow_of_makeable hp (Location.path (p ++ [c])) h.short
        with hwalk | hmissing
      · exact hwalk.directories
      · refine absurd ?_ (hnotMissing (Location.path (p ++ [c])))
        rw [makeDirectory_concat, hmissing]
        rfl

end Disk

end CodeWeave
