import QuantizedConv.CommandLine.Files
import QuantizedConv.Proofs.Loops

/-!
# What writing a file changes

A path is followed through directories to the place of a file (`Reaches`). What a path reads and
writes is decided by that place alone (`read_eq_ok_iff`, `write_eq_ok_iff`), and the place is the one
that the text of the path gives, from the root or from the directory that a command works in
(`Reaches.spec`). A file is written into a directory that is there already, so that a write makes no
directories and takes none away (`isDirectory_store`), and every path leads where it led before
(`reaches_store`). Hence reading a file gives what was written last, by whatever name, and all other
files are as they were (`write_updates`).
-/

set_option autoImplicit false

namespace QuantizedConv

open Document

/-- A path that can be followed is the one that its text spells. -/
theorem Path.eq_ofText {text : String} {path : Path} (h : Path.ofText? text = .ok path) :
    path = Path.ofText text := by
  unfold Path.ofText? at h
  split at h
  · cases h
  split at h
  · cases h
  split at h
  · cases h
  cases h
  rfl

/-- A name that is not made of dots is appended to the place. -/
theorem Place.step_of_not_dots {name : String} (hdots : Path.isDots name = false) (place : Place) :
    place.step name = place ++ [name] := by
  have hnot : name ≠ "." ∧ name ≠ ".." := by simpa [Path.isDots] using hdots
  rw [step, if_neg hnot.1, if_neg hnot.2]

namespace FileTree

open QuantizedConv.Path (isDots tooLong)

variable {files : FileTree} {text : String} {place : Place} {content : Bytes}

/-- A path leads to the place of a file: through directories, to a name. -/
inductive Reaches (files : FileTree) (text : String) : Place → Prop
  | mk {path : Path} {names : List String} {last : String} {directory : Place}
      (path_eq : Path.ofText? text = .ok path) (open_end : path.slashed = false)
      (names_eq : path.names = names ++ [last]) (not_dots : isDots last = false)
      (not_long : tooLong last = false)
      (way : names.foldlM files.enter (path.start files.workingDirectory) = .ok directory) :
      Reaches files text (directory ++ [last])

/-- What `locate` finds where the last name of a path is a name. -/
theorem locate_eq_ok_iff {path : Path} {directory : Place} {last : String}
    (hdots : isDots last = false) :
    files.locate path = .ok (directory, last) ↔
      ∃ names, path.names = names ++ [last] ∧
        names.foldlM files.enter (path.start files.workingDirectory) = .ok directory := by
  unfold locate
  constructor
  · intro h
    split at h
    · cases h
      exact absurd hdots (by decide)
    · rename_i name hlast
      rw [bind_eq_ok_iff] at h
      obtain ⟨found, hway, hfound⟩ := h
      cases hfound
      obtain ⟨names, hnames⟩ := List.getLast?_eq_some_iff.mp hlast
      rw [hnames, List.dropLast_concat] at hway
      exact ⟨names, hnames, hway⟩
  · rintro ⟨names, hnames, hway⟩
    simp only [hnames, List.getLast?_concat, List.dropLast_concat]
    rw [bind_of_ok hway]

/-- A path reaches a place where it is followed to a directory and ends with a name in it. -/
theorem reaches_iff :
    files.Reaches text place ↔
      ∃ path directory last, Path.ofText? text = .ok path ∧
        files.locate path = .ok (directory, last) ∧
        (isDots last = false ∧ tooLong last = false ∧ path.slashed = false) ∧
        directory.step last = place := by
  constructor
  · rintro ⟨hpath, hopen, hnames, hdots, hlong, hway⟩
    exact ⟨_, _, _, hpath, (locate_eq_ok_iff hdots).mpr ⟨_, hnames, hway⟩, ⟨hdots, hlong, hopen⟩,
      Place.step_of_not_dots hdots _⟩
  · rintro ⟨path, directory, last, hpath, hlocate, ⟨hdots, hlong, hopen⟩, rfl⟩
    obtain ⟨names, hnames, hway⟩ := (locate_eq_ok_iff hdots).mp hlocate
    rw [Place.step_of_not_dots hdots]
    exact ⟨hpath, hopen, hnames, hdots, hlong, hway⟩

/-- What a path reads is the content of the file at the place that it reaches. -/
theorem read_eq_ok_iff :
    files.read text = .ok content ↔
      ∃ place, files.Reaches text place ∧ files.find? place = some content := by
  simp only [reaches_iff]
  unfold read
  constructor
  · intro h
    rw [bind_eq_ok_iff] at h
    obtain ⟨path, hpath, h⟩ := h
    rw [bind_eq_ok_iff] at h
    obtain ⟨⟨directory, last⟩, hlocate, h⟩ := h
    simp only at h
    split at h
    · cases h
    rename_i hdots
    split at h
    · cases h
    rename_i hlong
    split at h
    · rename_i found hfind
      split at h
      · cases h
      rename_i hopen
      cases h
      rw [Bool.not_eq_true] at hdots hlong hopen
      exact ⟨_, ⟨path, directory, last, hpath, hlocate, ⟨hdots, hlong, hopen⟩, rfl⟩, hfind⟩
    · split at h <;> cases h
  · rintro ⟨place, ⟨path, directory, last, hpath, hlocate, ⟨hdots, hlong, hopen⟩, rfl⟩, hfind⟩
    rw [bind_of_ok hpath, bind_of_ok hlocate]
    simp [hdots, hlong, hopen, hfind]

/-- A path writes to the place that it reaches, where that is no directory. -/
theorem write_eq_ok_iff {written : FileTree} :
    files.write text content = .ok written ↔
      ∃ place, files.Reaches text place ∧ files.isDirectory place = false ∧
        files.store place content = written := by
  simp only [reaches_iff]
  unfold write
  constructor
  · intro h
    rw [bind_eq_ok_iff] at h
    obtain ⟨path, hpath, h⟩ := h
    rw [bind_eq_ok_iff] at h
    obtain ⟨⟨directory, last⟩, hlocate, h⟩ := h
    simp only at h
    split at h
    · cases h
    rename_i hfile
    split at h
    · cases h
    rename_i hlong
    split at h
    · cases h
    rename_i hfree
    cases h
    rw [not_or, Bool.not_eq_true, Bool.not_eq_true] at hfile
    rw [Bool.not_eq_true] at hlong hfree
    exact ⟨_, ⟨path, directory, last, hpath, hlocate, ⟨hfile.1, hlong, hfile.2⟩, rfl⟩, hfree, rfl⟩
  · rintro ⟨place, ⟨path, directory, last, hpath, hlocate, ⟨hdots, hlong, hopen⟩, rfl⟩, hfree, rfl⟩
    rw [bind_of_ok hpath, bind_of_ok hlocate]
    simp [hdots, hlong, hopen, hfree]

/-- Going on from a directory succeeds with dots, and into directories that are there. -/
theorem enter_eq_ok_iff {name : String} {next : Place} :
    files.enter place name = .ok next ↔
      next = place.step name ∧
        (isDots name = true ∨ tooLong name = false ∧ files.isDirectory next = true) := by
  unfold enter
  constructor
  · intro h
    split at h
    · rename_i hdots
      cases h
      exact ⟨rfl, .inl hdots⟩
    split at h
    · cases h
    rename_i hlong
    simp only at h
    split at h
    · rename_i hdirectory
      cases h
      exact ⟨rfl, .inr ⟨by simpa using hlong, hdirectory⟩⟩
    · split at h <;> cases h
  · rintro ⟨rfl, hdots | ⟨hlong, hdirectory⟩⟩
    · exact if_pos hdots
    · by_cases hdots : isDots name = true
      · exact if_pos hdots
      · rw [if_neg hdots, if_neg (by simp [hlong])]
        exact if_pos hdirectory

/-- A directory is one that is listed, worked in or holds a file, or is above one of these. -/
theorem isDirectory_iff :
    files.isDirectory place = true ↔
      (place <+: files.workingDirectory ∨ ∃ directory ∈ files.directories, place <+: directory) ∨
        ∃ entry ∈ files.entries, place.length < entry.1.length ∧ place <+: entry.1 := by
  simp only [isDirectory, Bool.or_eq_true, List.any_eq_true, Bool.and_eq_true, decide_eq_true_eq,
    List.isPrefixOf_iff_prefix]

/-- The directories on the way to a directory are there. -/
theorem isDirectory_of_above {above : Place} (habove : above <+: place)
    (h : files.isDirectory place = true) : files.isDirectory above = true := by
  rw [isDirectory_iff] at h ⊢
  obtain (hworking | ⟨directory, hlisted, hbelow⟩) | ⟨entry, hentry, hlength, hbelow⟩ := h
  · exact .inl (.inl (habove.trans hworking))
  · exact .inl (.inr ⟨directory, hlisted, habove.trans hbelow⟩)
  · exact .inr ⟨entry, hentry, habove.length_le.trans_lt hlength, habove.trans hbelow⟩

/-- Every path starts in a directory. -/
theorem isDirectory_start (path : Path) :
    files.isDirectory (path.start files.workingDirectory) = true := by
  rw [isDirectory_iff]
  refine .inl (.inl ?_)
  unfold Path.start
  split
  · exact List.nil_prefix
  · exact List.prefix_rfl

/-- A step from a directory leads into a directory. -/
theorem isDirectory_enter {name : String} {next : Place} (h : files.isDirectory place = true)
    (hnext : files.enter place name = .ok next) : files.isDirectory next = true := by
  obtain ⟨rfl, hdots | ⟨-, hdirectory⟩⟩ := enter_eq_ok_iff.mp hnext
  · unfold Place.step
    split
    · exact h
    · split
      · exact isDirectory_of_above (List.dropLast_prefix place) h
      · rename_i hdot hdotdot
        simp [isDots, hdot, hdotdot] at hdots
  · exact hdirectory

/-- The way of a path leads from directory to directory, by one step for each name. -/
theorem isDirectory_way {names : List String} {directory : Place}
    (h : files.isDirectory place = true) (hway : names.foldlM files.enter place = .ok directory) :
    files.isDirectory directory = true ∧ directory = names.foldl Place.step place := by
  induction names generalizing place with
  | nil =>
    cases hway
    exact ⟨h, rfl⟩
  | cons name names ih =>
    rw [List.foldlM_cons, bind_eq_ok_iff] at hway
    obtain ⟨next, hnext, hway⟩ := hway
    have hdirectory := isDirectory_enter h hnext
    obtain ⟨rfl, -⟩ := enter_eq_ok_iff.mp hnext
    exact ih hdirectory hway

/-- A path leads from a directory that is there to a name in it, at the place that its text gives. -/
theorem Reaches.spec (h : files.Reaches text place) :
    place = files.placeOf text ∧ ∃ directory last, place = directory ++ [last] ∧
      files.isDirectory directory = true := by
  obtain ⟨hpath, -, hnames, hdots, -, hway⟩ := h
  rename_i path names last directory
  obtain ⟨hdirectory, hfold⟩ := isDirectory_way (isDirectory_start path) hway
  refine ⟨?_, directory, last, rfl, hdirectory⟩
  simp only [placeOf, Place.ofText, ← Path.eq_ofText hpath, hnames, List.foldl_append,
    List.foldl_cons, List.foldl_nil, ← hfold]
  exact (Place.step_of_not_dots hdots directory).symm

section Store

/-- A file that is overwritten. -/
def overwrite (place : Place) (content : Bytes) (entry : Place × Bytes) : Place × Bytes :=
  if entry.1 = place then (place, content) else entry

/-- A file that is overwritten stays at its place. -/
theorem overwrite_fst (place : Place) (content : Bytes) (entry : Place × Bytes) :
    (overwrite place content entry).1 = entry.1 := by
  unfold overwrite
  split
  · rename_i heq
    exact heq.symm
  · rfl

/-- Storing replaces what is at the place, or puts a new file there. -/
theorem store_cases (files : FileTree) (place : Place) (content : Bytes) :
    ((∃ old, files.find? place = some old) ∧ files.store place content =
        { files with entries := files.entries.map (overwrite place content) }) ∨
      (files.find? place = none ∧ files.store place content =
        { files with entries := files.entries ++ [(place, content)] }) := by
  unfold store
  cases hfind : files.find? place with
  | some old => exact .inl ⟨⟨old, rfl⟩, rfl⟩
  | none => exact .inr ⟨rfl, rfl⟩

/-- What is found after storing: the new content at its place, and what was there at all others. -/
theorem find?_store (files : FileTree) (place : Place) (content : Bytes) (other : Place) :
    (files.store place content).find? other =
      if other = place then some content else files.find? other := by
  obtain ⟨⟨old, hfind⟩, hstore⟩ | ⟨hfind, hstore⟩ := store_cases files place content
  · have hkeys : (fun entry : Place × Bytes => decide (entry.1 = other)) ∘
        overwrite place content = fun entry => decide (entry.1 = other) := by
      funext entry
      simp only [Function.comp_apply, overwrite_fst]
    unfold find? at hfind ⊢
    rw [hstore, List.find?_map, hkeys, Option.map_map]
    split
    · rename_i heq
      subst heq
      obtain ⟨entry, hentry, -⟩ := Option.map_eq_some_iff.mp hfind
      have hplace : entry.1 = other := by simpa using List.find?_some hentry
      simp [hentry, overwrite, hplace]
    · rename_i hne
      cases hentry : files.entries.find? fun entry => decide (entry.1 = other) with
      | none => rfl
      | some entry =>
        have hplace : entry.1 = other := by simpa using List.find?_some hentry
        simp [overwrite, hplace, hne]
  · unfold find? at hfind ⊢
    rw [hstore, List.find?_append]
    split
    · rename_i heq
      subst heq
      rw [Option.map_eq_none_iff] at hfind
      simp [hfind]
    · rename_i hne
      simp [Ne.symm hne]

/-- Storing leaves the directory that a command works in. -/
theorem workingDirectory_store (files : FileTree) (place : Place) (content : Bytes) :
    (files.store place content).workingDirectory = files.workingDirectory := by
  obtain ⟨-, hstore⟩ | ⟨-, hstore⟩ := store_cases files place content <;> rw [hstore]

variable {directory : Place} {last : String} (hplace : place = directory ++ [last])
  (hdirectory : files.isDirectory directory = true)

include hplace hdirectory

/-- A file in a directory that is there makes no new directories. -/
theorem isDirectory_store (content : Bytes) (other : Place) :
    (files.store place content).isDirectory other = files.isDirectory other := by
  rw [Bool.eq_iff_iff]
  obtain ⟨-, hstore⟩ | ⟨-, hstore⟩ := store_cases files place content
  · simp only [isDirectory_iff, hstore, List.mem_map, exists_exists_and_eq_and, overwrite_fst]
  · constructor
    · intro h
      obtain hlisted | ⟨entry, hentry, hlength, hbelow⟩ := isDirectory_iff.mp h
      · rw [hstore] at hlisted
        exact isDirectory_iff.mpr (.inl hlisted)
      · rw [hstore, List.mem_append, List.mem_singleton] at hentry
        obtain hentry | rfl := hentry
        · exact isDirectory_iff.mpr (.inr ⟨entry, hentry, hlength, hbelow⟩)
        · -- above the new file there are only its directory and what is above that
          rw [hplace] at hlength hbelow
          have habove : other <+: directory := by
            obtain heq | habove := List.prefix_concat_iff.mp hbelow
            · rw [heq] at hlength
              exact absurd hlength (lt_irrefl _)
            · exact habove
          exact isDirectory_of_above habove hdirectory
    · intro h
      rw [hstore]
      rw [isDirectory_iff] at h ⊢
      refine h.imp_right ?_
      rintro ⟨entry, hentry, hbelow⟩
      exact ⟨entry, List.mem_append_left _ hentry, hbelow⟩

/-- Every path leads where it led before. -/
theorem reaches_store (content : Bytes) (path : String) (target : Place) :
    (files.store place content).Reaches path target ↔ files.Reaches path target := by
  have henter : ∀ start name next, (files.store place content).enter start name = .ok next ↔
      files.enter start name = .ok next := by
    intro start name next
    rw [enter_eq_ok_iff, enter_eq_ok_iff, isDirectory_store hplace hdirectory]
  have hway : ∀ (names : List String) start stop,
      names.foldlM (files.store place content).enter start = .ok stop ↔
        names.foldlM files.enter start = .ok stop := by
    intro names
    induction names with
    | nil => intro start stop; rfl
    | cons name names ih =>
      intro start stop
      simp only [List.foldlM_cons, bind_eq_ok_iff, henter, ih]
  constructor
  · rintro ⟨hpath, hopen, hnames, hdots, hlong, hstored⟩
    rw [workingDirectory_store] at hstored
    exact ⟨hpath, hopen, hnames, hdots, hlong, (hway _ _ _).mp hstored⟩
  · rintro ⟨hpath, hopen, hnames, hdots, hlong, hstored⟩
    rw [← workingDirectory_store files place content] at hstored
    exact ⟨hpath, hopen, hnames, hdots, hlong, (hway _ _ _).mpr hstored⟩

end Store

/-- Files after the file of a path got a new content: reading it, by this path or by any other that
leads to its place, gives the content; every file at another place is read as before, and the
directories are the same. -/
structure Updated (files : FileTree) (path : String) (bytes : Bytes) (written : FileTree) :
    Prop where
  content : written.read path = .ok bytes
  names : ∀ other, files.Reaches other (files.placeOf path) → written.read other = .ok bytes
  others : ∀ other, files.placeOf other ≠ files.placeOf path → ∀ old,
    written.read other = .ok old ↔ files.read other = .ok old
  directories : ∀ place, written.isDirectory place = files.isDirectory place
  workingDirectory : written.workingDirectory = files.workingDirectory

/-- **Writing a file changes that file only.** -/
theorem write_updates {path : String} {written : FileTree}
    (h : files.write path content = .ok written) : files.Updated path content written := by
  obtain ⟨place, hreaches, -, rfl⟩ := write_eq_ok_iff.mp h
  obtain ⟨htext, directory, last, hplace, hdirectory⟩ := hreaches.spec
  have hleads := reaches_store hplace hdirectory content
  have hnames : ∀ other, files.Reaches other place →
      (files.store place content).read other = .ok content := by
    intro other hother
    rw [read_eq_ok_iff]
    refine ⟨place, (hleads other place).mpr hother, ?_⟩
    rw [find?_store, if_pos rfl]
  refine ⟨hnames path hreaches, htext ▸ hnames, ?_, isDirectory_store hplace hdirectory content,
    workingDirectory_store files place content⟩
  · intro other hother old
    rw [read_eq_ok_iff, read_eq_ok_iff]
    have hfind : ∀ target, files.Reaches other target →
        (files.store place content).find? target = files.find? target := by
      intro target htarget
      have hne : target ≠ place := by
        rw [htarget.spec.1, htext]
        exact hother
      rw [find?_store, if_neg hne]
    constructor
    · rintro ⟨target, htarget, hread⟩
      have hbefore := (hleads other target).mp htarget
      exact ⟨target, hbefore, (hfind target hbefore).symm.trans hread⟩
    · rintro ⟨target, htarget, hread⟩
      exact ⟨target, (hleads other target).mpr htarget, (hfind target htarget).trans hread⟩

/-- A path at which a file can be written. -/
def Writable (files : FileTree) (path : String) : Prop :=
  ∃ content written, files.write path content = .ok written

/-- Whether a file can be written does not depend on its content. -/
theorem Writable.write {path : String} (h : files.Writable path) (content : Bytes) :
    ∃ written, files.write path content = .ok written := by
  obtain ⟨content', written, hwrite⟩ := h
  obtain ⟨place, hreaches, hfile, -⟩ := write_eq_ok_iff.mp hwrite
  exact ⟨_, write_eq_ok_iff.mpr ⟨place, hreaches, hfile, rfl⟩⟩

end FileTree

end QuantizedConv
