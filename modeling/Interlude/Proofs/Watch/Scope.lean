import Interlude.Proofs.File.Path
import Interlude.Watch.Scope
/-!
# Which directories are watched

A directory that is named by its cleaned path is watched with exactly the directories below it that
are reached without a hidden name (`mem_recursive`). A hidden directory, or the working directory,
that is spelled in any other way is not told from a hidden one below the root: nothing of it is
watched (`recursive_hidden`).
-/

namespace Interlude

namespace Watch

open FileTree (IsDirectory)
open Interlude.Path (IsName below isHidden)

variable {files : FileTree} {root : String}

/-- The paths of the directories of a tree that are reached without a hidden name. -/
def Reached (parts : List String) (t : FileTree) (path : String) : Prop :=
  ∃ rest, (∀ name ∈ rest, isHidden name = false) ∧ t.IsDirectory rest ∧ path = below (parts ++ rest)

variable {parts : List String} {path : String}

theorem not_reached_file (text : String) : ¬Reached parts (.file text) path := by
  rintro ⟨rest, -, ⟨es, hes⟩, -⟩
  cases rest <;> cases hes

/-- What is reached in a directory is the directory itself, or is reached in an entry that is not
hidden. -/
theorem reached_directory {es : List (String × FileTree)} (hnodup : (es.map (·.1)).Nodup) :
    Reached parts (.directory es) path ↔
      path = below parts ∨ ∃ e ∈ es, isHidden e.1 = false ∧ Reached (parts ++ [e.1]) e.2 path := by
  constructor
  · rintro ⟨rest, hvisible, hdir, rfl⟩
    cases rest with
    | nil => exact .inl (by simp)
    | cons name rest =>
      obtain ⟨hname, hrest⟩ := List.forall_mem_cons.1 hvisible
      obtain ⟨child, hchild, hdir⟩ := FileTree.isDirectory_cons.1 hdir
      exact .inr ⟨(name, child), FileTree.mem_of_lookup hchild, hname, rest, hrest, hdir, by simp⟩
  · rintro (rfl | ⟨⟨name, child⟩, hmem, hname, rest, hrest, hdir, rfl⟩)
    · exact ⟨[], by simp, ⟨es, rfl⟩, by simp⟩
    · refine ⟨name :: rest, List.forall_mem_cons.2 ⟨hname, hrest⟩, ?_, by simp⟩
      exact FileTree.isDirectory_cons.2 ⟨child, FileTree.lookup_of_mem hnodup hmem, hdir⟩

theorem mem_directoriesIn (hparts : ∀ name ∈ parts, IsName name) {es : List (String × FileTree)}
    (hes : ∀ e ∈ es, IsName e.1) :
    path ∈ directoriesIn root (below parts) es ↔
      ∃ e ∈ es, path ∈ directoriesFrom root (below (parts ++ [e.1])) e.1 e.2 := by
  induction es with
  | nil => simp [directoriesIn]
  | cons e rest ih =>
    obtain ⟨name, t⟩ := e
    obtain ⟨hname, hrest⟩ := List.forall_mem_cons.1 hes
    rw [directoriesIn, List.mem_append, ih hrest, Path.join_below hparts hname]
    simp

/-- If of each entry just what is reached there is watched, so it is of the directory. -/
theorem mem_cons_directoriesIn (hparts : ∀ name ∈ parts, IsName name)
    {es : List (String × FileTree)} (hnodup : (es.map (·.1)).Nodup) (hes : ∀ e ∈ es, IsName e.1)
    (hentries : ∀ e ∈ es, (path ∈ directoriesFrom root (below (parts ++ [e.1])) e.1 e.2 ↔
      isHidden e.1 = false ∧ Reached (parts ++ [e.1]) e.2 path)) :
    path ∈ below parts :: directoriesIn root (below parts) es ↔
    Reached parts (.directory es) path := by
  rw [reached_directory hnodup, List.mem_cons, mem_directoriesIn hparts hes]
  exact or_congr_right (exists_congr fun e => and_congr_right (hentries e))

/-- Below the root, a directory with a hidden name is passed over with all that is in it. -/
theorem mem_directoriesFrom (hparts : ∀ name ∈ parts, IsName name) {name : String} {t : FileTree}
    (ht : t.Proper) (hroot : ∀ rest, t.IsDirectory rest → below (parts ++ rest) ≠ root) :
    path ∈ directoriesFrom root (below parts) name t ↔ isHidden name = false ∧
    Reached parts t path := by
  induction t using FileTree.of_entries generalizing parts name with
  | hfile text => simp [directoriesFrom, not_reached_file]
  | hdirectory es ih =>
    obtain ⟨hnodup, hes⟩ := ht [] es rfl
    have hne : below parts ≠ root := by simpa using hroot [] ⟨es, rfl⟩
    rw [directoriesFrom]
    cases hname : isHidden name with
    | true => simp [hne]
    | false =>
      rw [if_neg (by simp), mem_cons_directoriesIn hparts hnodup hes, eq_self, true_and]
      intro e he
      have hlookup := FileTree.lookup_of_mem hnodup he
      have hnames : ∀ n ∈ parts ++ [e.1], IsName n :=
        List.forall_mem_append.2 ⟨hparts, by simpa using hes e he⟩
      refine ih e he hnames (ht.entry hlookup) fun rest hdir => ?_
      rw [List.append_assoc]
      exact hroot (e.1 :: rest) (FileTree.isDirectory_cons.2 ⟨e.2, hlookup, hdir⟩)

variable {names : List String}

theorem recursive_eq (hfiles : files.Proper) (hl : files.locate root = .ok names)
    {es : List (String × FileTree)} (hd : files.get? names = some (.directory es)) :
    recursive files root = directoriesFrom root (below names) (Path.base (below names))
      (.directory es) := by
  have hfind : files.find (below names) = .ok (.directory es) := by
    rw [FileTree.find, FileTree.locate_below hfiles ⟨es, hd⟩]
    simp only [bind, Except.bind, hd]
  rw [recursive, FileTree.clean_of_locate hl]
  simp only [hfind]

/-- The directories watched for a directory that is spelled as its path is cleaned, or is not
hidden, are those at and below it that are reached without a hidden name. -/
theorem mem_recursive (hfiles : files.Proper) (hl : files.locate root = .ok names)
    (hd : files.IsDirectory names)
    (hspell : Path.clean root = root ∨ isHidden (Path.base (Path.clean root)) = false) :
    path ∈ recursive files root ↔
      ∃ rest, (∀ name ∈ rest, isHidden name = false) ∧ files.IsDirectory (names ++ rest) ∧
        path = below (names ++ rest) := by
  obtain ⟨es, hes⟩ := hd
  have hnames := hfiles.isName hes
  have hproper := hfiles.of_get? hes
  obtain ⟨hnodup, hentries⟩ := hproper [] es rfl
  rw [FileTree.clean_of_locate hl] at hspell
  have hkept : ¬(below names != root && isHidden (Path.base (below names))) = true := by
    rcases hspell with h | h <;> simp [h]
  have hreached : (∃ rest, (∀ name ∈ rest, isHidden name = false) ∧
      files.IsDirectory (names ++ rest) ∧ path = below (names ++ rest)) ↔
          Reached names (.directory es) path :=
    exists_congr fun rest => and_congr_right fun _ => and_congr_left fun _ =>
      FileTree.isDirectory_append hes
  rw [recursive_eq hfiles hl hes, hreached, directoriesFrom, if_neg hkept,
    mem_cons_directoriesIn hnames hnodup hentries]
  -- what is below the root has another path, so the exception for the root does not reach it
  intro e he
  have hlookup := FileTree.lookup_of_mem hnodup he
  have hparts : ∀ n ∈ names ++ [e.1], IsName n :=
    List.forall_mem_append.2 ⟨hnames, by simpa using hentries e he⟩
  refine mem_directoriesFrom hparts (hproper.entry hlookup) fun rest hdir heq => ?_
  rw [List.append_assoc] at heq
  obtain ⟨es', hes'⟩ :=
    (FileTree.isDirectory_append hes).2 (FileTree.isDirectory_cons.2 ⟨e.2, hlookup, hdir⟩)
  have hall := hfiles.isName hes'
  have hsame : below names = below (names ++ ([e.1] ++ rest)) := by
    rw [← FileTree.clean_of_locate hl, ← heq]
    exact Path.clean_below hall
  simpa using Path.below_injective hnames hall hsame

/-- A path that is watched leads to a directory at or below the one that was asked for. -/
theorem locate_of_mem_recursive (hfiles : files.Proper) (hl : files.locate root = .ok names)
    (hd : files.IsDirectory names)
    (hspell : Path.clean root = root ∨ isHidden (Path.base (Path.clean root)) = false)
    (hpath : path ∈ recursive files root) :
    ∃ rest, files.locate path = .ok (names ++ rest) ∧ files.IsDirectory (names ++ rest) := by
  obtain ⟨rest, -, hdir, rfl⟩ := (mem_recursive hfiles hl hd hspell).1 hpath
  exact ⟨rest, FileTree.locate_below hfiles hdir, hdir⟩

/-- A hidden directory that is spelled in another way is not watched, and nothing below it is. The
working directory counts as hidden: its path is a dot. -/
theorem recursive_hidden (hfiles : files.Proper) (hl : files.locate root = .ok names)
    (hd : files.IsDirectory names) (hspell : Path.clean root ≠ root)
    (hhidden : isHidden (Path.base (Path.clean root)) = true) :
    recursive files root = [] := by
  obtain ⟨es, hes⟩ := hd
  rw [FileTree.clean_of_locate hl] at hspell hhidden
  rw [recursive_eq hfiles hl hes, directoriesFrom, if_pos (by simp [hspell, hhidden])]

end Watch

namespace Sample

open FileTree (proper_file proper_directory)

/-- A directory with a hidden one and one that is not. -/
def site : FileTree :=
  .directory [(".cache", .directory []), ("pages", .directory [("index.yaml", .file "")]),
    ("site.yaml", .file "")]

theorem site_proper : site.Proper := by
  have hpages : (FileTree.directory [("index.yaml", .file "")]).Proper :=
    proper_directory (by decide) (by simpa using ⟨by decide, proper_file ""⟩)
  refine proper_directory (by decide) ?_
  simp only [List.forall_mem_cons, List.not_mem_nil, false_implies, implies_true, and_true]
  exact ⟨⟨by decide, proper_directory (by decide) (by simp)⟩, ⟨by decide, hpages⟩,
    by decide, proper_file ""⟩

/-- Two spellings of the working directory lead to the same place. Of the one that is not cleaned
nothing is watched. -/
theorem spelling_matters : site.locate "." = .ok [] ∧ site.locate "./" = .ok [] ∧
    Watch.recursive site "." = [".", "pages"] ∧ Watch.recursive site "./" = [] :=
  ⟨by cbv, by cbv, by decide +kernel,
    Watch.recursive_hidden site_proper (by cbv) ⟨_, rfl⟩ (by cbv) (by cbv)⟩

end Sample

end Interlude
