import Mathlib
import Interlude.File.Tree
/-!
# Paths and where they lead

The path of a directory is spelled in one way once it is cleaned: the names that lead to it, joined.
In a tree whose entries have proper names, following any spelling comes to the names of the cleaned
one (`clean_of_locate`).
-/

namespace Interlude

namespace Text

theorem splitChars_of_notMem {sep : Char} {cs : List Char} (h : sep ∉ cs) :
    splitChars sep cs = [cs] := by
  induction cs with
  | nil => rfl
  | cons c rest ih =>
    rw [splitChars, if_neg (List.ne_of_not_mem_cons h).symm, ih (List.not_mem_of_not_mem_cons h)]

theorem splitChars_append {sep : Char} {cs : List Char} (h : sep ∉ cs) (rest : List Char) :
    splitChars sep (cs ++ sep :: rest) = cs :: splitChars sep rest := by
  induction cs with
  | nil => rw [List.nil_append, splitChars, if_pos rfl]
  | cons c cs ih =>
    rw [List.cons_append, splitChars, if_neg (List.ne_of_not_mem_cons h).symm,
      ih (List.not_mem_of_not_mem_cons h)]

theorem split_of_notMem {sep : Char} {s : String} (h : sep ∉ s.toList) : split sep s = [s] := by
  simp [split, splitChars_of_notMem h]

theorem split_append {s : String} (h : '/' ∉ s.toList) (rest : String) :
    split '/' (s ++ ("/" ++ rest)) = s :: split '/' rest := by
  have htext : (s ++ ("/" ++ rest)).toList = s.toList ++ '/' :: rest.toList := by simp
  simp [split, htext, splitChars_append h]

/-- Parts without a slash are found again in the text that joins them. -/
theorem split_join {parts : List String} (hne : parts ≠ [])
    (h : ∀ part ∈ parts, '/' ∉ part.toList) :
    split '/' (join "/" parts) = parts := by
  induction parts with
  | nil => exact absurd rfl hne
  | cons part rest ih =>
    obtain ⟨hpart, hrest⟩ := List.forall_mem_cons.1 h
    cases rest with
    | nil => simp [join, split_of_notMem hpart]
    | cons next rest =>
      rw [join, String.intercalate_cons_cons, String.append_assoc, split_append hpart]
      exact congrArg (part :: ·) (ih (by simp) hrest)

end Text

namespace Path

/-- A name that an entry of a directory can have. -/
structure IsName (name : String) : Prop where
  nonempty : name ≠ ""
  not_dot : name ≠ "."
  not_dots : name ≠ ".."
  slash : '/' ∉ name.toList

instance (name : String) : Decidable (IsName name) :=
  decidable_of_iff (name ≠ "" ∧ name ≠ "." ∧ name ≠ ".." ∧ '/' ∉ name.toList)
    ⟨fun ⟨h₁, h₂, h₃, h₄⟩ => ⟨h₁, h₂, h₃, h₄⟩, fun h =>
      ⟨h.nonempty, h.not_dot, h.not_dots, h.slash⟩⟩

variable {names : List String}

theorem cleanStep_skip {part : String} (h : (part == "" || part == ".") = true) (rooted : Bool)
    (done : List String) :
    cleanStep rooted done part = done := by
  unfold cleanStep
  exact if_pos h

theorem cleanStep_up {last : String} (h : last ≠ "..") (rooted : Bool) (before : List String) :
    cleanStep rooted (last :: before) ".." = before := by
  simp [cleanStep, h]

theorem cleanStep_part {part : String} (h : ¬(part == "" || part == ".") = true) (hup : part ≠ "..")
    (rooted : Bool) (done : List String) : cleanStep rooted done part = part :: done := by
  unfold cleanStep
  rw [if_neg h, if_neg (by simpa using hup)]

theorem cleanStep_name {name : String} (h : IsName name) (rooted : Bool) (done : List String) :
    cleanStep rooted done name = name :: done :=
  cleanStep_part (by simp [h.nonempty, h.not_dot]) h.not_dots rooted done

theorem foldl_cleanStep (h : ∀ name ∈ names, IsName name) (rooted : Bool) (done : List String) :
    names.foldl (cleanStep rooted) done = names.reverse ++ done := by
  induction names generalizing done with
  | nil => rfl
  | cons name rest ih =>
    obtain ⟨hname, hrest⟩ := List.forall_mem_cons.1 h
    rw [List.foldl_cons, cleanStep_name hname, ih hrest, List.reverse_cons, List.append_assoc,
      List.singleton_append]

/-- The path that names make, seen from the working directory. -/
abbrev below (names : List String) : String := ofParts false names

theorem below_nil : below [] = "." := rfl

theorem below_of_ne_nil (h : names ≠ []) : below names = Text.join "/" names := by
  simp [below, ofParts, h]

theorem split_below (h : ∀ name ∈ names, IsName name) (hne : names ≠ []) :
    Text.split '/' (below names) = names := by
  rw [below_of_ne_nil hne]
  exact Text.split_join hne fun name hname => (h name hname).slash

/-- A path of names is not one from the root of the file system. -/
theorem not_rooted_of_split {path first : String} {rest : List String}
    (h : Text.split '/' path = first :: rest) (hne : first ≠ "") : path.startsWith "/" = false := by
  rw [String.startsWith_string_eq_false_iff]
  rintro ⟨tail, htail⟩
  have htext : path.toList = '/' :: tail := htail.symm
  rw [Text.split, htext, Text.splitChars, if_pos rfl, List.map_cons] at h
  exact hne (List.cons.inj h).1.symm

theorem not_rooted_below (h : ∀ name ∈ names, IsName name) :
    (below names).startsWith "/" = false := by
  cases names with
  | nil => cbv
  | cons name rest =>
    exact not_rooted_of_split (split_below h (by simp)) (h name (by simp)).nonempty

theorem below_isEmpty (h : ∀ name ∈ names, IsName name) : (below names).isEmpty = false := by
  cases names with
  | nil => rfl
  | cons first rest =>
    refine Bool.eq_false_iff.2 fun hempty => (h first (by simp)).nonempty ?_
    have hsplit := split_below h (by simp)
    rw [String.isEmpty_iff.1 hempty] at hsplit
    exact (List.cons.inj hsplit).1.symm

theorem cleanParts_below (h : ∀ name ∈ names, IsName name) : cleanParts (below names) = names := by
  unfold cleanParts
  cases names with
  | nil => cbv
  | cons name rest =>
    simp only
    rw [split_below h (by simp), foldl_cleanStep h]
    simp

theorem below_injective {names' : List String} (h : ∀ name ∈ names, IsName name)
    (h' : ∀ name ∈ names', IsName name) (heq : below names = below names') : names = names' := by
  rw [← cleanParts_below h, heq, cleanParts_below h']

theorem clean_below (h : ∀ name ∈ names, IsName name) : clean (below names) = below names := by
  rw [clean, not_rooted_below h, cleanParts_below h]

/-- The path of an entry of a directory adds its name. -/
theorem join_below {name : String} (h : ∀ name ∈ names, IsName name) (hname : IsName name) :
    join (below names) name = below (names ++ [name]) := by
  have hall : ∀ n ∈ names ++ [name], IsName n := List.forall_mem_append.2 ⟨h, by simpa using hname⟩
  cases names with
  | nil =>
    have hsplit : Text.split '/' ("." ++ ("/" ++ name)) = [".", name] := by
      rw [Text.split_append (by decide), Text.split_of_notMem hname.slash]
    have hparts : cleanParts ("." ++ ("/" ++ name)) = [name] := by
      simp only [cleanParts, hsplit, List.foldl_cons, List.foldl_nil, cleanStep_name hname]
      rfl
    rw [below_nil, join, if_neg (by decide), String.append_assoc, clean, hparts,
      not_rooted_of_split hsplit (by decide), List.nil_append]
  | cons first rest =>
    have htext : below (first :: rest) ++ "/" ++ name = below (first :: rest ++ [name]) := by
      rw [below_of_ne_nil (by simp), below_of_ne_nil (by simp), Text.join, Text.join,
        String.intercalate_append_of_ne_nil (by simp) (by simp), String.intercalate_singleton]
    rw [join, if_neg (by simp [below_isEmpty h]), htext, clean_below hall]

end Path

namespace FileTree

open Interlude.Path (IsName below cleanStep)

variable {t u : FileTree} {names : List String}

theorem get?_append (t : FileTree) (names rest : List String) :
    t.get? (names ++ rest) = (t.get? names).bind (·.get? rest) := by
  induction names generalizing t with
  | nil => rfl
  | cons name names ih =>
    rw [List.cons_append, get?, get?]
    cases t.entries.lookup name with
    | none => rfl
    | some child => exact ih child

theorem get?_file (text name : String) (rest : List String) :
    (file text).get? (name :: rest) = none := rfl

theorem get?_entry {es : List (String × FileTree)} {name : String} {child : FileTree}
    (h : es.lookup name = some child) (rest : List String) :
    (directory es).get? (name :: rest) = child.get? rest := by
  simp [get?, entries, h]

theorem mem_of_lookup {es : List (String × FileTree)} {name : String} {child : FileTree}
    (h : es.lookup name = some child) : (name, child) ∈ es := by
  obtain ⟨before, after, rfl, -⟩ := List.lookup_eq_some_iff.1 h
  simp

/-- With one entry for each name, every entry is found. -/
theorem lookup_of_mem {es : List (String × FileTree)} (hnodup : (es.map (·.1)).Nodup)
    {e : String × FileTree} (he : e ∈ es) : es.lookup e.1 = some e.2 := by
  obtain ⟨before, after, rfl⟩ := List.append_of_mem he
  refine List.lookup_eq_some_iff.2 ⟨before, after, rfl, fun q hq => ?_⟩
  rw [List.map_append, List.map_cons, List.nodup_append] at hnodup
  simpa using (hnodup.2.2 q.1 (List.mem_map_of_mem hq) e.1 (by simp)).symm

/-- What holds of files, and of directories if it holds of their entries, holds of every tree. -/
theorem of_entries {P : FileTree → Prop} (hfile : ∀ text, P (file text))
    (hdirectory : ∀ es, (∀ e ∈ es, P e.2) → P (directory es)) : ∀ t, P t
  | file text => hfile text
  | directory es => hdirectory es fun e he =>
    have : sizeOf e.2 < 1 + sizeOf es := by
      have hmem := List.sizeOf_lt_of_mem he
      obtain ⟨name, child⟩ := e
      simp only [Prod.mk.sizeOf_spec] at hmem
      simp only
      omega
    of_entries hfile hdirectory e.2

/-! ## Where paths lead -/

/-- A directory stands under names. -/
def IsDirectory (t : FileTree) (names : List String) : Prop :=
    ∃ es, t.get? names = some (directory es)

theorem isDirectory_append {rest : List String} (ht : t.get? names = some u) :
    t.IsDirectory (names ++ rest) ↔ u.IsDirectory rest := by
  simp [IsDirectory, get?_append, ht]

theorem isDirectory_cons {es : List (String × FileTree)} {name : String} :
    (directory es).IsDirectory (name :: names) ↔ ∃ child, es.lookup name = some child ∧
    child.IsDirectory names := by
  constructor
  · rintro ⟨es', hes'⟩
    cases hchild : es.lookup name with
    | none => simp [get?, entries, hchild] at hes'
    | some child => exact ⟨child, rfl, es', by rwa [get?_entry hchild] at hes'⟩
  · rintro ⟨child, hchild, es', hes'⟩
    exact ⟨es', by rwa [get?_entry hchild]⟩

/-- The entries of every directory of a tree have proper names, each of them another. -/
def Proper (t : FileTree) : Prop :=
  ∀ names es, t.get? names = some (directory es) → (es.map (·.1)).Nodup ∧ ∀ e ∈ es, IsName e.1

theorem Proper.of_get? (h : t.Proper) (ht : t.get? names = some u) : u.Proper := by
  intro rest es hes
  refine h (names ++ rest) es ?_
  rw [get?_append, ht]
  exact hes

theorem Proper.entry {es : List (String × FileTree)} {name : String} {child : FileTree}
    (h : (directory es).Proper) (hchild : es.lookup name = some child) : child.Proper := by
  have hget : (directory es).get? [name] = some child := get?_entry hchild []
  exact h.of_get? hget

theorem proper_file (text : String) : (file text).Proper := by
  intro names es hes
  cases names <;> cases hes

/-- A directory is proper if its names are, and its entries. -/
theorem proper_directory {es : List (String × FileTree)} (hnodup : (es.map (·.1)).Nodup)
    (hes : ∀ e ∈ es, IsName e.1 ∧ e.2.Proper) : (directory es).Proper := by
  intro names es' hes'
  cases names with
  | nil => cases hes'; exact ⟨hnodup, fun e he => (hes e he).1⟩
  | cons name rest =>
    obtain ⟨child, hchild, -⟩ := isDirectory_cons.1 ⟨es', hes'⟩
    rw [get?_entry hchild] at hes'
    exact (hes _ (mem_of_lookup hchild)).2 rest es' hes'

/-- Names that lead somewhere are proper. -/
theorem Proper.isName (h : t.Proper) (ht : t.get? names = some u) : ∀ name ∈ names,
    IsName name := by
  induction names generalizing t with
  | nil => exact fun _ hn => by cases hn
  | cons name rest ih =>
    cases t with
    | file text => rw [get?_file] at ht; cases ht
    | directory es =>
      cases hchild : es.lookup name with
      | none => simp [get?, entries, hchild] at ht
      | some child =>
        rw [get?_entry hchild] at ht
        exact List.forall_mem_cons.2 ⟨(h [] es rfl).2 _ (mem_of_lookup hchild),
          ih (h.entry hchild) ht⟩

theorem follow_of_get? {done : List String} (h : ∀ name ∈ names, IsName name)
    (ht : t.get? (done ++ names) = some u) :
    t.follow done names = .ok (done ++ names) := by
  induction names generalizing done with
  | nil => simp [follow]
  | cons name rest ih =>
    obtain ⟨hname, hrest⟩ := List.forall_mem_cons.1 h
    have hsplit := ht
    rw [get?_append] at hsplit
    obtain ⟨v, hv, hu⟩ := Option.bind_eq_some_iff.1 hsplit
    cases v with
    | file text => rw [get?_file] at hu; cases hu
    | directory es =>
      have hnext : t.follow (done ++ [name]) rest = .ok (done ++ [name] ++ rest) :=
        ih hrest (by simpa using ht)
      rw [follow, hv]
      simpa [hname.nonempty, hname.not_dot, hname.not_dots] using hnext

/-- The path made of the names of a directory leads there. -/
theorem locate_below (h : t.Proper) (hd : t.IsDirectory names) :
    t.locate (below names) = .ok names := by
  obtain ⟨es, ht⟩ := hd
  have hnames := h.isName ht
  have hfollow : t.follow [] (Text.split '/' (below names)) = .ok names := by
    cases names with
    | nil =>
      have hdot : Text.split '/' (below []) = ["."] := by cbv
      rw [hdot, follow, ht]
      simp [follow]
    | cons name rest =>
      rw [Path.split_below hnames (by simp)]
      exact follow_of_get? hnames ht
  have hne : (below names).isEmpty = false := Path.below_isEmpty hnames
  rw [locate, if_neg (by simp [hne, Path.not_rooted_below hnames]), hfollow]

/-- Following the parts of a path comes to the same names as cleaning it. -/
theorem foldl_of_follow {done parts : List String} (hdone : ".." ∉ done)
    (h : t.follow done parts = .ok names) :
    parts.foldl (cleanStep false) done.reverse = names.reverse := by
  induction parts generalizing done with
  | nil => cases h; rfl
  | cons part rest ih =>
    rw [follow] at h
    split at h
    · cases h
    · cases h
    · rw [List.foldl_cons]
      by_cases hskip : (part == "" || part == ".") = true
      · rw [if_pos hskip] at h
        rw [Path.cleanStep_skip hskip]
        exact ih hdone h
      · rw [if_neg hskip] at h
        by_cases hup : part = ".."
        · subst hup
          rw [if_pos (by rfl)] at h
          split at h
          · cases h
          · next hnil =>
            -- the part before goes: it is not one that leads upwards itself
            obtain ⟨before, last, rfl⟩ : ∃ before last, done = before ++ [last] :=
              ⟨_, _, (List.dropLast_concat_getLast fun hdone =>
                hnil (List.isEmpty_iff.2 hdone)).symm⟩
            obtain ⟨hbefore, hlast⟩ : ".." ∉ before ∧ last ≠ ".." := by simpa [eq_comm] using hdone
            rw [List.reverse_append, List.reverse_singleton, List.singleton_append,
              Path.cleanStep_up hlast]
            rw [List.dropLast_concat] at h
            exact ih hbefore h
        · rw [if_neg (by simpa using hup)] at h
          rw [Path.cleanStep_part hskip hup]
          simpa using ih (by simp [hdone, Ne.symm hup]) h

/-- However it is spelled, the cleaned path of a directory is made of its names. -/
theorem clean_of_locate {path : String} (h : t.locate path = .ok names) :
    Path.clean path = below names := by
  unfold locate at h
  split at h
  · cases h
  · next hpath =>
    rw [Bool.or_eq_true, not_or, Bool.not_eq_true, Bool.not_eq_true] at hpath
    have hfold := foldl_of_follow (by simp) h
    rw [Path.clean, Path.cleanParts, hpath.2]
    exact congrArg below (by simpa using congrArg List.reverse hfold)

end FileTree

end Interlude
