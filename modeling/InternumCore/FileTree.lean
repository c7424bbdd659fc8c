import Mathlib.Data.List.Infix

/-!
# File trees

A file system as the entries at its paths, a path being the names that lead to it
from the root.  A `FileTree` carries what makes it one: whatever has an entry lies
in a directory.  So nothing lies below a path where nothing lies (`entry_below`),
and a directory made at such a path starts out empty.

`AgreeOutside root` relates two trees that differ at most at `root` and below it.
What is done to a new directory stays inside it, and then removing the directory
brings back the tree there was before (`removeTree_eq`).
-/

/-- What lies at a path. -/
inductive Entry (β : Type) where
  | directory
  | file (contents : β)
  deriving DecidableEq

/-- The entries of a file system. -/
structure FileTree (κ β : Type) where
  entry : List κ → Option (Entry β)
  parent : ∀ path name, (entry (path ++ [name])).isSome → entry path = some .directory

namespace FileTree

variable {κ β : Type}

@[ext] theorem ext {t t' : FileTree κ β} (h : ∀ path, t.entry path = t'.entry path) : t = t' := by
  cases t
  cases t'
  congr
  exact funext h

/-- Nothing lies below a path where nothing lies. -/
theorem entry_below {t : FileTree κ β} {path below : List κ} (h : t.entry path = none)
    (hbelow : path <+: below) : t.entry below = none := by
  obtain ⟨rest, rfl⟩ := hbelow
  induction rest using List.reverseRecOn with
  | nil => rwa [List.append_nil]
  | append_singleton rest name ih =>
    rw [← List.append_assoc]
    by_contra hsome
    have hdirectory := t.parent _ _ (Option.isSome_iff_ne_none.mpr hsome)
    rw [ih] at hdirectory
    exact absurd hdirectory (by simp)

/-- A file system with nothing in it. -/
def bare : FileTree κ β where
  entry
    | [] => some .directory
    | _ :: _ => none
  parent path name h := by
    cases path <;> exact absurd h (by simp)

/-- The parents of a path, the nearest first. -/
def parents (path : List κ) : List (List κ) :=
  (List.range path.length).reverse.map path.take

theorem parents_append_singleton (path : List κ) (name : κ) :
    parents (path ++ [name]) = path :: parents path := by
  unfold parents
  rw [List.length_append, List.length_singleton, List.range_succ, List.reverse_append]
  rw [List.reverse_singleton, List.singleton_append, List.map_cons, List.take_left]
  congr 1
  refine List.map_congr_left fun n hn => List.take_append_of_le_length ?_
  exact (List.mem_range.mp (List.mem_reverse.mp hn)).le

/-! ## Operations -/

variable [DecidableEq κ]

/-- Puts an entry into a directory. -/
def place (t : FileTree κ β) (path : List κ) (name : κ) (new : Entry β)
    (hpath : t.entry path = some .directory)
    (hfree : t.entry (path ++ [name]) ≠ some .directory) : FileTree κ β where
  entry other := if other = path ++ [name] then some new else t.entry other
  parent other child h := by
    by_cases hother : other = path ++ [name]
    · subst hother
      rw [if_neg (by simp)] at h
      exact absurd (t.parent _ _ h) hfree
    · rw [if_neg hother]
      by_cases hnew : other ++ [child] = path ++ [name]
      · obtain ⟨rfl, -⟩ := List.append_inj' hnew rfl
        exact hpath
      · rw [if_neg hnew] at h
        exact t.parent _ _ h

omit [DecidableEq κ] in
theorem not_prefix_of_not_prefix_append {path other : List κ} {name : κ}
    (h : ¬path <+: other ++ [name]) : ¬path <+: other :=
  fun hother => h (hother.trans (List.prefix_append _ _))

/-- Removes what lies at a path and below it. -/
def removeTree (t : FileTree κ β) (path : List κ) : FileTree κ β where
  entry other := if path <+: other then none else t.entry other
  parent other child h := by
    by_cases hchild : path <+: other ++ [child]
    · rw [if_pos hchild] at h
      exact absurd h (by simp)
    · rw [if_neg hchild] at h
      rw [if_neg (not_prefix_of_not_prefix_append hchild)]
      exact t.parent _ _ h

theorem entry_removeTree (t : FileTree κ β) (path other : List κ) :
    (t.removeTree path).entry other = if path <+: other then none else t.entry other := rfl

variable [DecidableEq β]

/-- Makes a directory where nothing lies. -/
def mkdir (t : FileTree κ β) (path : List κ) (name : κ) : Option (FileTree κ β) :=
  if h : t.entry path = some .directory ∧ t.entry (path ++ [name]) = none then
    some (t.place path name .directory h.1 (by simp [h.2]))
  else none

/-- Writes a file, over the one that lies there. -/
def write (t : FileTree κ β) (path : List κ) (name : κ) (contents : β) : Option (FileTree κ β) :=
  if h : t.entry path = some .directory ∧ t.entry (path ++ [name]) ≠ some .directory then
    some (t.place path name (.file contents) h.1 h.2)
  else none

/-- Replaces what lies below a directory. -/
def fill (t : FileTree κ β) (path : List κ) (inside : FileTree κ β) : FileTree κ β where
  entry other :=
    if t.entry path = some .directory ∧ path <+: other ∧ other ≠ path then
      inside.entry (other.drop path.length)
    else t.entry other
  parent other child h := by
    by_cases hother : t.entry path = some .directory ∧ path <+: other
    · obtain ⟨hpath, rest, rfl⟩ := hother
      rw [List.append_assoc, if_pos ⟨hpath, List.prefix_append _ _, by simp⟩] at h
      rw [List.drop_left] at h
      by_cases hrest : rest = []
      · rw [hrest, List.append_nil, if_neg (by simp)]
        exact hpath
      · rw [if_pos ⟨hpath, List.prefix_append _ _, by simpa using hrest⟩, List.drop_left]
        exact inside.parent _ _ h
    · rw [if_neg fun hin => hother ⟨hin.1, hin.2.1⟩]
      rw [if_neg] at h
      · exact t.parent _ _ h
      · rintro ⟨hpath, hchild, hne⟩
        rcases List.prefix_concat_iff.mp hchild with heq | hbelow
        · exact hne heq.symm
        · exact hother ⟨hpath, hbelow⟩

/-! ## What an operation does at each path -/

@[simp] theorem entry_fill_self (t inside : FileTree κ β) (path : List κ) :
    (t.fill path inside).entry path = t.entry path := if_neg fun h => h.2.2 rfl

theorem entry_fill_append {t inside : FileTree κ β} {path rest : List κ}
    (hpath : t.entry path = some .directory) (hrest : rest ≠ []) :
    (t.fill path inside).entry (path ++ rest) = inside.entry rest := by
  show (if _ then _ else _) = _
  rw [if_pos ⟨hpath, List.prefix_append _ _, by simpa using hrest⟩, List.drop_left]

theorem entry_mkdir {t t' : FileTree κ β} {path : List κ} {name : κ}
    (h : t.mkdir path name = some t') (other : List κ) :
    t'.entry other = if other = path ++ [name] then some .directory else t.entry other := by
  unfold mkdir at h
  by_cases hfree : t.entry path = some .directory ∧ t.entry (path ++ [name]) = none
  · rw [dif_pos hfree, Option.some.injEq] at h
    rw [← h]
    rfl
  · rw [dif_neg hfree] at h
    exact absurd h (by simp)

theorem entry_write {t t' : FileTree κ β} {path : List κ} {name : κ} {contents : β}
    (h : t.write path name contents = some t') (other : List κ) :
    t'.entry other = if other = path ++ [name] then some (.file contents) else t.entry other := by
  unfold write at h
  by_cases hfree : t.entry path = some .directory ∧ t.entry (path ++ [name]) ≠ some .directory
  · rw [dif_pos hfree, Option.some.injEq] at h
    rw [← h]
    rfl
  · rw [dif_neg hfree] at h
    exact absurd h (by simp)

/-- A directory is made exactly where nothing lies in a directory. -/
theorem mkdir_isSome_iff {t : FileTree κ β} {path : List κ} {name : κ} :
    (t.mkdir path name).isSome ↔ t.entry path = some .directory ∧ t.entry (path ++ [name]) = none := by
  unfold mkdir
  split
  · next h => exact ⟨fun _ => h, fun _ => rfl⟩
  · next h => exact ⟨fun hsome => absurd hsome (by simp), fun h' => absurd h' h⟩

theorem write_isSome_iff {t : FileTree κ β} {path : List κ} {name : κ} {contents : β} :
    (t.write path name contents).isSome ↔
      t.entry path = some .directory ∧ t.entry (path ++ [name]) ≠ some .directory := by
  unfold write
  split
  · next h => exact ⟨fun _ => h, fun _ => rfl⟩
  · next h => exact ⟨fun hsome => absurd hsome (by simp), fun h' => absurd h' h⟩

/-- Making a directory leaves the files what they are. -/
theorem mkdir_file_iff {t t' : FileTree κ β} {path : List κ} {name : κ}
    (h : t.mkdir path name = some t') (other : List κ) (contents : β) :
    t'.entry other = some (.file contents) ↔ t.entry other = some (.file contents) := by
  rw [entry_mkdir h]
  by_cases hother : other = path ++ [name]
  · have hfree := (mkdir_isSome_iff.mp (Option.isSome_of_eq_some h)).2
    rw [if_pos hother, hother, hfree]
    exact ⟨fun h => absurd h (by simp), fun h => absurd h (by simp)⟩
  · rw [if_neg hother]

/-! ## What stays below a directory -/

/-- The trees differ at most at `root` and below it. -/
def AgreeOutside (root : List κ) (t t' : FileTree κ β) : Prop :=
  ∀ path, ¬root <+: path → t'.entry path = t.entry path

namespace AgreeOutside

variable {root : List κ} {t t' t'' : FileTree κ β}

omit [DecidableEq κ] [DecidableEq β] in
theorem refl (root : List κ) (t : FileTree κ β) : AgreeOutside root t t := fun _ _ => rfl

omit [DecidableEq κ] [DecidableEq β] in
theorem trans (h : AgreeOutside root t t') (h' : AgreeOutside root t' t'') :
    AgreeOutside root t t'' := fun path hpath => (h' path hpath).trans (h path hpath)

theorem mkdir {path : List κ} {name : κ} (hroot : root <+: path ++ [name])
    (h : t.mkdir path name = some t') : AgreeOutside root t t' := by
  intro other hother
  rw [entry_mkdir h, if_neg]
  rintro rfl
  exact hother hroot

theorem write {path : List κ} {name : κ} {contents : β} (hroot : root <+: path ++ [name])
    (h : t.write path name contents = some t') : AgreeOutside root t t' := by
  intro other hother
  rw [entry_write h, if_neg]
  rintro rfl
  exact hother hroot

theorem fill (inside : FileTree κ β) : AgreeOutside root t (t.fill root inside) :=
  fun _ hother => if_neg fun h => hother h.2.1

omit [DecidableEq β] in
/-- Removing a new directory brings back the tree there was before. -/
theorem removeTree_eq (h : AgreeOutside root t t') (hfree : t.entry root = none) :
    t'.removeTree root = t := by
  refine FileTree.ext fun path => ?_
  rw [entry_removeTree]
  by_cases hpath : root <+: path
  · rw [if_pos hpath, entry_below hfree hpath]
  · rw [if_neg hpath, h path hpath]

end AgreeOutside
end FileTree
