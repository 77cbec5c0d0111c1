import Mathlib

/-!
# Directory trees and what they contain

Directories with named entries in the order of their enumeration. A tree is plain when it has files and
directories only, and the names of a directory are distinct. What it contains is the map from paths to
files: it does not depend on the order, nor on directories without files.

* `mem_childFiles_iff`: in a plain tree the listed files are those that are found.
* `childFiles_perm_of_find`, `find_eq_of_mem_iff`: plain trees contain the same when they list the same
  files, in any order.
-/

namespace BaselineOps.Lib.DirectoryTree

variable {N B : Type}

/-- What stands in a directory: `other` is neither a file nor a directory nor a link. -/
inductive Entry (N B : Type) where
  | file (content : B)
  | directory (children : List (N × Entry N B))
  | link
  | other

/-! ## Files -/

mutual

/-- The files of an entry, with their paths from it. -/
def Entry.files : Entry N B → List (List N × B)
  | .file content => [([], content)]
  | .directory children => childFiles children
  | .link | .other => []

/-- The files of a directory, with their paths from it. -/
def childFiles : List (N × Entry N B) → List (List N × B)
  | [] => []
  | child :: rest => child.2.files.map (fun file => (child.1 :: file.1, file.2)) ++ childFiles rest

end

mutual

/-- The number of directories of an entry. -/
def Entry.directories : Entry N B → ℕ
  | .directory children => 1 + childDirectories children
  | .file _ | .link | .other => 0

/-- The number of directories below a directory. -/
def childDirectories : List (N × Entry N B) → ℕ
  | [] => 0
  | child :: rest => child.2.directories + childDirectories rest

end

mutual

/-- Files and directories only, with distinct names. -/
def Entry.Plain : Entry N B → Prop
  | .file _ => True
  | .directory children => (children.map Prod.fst).Nodup ∧ ChildrenPlain children
  | .link | .other => False

/-- The entries of a directory are plain. -/
def ChildrenPlain : List (N × Entry N B) → Prop
  | [] => True
  | child :: rest => child.2.Plain ∧ ChildrenPlain rest

end

/-- A plain directory. -/
structure PlainTree (children : List (N × Entry N B)) : Prop where
  names : (children.map Prod.fst).Nodup
  plain : ChildrenPlain children

theorem childFiles_eq_flatMap (children : List (N × Entry N B)) : childFiles children =
    children.flatMap fun child => child.2.files.map fun file => (child.1 :: file.1, file.2) := by
  induction children with
  | nil => simp [childFiles]
  | cons child rest ih => rw [childFiles, ih, List.flatMap_cons]

theorem childDirectories_eq_sum (children : List (N × Entry N B)) :
    childDirectories children = (children.map fun child => child.2.directories).sum := by
  induction children with
  | nil => simp [childDirectories]
  | cons child rest ih => rw [childDirectories, ih, List.map_cons, List.sum_cons]

theorem childrenPlain_iff {children : List (N × Entry N B)} :
    ChildrenPlain children ↔ ∀ child ∈ children, child.2.Plain := by
  induction children with
  | nil => simp [ChildrenPlain]
  | cons child rest ih => rw [ChildrenPlain, ih, List.forall_mem_cons]

theorem plain_directory_iff {children : List (N × Entry N B)} :
    (Entry.directory children).Plain ↔ PlainTree children := by
  rw [Entry.Plain]
  exact ⟨fun h => ⟨h.1, h.2⟩, fun h => ⟨h.names, h.plain⟩⟩

/-- The order of enumeration does not matter. -/
theorem childFiles_perm {children children' : List (N × Entry N B)} (h : children.Perm children') :
    (childFiles children).Perm (childFiles children') := by
  rw [childFiles_eq_flatMap, childFiles_eq_flatMap]
  exact h.flatMap_right _

/-- A path below a directory begins with one of its names. -/
theorem exists_name_of_mem {path : List N} {content : B} {children : List (N × Entry N B)}
    (h : (path, content) ∈ childFiles children) :
    ∃ name ∈ children.map Prod.fst, ∃ rest, path = name :: rest := by
  rw [childFiles_eq_flatMap] at h
  obtain ⟨child, hchild, hmapped⟩ := List.mem_flatMap.mp h
  obtain ⟨file, -, heq⟩ := List.mem_map.mp hmapped
  exact ⟨child.1, List.mem_map_of_mem hchild, file.1, (Prod.mk.inj heq).1.symm⟩

mutual

/-- The files of a plain entry have distinct paths. -/
theorem Entry.nodup_files : ∀ (entry : Entry N B), entry.Plain → (entry.files.map Prod.fst).Nodup
  | .file content, _ => by
    rw [Entry.files]
    exact List.nodup_singleton _
  | .directory children, h => by
    rw [Entry.files]
    rw [Entry.Plain] at h
    exact nodup_childFiles children h.1 h.2
  | .link, h => by
    rw [Entry.Plain] at h
    cases h
  | .other, h => by
    rw [Entry.Plain] at h
    cases h

/-- So do those of a plain directory. -/
theorem nodup_childFiles : ∀ (children : List (N × Entry N B)), (children.map Prod.fst).Nodup →
    ChildrenPlain children → ((childFiles children).map Prod.fst).Nodup
  | [], _, _ => by
    rw [childFiles]
    exact List.nodup_nil
  | child :: rest, hnames, hplain => by
    rw [List.map_cons, List.nodup_cons] at hnames
    rw [ChildrenPlain] at hplain
    rw [childFiles, List.map_append, List.map_map, List.nodup_append]
    refine ⟨?_, nodup_childFiles rest hnames.2 hplain.2, ?_⟩
    · have hfiles := child.2.nodup_files hplain.1
      have hcons : (Prod.fst ∘ fun file : List N × B => (child.1 :: file.1, file.2)) =
          (fun path => child.1 :: path) ∘ Prod.fst := rfl
      rw [hcons, ← List.map_map]
      exact hfiles.map (List.cons_injective)
    · -- The others begin with another name.
      intro path hpath other hother heq
      obtain ⟨file, -, rfl⟩ := List.mem_map.mp hpath
      obtain ⟨⟨path', content⟩, hmem, rfl⟩ := List.mem_map.mp hother
      obtain ⟨name, hname, tail, htail⟩ := exists_name_of_mem hmem
      have hhead : child.1 = name := (List.cons.inj (heq.trans htail)).1
      exact hnames.1 (hhead ▸ hname)

end

/-! ## The map -/

variable [DecidableEq N]

/-- The file at a path. -/
def find : List N → List (N × Entry N B) → Option B
  | [], _ => none
  | name :: rest, children =>
    match (children.find? fun child => child.1 = name).map Prod.snd with
    | some (.file content) => if rest = [] then some content else none
    | some (.directory inner) => find rest inner
    | _ => none

/-- The entry of a name, if names are distinct. -/
theorem find?_eq_some_iff {children : List (N × Entry N B)} (h : (children.map Prod.fst).Nodup)
    {name : N} {entry : Entry N B} :
    (children.find? fun child => child.1 = name).map Prod.snd = some entry ↔
      (name, entry) ∈ children := by
  induction children with
  | nil => simp
  | cons child rest ih =>
    rw [List.map_cons, List.nodup_cons] at h
    rw [List.find?_cons]
    by_cases hname : child.1 = name
    · have hrest : (name, entry) ∉ rest := fun hmem =>
        h.1 (hname ▸ List.mem_map_of_mem (f := Prod.fst) hmem)
      simp only [hname, decide_true, Option.map_some, Option.some.injEq, List.mem_cons, hrest, or_false]
      rw [← hname, Prod.ext_iff]
      simp [eq_comm]
    · have hne : (name, entry) ≠ child := fun heq => hname (by rw [← heq])
      simp only [hname, decide_false, List.mem_cons, hne, false_or]
      exact ih h.2

/-- In a plain tree the listed files are those that are found. -/
theorem mem_childFiles_iff {path : List N} {children : List (N × Entry N B)} (h : PlainTree children)
    {content : B} : (path, content) ∈ childFiles children ↔ find path children = some content := by
  induction path generalizing children with
  | nil =>
    rw [childFiles_eq_flatMap, find, List.mem_flatMap]
    simp
  | cons name rest ih =>
    rw [childFiles_eq_flatMap, List.mem_flatMap, find]
    have hmem : (∃ child ∈ children, (name :: rest, content) ∈
        child.2.files.map fun file => (child.1 :: file.1, file.2)) ↔
        ∃ entry, (name, entry) ∈ children ∧ (rest, content) ∈ entry.files := by
      constructor
      · rintro ⟨child, hchild, hmapped⟩
        obtain ⟨file, hfile, heq⟩ := List.mem_map.mp hmapped
        simp only [Prod.mk.injEq, List.cons.injEq] at heq
        obtain ⟨⟨rfl, rfl⟩, rfl⟩ := heq
        exact ⟨child.2, hchild, hfile⟩
      · rintro ⟨entry, hchild, hfile⟩
        exact ⟨(name, entry), hchild, List.mem_map.mpr ⟨(rest, content), hfile, rfl⟩⟩
    rw [hmem]
    constructor
    · rintro ⟨entry, hchild, hfile⟩
      rw [(find?_eq_some_iff h.names).mpr hchild]
      cases entry with
      | file stored =>
        rw [Entry.files, List.mem_singleton, Prod.mk.injEq] at hfile
        rw [hfile.1, hfile.2]
        exact if_pos rfl
      | directory inner =>
        rw [Entry.files] at hfile
        exact (ih (plain_directory_iff.mp (childrenPlain_iff.mp h.plain _ hchild))).mp hfile
      | link => rw [Entry.files] at hfile; cases hfile
      | other => rw [Entry.files] at hfile; cases hfile
    · intro hfind
      cases hentry : (children.find? fun child => child.1 = name).map Prod.snd with
      | none =>
        rw [hentry] at hfind
        cases hfind
      | some entry =>
        rw [hentry] at hfind
        have hchild := (find?_eq_some_iff h.names).mp hentry
        refine ⟨entry, hchild, ?_⟩
        cases entry with
        | file stored =>
          dsimp only at hfind
          split_ifs at hfind with hrest
          rw [Entry.files, List.mem_singleton, Prod.mk.injEq]
          exact ⟨hrest, (Option.some.inj hfind).symm⟩
        | directory inner =>
          rw [Entry.files]
          exact (ih (plain_directory_iff.mp (childrenPlain_iff.mp h.plain _ hchild))).mpr hfind
        | link => cases hfind
        | other => cases hfind

/-- Two plain trees that contain the same list the same files, in some order. -/
theorem childFiles_perm_of_find {children children' : List (N × Entry N B)} (h : PlainTree children)
    (h' : PlainTree children') (hfind : ∀ path, find path children = find path children') :
    (childFiles children).Perm (childFiles children') := by
  have hnodup := (nodup_childFiles children h.names h.plain).of_map
  have hnodup' := (nodup_childFiles children' h'.names h'.plain).of_map
  rw [List.perm_ext_iff_of_nodup hnodup hnodup']
  rintro ⟨path, content⟩
  rw [mem_childFiles_iff h, mem_childFiles_iff h', hfind]

/-- Trees with the same files contain the same. -/
theorem find_eq_of_mem_iff {children children' : List (N × Entry N B)} (h : PlainTree children)
    (h' : PlainTree children')
    (hmem : ∀ file, file ∈ childFiles children ↔ file ∈ childFiles children') (path : List N) :
    find path children = find path children' := by
  apply Option.ext
  intro content
  rw [← mem_childFiles_iff h, ← mem_childFiles_iff h', hmem]

end BaselineOps.Lib.DirectoryTree
