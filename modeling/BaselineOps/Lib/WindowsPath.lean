import BaselineOps.Lib.OsPath

/-!
# What a path names on Windows

A directory is a volume with the names below its root. A path is read from a directory: with a prefix it
begins on another volume, with a root at the root, and with a drive and no root in the drive's current
directory.

* `resolve_below`: a path without prefix, root and `..` stays below the directory.
* `resolve_drive`: a path with a drive leads to this drive.
-/

namespace BaselineOps.Lib.OsPath

/-! ## Places -/

/-- What a prefix names. -/
inductive Volume where
  | drive (letter : Char)
  | share (server share : OsStr)
  | device (name : OsStr)
  deriving DecidableEq

/-- A place in the file namespace: the names below the root of a volume. -/
structure Place where
  volume : Volume
  names : List OsStr

/-- The place is the directory or below it. -/
def Below (directory place : Place) : Prop :=
  place.volume = directory.volume ∧ directory.names <+: place.names

/-- The volume of a prefix. -/
def PathPrefix.volume : PathPrefix → Volume
  | .disk letter | .verbatimDisk letter => .drive letter
  | .unc server share | .verbatimUNC server share => .share server share
  | .deviceNS name | .verbatim name => .device name

/-- One component further. -/
def Place.enter (place : Place) : Component → Place
  | .normal name => { place with names := place.names ++ [name] }
  | .parentDir => { place with names := place.names.dropLast }
  | .rootDir | .curDir | .pathPrefix _ => place

/-- Where the components of a path are read from, given the current directory of each drive. -/
def startPlace (current : Char → List OsStr) (directory : Place) (path : OsStr) : Place :=
  match parsePrefix .windows path with
  | none => if hasRoot .windows path then ⟨directory.volume, []⟩ else directory
  | some (.disk letter) =>
    ⟨.drive letter, if hasRoot .windows path then [] else current letter⟩
  | some parsed => ⟨parsed.volume, []⟩

/-- The place a path leads to from a directory. -/
def resolve (current : Char → List OsStr) (directory : Place) (path : OsStr) : Place :=
  ((components .windows path).map Located.component).foldl Place.enter
    (startPlace current directory path)

/-! ## Components -/

theorem volume_foldl_enter (parts : List Component) (place : Place) :
    (parts.foldl Place.enter place).volume = place.volume := by
  induction parts generalizing place with
  | nil => rfl
  | cons part rest ih =>
    rw [List.foldl_cons, ih]
    cases part <;> rfl

/-- Without `..` the names only grow. -/
theorem below_foldl_enter {parts : List Component} (h : Component.parentDir ∉ parts) (place : Place) :
    Below place (parts.foldl Place.enter place) := by
  refine ⟨volume_foldl_enter parts place, ?_⟩
  induction parts generalizing place with
  | nil => exact List.prefix_refl _
  | cons part rest ih =>
    rw [List.mem_cons, not_or] at h
    refine List.IsPrefix.trans ?_ (ih h.2 (place.enter part))
    cases part with
    | normal name => exact List.prefix_append _ _
    | parentDir => exact absurd rfl h.1
    | rootDir => exact List.prefix_refl _
    | curDir => exact List.prefix_refl _
    | pathPrefix parsed => exact List.prefix_refl _

theorem resolve_below {path : OsStr} (hpre : parsePrefix .windows path = none)
    (hroot : hasRoot .windows path = false)
    (hparent : Component.parentDir ∉ (components .windows path).map Located.component)
    (current : Char → List OsStr) (directory : Place) :
    Below directory (resolve current directory path) := by
  have hstart : startPlace current directory path = directory := by
    rw [startPlace, hpre]
    simp only [hroot, Bool.false_eq_true, if_false]
  rw [resolve, hstart]
  exact below_foldl_enter hparent directory

theorem resolve_drive {path : OsStr} {letter : Char}
    (hpre : parsePrefix .windows path = some (.disk letter)) (current : Char → List OsStr)
    (directory : Place) : (resolve current directory path).volume = .drive letter := by
  rw [resolve, volume_foldl_enter, startPlace, hpre]

/-! ## Pieces -/

/-- The texts of the pieces are those between the separators. -/
theorem map_fst_pieces (sep : OsUnit → Bool) (piece path : OsStr) (offset : ℕ) :
    (pieces sep piece path offset).map Prod.fst = (path.splitOnP sep).modifyHead (piece ++ ·) := by
  induction path generalizing piece offset with
  | nil => simp [pieces]
  | cons unit rest ih =>
    rw [pieces, List.splitOnP_cons_eq_if_modifyHead]
    split_ifs with hsep
    · rw [List.map_cons, ih, List.modifyHead_cons, List.append_nil]
      congr 1
      cases hsplit : rest.splitOnP sep with
      | nil => rfl
      | cons first others => simp
    · rw [ih, List.modifyHead_modifyHead]
      congr 1
      funext name
      simp

/-- A component `..` of a path without prefix and root is a text between separators. -/
theorem parentDir_mem_splitOnP {path : OsStr} (hpre : parsePrefix .windows path = none)
    (hroot : hasRoot .windows path = false)
    (h : Component.parentDir ∈ (components .windows path).map Located.component) :
    ofText ".." ∈ path.splitOnP (isSep .windows) := by
  obtain ⟨located, hlocated, hcomponent⟩ := List.mem_map.mp h
  have hbody : ∀ start, located ∈ (pieces (isSep .windows) [] (path.drop start) start).filterMap
      (parseSingleComponent false) → ofText ".." ∈ (path.drop start).splitOnP (isSep .windows) := by
    intro start hmem
    obtain ⟨⟨piece, stop⟩, hpiece, hparsed⟩ := List.mem_filterMap.mp hmem
    have hsplit : piece ∈ (path.drop start).splitOnP (isSep .windows) := by
      have hfst := List.mem_map_of_mem (f := Prod.fst) hpiece
      rw [map_fst_pieces] at hfst
      cases hparts : (path.drop start).splitOnP (isSep .windows) with
      | nil => rw [hparts] at hfst; cases hfst
      | cons first others => simpa [hparts] using hfst
    simp only [parseSingleComponent] at hparsed
    split_ifs at hparsed with hnil hcur hverbatim hparent
    · cases hverbatim
    · rw [← hparent]
      exact hsplit
    · cases hparsed
      cases hcomponent
  have hphysical : hasPhysicalRoot .windows path = false := by
    rw [hasRoot, Bool.or_eq_false_iff] at hroot
    exact hroot.1
  simp only [components, prefixLen, hpre, bodySep, OsPath.isVerbatim, hphysical,
    Option.any_none, Option.map_none, Option.getD_none, Option.isNone_none, Bool.true_and,
    Bool.false_eq_true, if_false, List.nil_append] at hlocated
  split_ifs at hlocated with hcur
  · rcases List.mem_cons.mp hlocated with rfl | hlocated
    · cases hcomponent
    · -- Behind a leading `.` comes a separator.
      have hdrop := hbody 1 hlocated
      simp only [includeCurDir, hroot, prefixLen, hpre, bodySep, OsPath.isVerbatim,
        Option.any_none, Option.map_none, Option.getD_none, List.drop_zero, Bool.not_false,
        Bool.true_and, Bool.false_eq_true, if_false] at hcur
      rcases path with _ | ⟨unit, _ | ⟨next, rest⟩⟩
      · cases hcur
      · simp [ofText] at hdrop
      · rw [Bool.and_eq_true, decide_eq_true_eq] at hcur
        have hrest : (next :: rest).splitOnP (isSep .windows) = [] :: rest.splitOnP (isSep .windows) := by
          rw [List.splitOnP_cons_eq_if_modifyHead, if_pos hcur.2]
        rw [List.drop_one, List.tail_cons, hrest] at hdrop
        rw [List.splitOnP_cons_eq_if_modifyHead, hcur.1, if_neg (by decide), hrest]
        rcases List.mem_cons.mp hdrop with hnil | hdrop
        · cases hnil
        · exact List.mem_cons_of_mem _ hdrop
  · simpa using hbody 0 hlocated

end BaselineOps.Lib.OsPath
