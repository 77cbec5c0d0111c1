import Mathlib

/-!
# Paths of the Rust standard library

`std::path` on Unix and on Windows: the prefix of a path, its components, and the operations built on
them. A path is a sequence of units, each a character or a unit that belongs to none (an invalid byte
on Unix, an unpaired surrogate on Windows), so that `to_string_lossy` is total and loses what it
loses in Rust.

A component is kept with its text and with the offset at which it ends. `Path::parent` is then the
path up to the end of the last component but one, as `Components::as_path` cuts it.

* `components_rooted`, `parent_rooted`, `pushAll_rooted`: the absolute Unix paths without empty, `.`
  or `..` components, in terms of their names.
* `components_joinWith`, `push_joinWith`: the relative paths of plain names, on both platforms.
-/

namespace BaselineOps.Lib.OsPath

/-! ## Text -/

/-- The two path grammars. -/
inductive Platform where
  | windows
  | unix
  deriving DecidableEq, Repr

/-- A unit of an `OsStr`. -/
inductive OsUnit where
  | char (c : Char)
  | ill (unit : ℕ)
  deriving DecidableEq

/-- `OsStr`, `Path`. -/
abbrev OsStr := List OsUnit

/-- `OsStr::new`. -/
def ofText (text : String) : OsStr := text.toList.map .char

/-- The character a unit is shown as. -/
def OsUnit.lossy : OsUnit → Char
  | .char c => c
  | .ill _ => Char.ofNat 0xfffd

/-- `to_string_lossy`, and the text of `Path::display`. -/
def toStringLossy (path : OsStr) : List Char := path.map OsUnit.lossy

/-- The character a unit is, if it is one. -/
def OsUnit.char? : OsUnit → Option Char
  | .char c => some c
  | .ill _ => none

/-- `OsStr::to_str`. -/
def toStr (text : OsStr) : Option (List Char) := text.mapM OsUnit.char?

/-- `is_sep_byte`. -/
def isSep : Platform → OsUnit → Bool
  | .windows, unit => unit = .char '/' ∨ unit = .char '\\'
  | .unix, unit => unit = .char '/'

/-- `is_verbatim_sep`. -/
def isVerbatimSep : Platform → OsUnit → Bool
  | .windows, unit => unit = .char '\\'
  | .unix, unit => unit = .char '/'

/-- `MAIN_SEP_STR`. -/
def mainSep : Platform → OsUnit
  | .windows => .char '\\'
  | .unix => .char '/'

/-! ## Prefixes -/

/-- `Prefix`. -/
inductive PathPrefix where
  | verbatim (name : OsStr)
  | verbatimUNC (server share : OsStr)
  | verbatimDisk (drive : Char)
  | deviceNS (name : OsStr)
  | unc (server share : OsStr)
  | disk (drive : Char)
  deriving DecidableEq

namespace PathPrefix

/-- `Prefix::len`. -/
def len : PathPrefix → ℕ
  | .verbatim name => 4 + name.length
  | .verbatimUNC server share =>
    8 + server.length + if share.length > 0 then 1 + share.length else 0
  | .verbatimDisk _ => 6
  | .deviceNS name => 4 + name.length
  | .unc server share => 2 + server.length + if share.length > 0 then 1 + share.length else 0
  | .disk _ => 2

/-- `Prefix::is_verbatim`. -/
def isVerbatim : PathPrefix → Bool
  | .verbatim _ | .verbatimUNC _ _ | .verbatimDisk _ => true
  | _ => false

/-- `Prefix::is_drive`. -/
def isDrive : PathPrefix → Bool
  | .disk _ => true
  | _ => false

/-- `Prefix::has_implicit_root`. -/
def hasImplicitRoot (p : PathPrefix) : Bool := !p.isDrive

end PathPrefix

/-- `parse_next_component`. -/
def parseNextComponent (sep : OsUnit → Bool) (path : OsStr) : OsStr × OsStr :=
  (path.takeWhile (!sep ·), (path.dropWhile (!sep ·)).drop 1)

/-- `parse_drive`. -/
def parseDrive : OsStr → Option Char
  | .char drive :: .char ':' :: _ => if drive.isAlpha then some drive.toUpper else none
  | _ => none

/-- `parse_drive_exact`. -/
def parseDriveExact (path : OsStr) : Option Char :=
  if path[2]?.all (isSep .windows) then parseDrive path else none

/-- `PrefixParserSlice::strip_prefix`: `/` counts as `\`. -/
def stripStart (pattern : String) (path : OsStr) : Option OsStr :=
  let length := (ofText pattern).length
  let start := (path.take length).map fun unit => if unit = .char '/' then .char '\\' else unit
  if start = ofText pattern then some (path.drop length) else none

/-- `parse_prefix`. -/
def parsePrefix : Platform → OsStr → Option PathPrefix
  | .unix, _ => none
  | .windows, path =>
    match stripStart "\\\\" path with
    | some rest =>
      match stripStart "?\\" rest, stripStart ".\\" rest with
      | some verbatim, _ =>
        if .char '/' ∈ path.take 4 then parseUNC rest
        else
          match stripStart "UNC\\" verbatim with
          | some share =>
            let server := parseNextComponent (isVerbatimSep .windows) share
            some (.verbatimUNC server.1 (parseNextComponent (isVerbatimSep .windows) server.2).1)
          | none =>
            match parseDriveExact verbatim with
            | some drive => some (.verbatimDisk drive)
            | none => some (.verbatim (parseNextComponent (isVerbatimSep .windows) verbatim).1)
      | none, some device => some (.deviceNS (parseNextComponent (isSep .windows) device).1)
      | none, none => parseUNC rest
    | none => (parseDrive path).map .disk
where
  /-- `\\server\share`. -/
  parseUNC (rest : OsStr) : Option PathPrefix :=
    let server := parseNextComponent (isSep .windows) rest
    let share := parseNextComponent (isSep .windows) server.2
    if server.1 = [] ∨ share.1 = [] then none else some (.unc server.1 share.1)

/-! ## Components -/

/-- `Component`. -/
inductive Component where
  | pathPrefix (parsed : PathPrefix)
  | rootDir
  | curDir
  | parentDir
  | normal (name : OsStr)
  deriving DecidableEq

/-- A component, the text of `as_os_str`, and where the component ends in the path. -/
structure Located where
  component : Component
  text : OsStr
  stop : ℕ
  deriving DecidableEq

/-- The name of a normal component. -/
def Located.normal? (located : Located) : Option OsStr :=
  match located.component with
  | .normal name => some name
  | _ => none

/-- The pieces between separators, with the offsets at which they end. -/
def pieces (sep : OsUnit → Bool) : OsStr → OsStr → ℕ → List (OsStr × ℕ)
  | piece, [], offset => [(piece, offset)]
  | piece, unit :: rest, offset =>
    if sep unit then (piece, offset) :: pieces sep [] rest (offset + 1)
    else pieces sep (piece ++ [unit]) rest (offset + 1)

/-- `parse_single_component`. -/
def parseSingleComponent (verbatim : Bool) (piece : OsStr × ℕ) : Option Located :=
  if piece.1 = [] then none
  else if piece.1 = ofText "." then
    if verbatim then some ⟨.curDir, piece.1, piece.2⟩ else none
  else if piece.1 = ofText ".." then some ⟨.parentDir, piece.1, piece.2⟩
  else some ⟨.normal piece.1, piece.1, piece.2⟩

section Path

variable (platform : Platform)

/-- The length of the prefix. -/
def prefixLen (path : OsStr) : ℕ := ((parsePrefix platform path).map PathPrefix.len).getD 0

/-- `prefix_verbatim`. -/
def isVerbatim (path : OsStr) : Bool := (parsePrefix platform path).any PathPrefix.isVerbatim

/-- `has_physical_root`. -/
def hasPhysicalRoot (path : OsStr) : Bool :=
  (path.drop (prefixLen platform path)).head?.any (isSep platform)

/-- `Components::has_root`. -/
def hasRoot (path : OsStr) : Bool :=
  hasPhysicalRoot platform path || (parsePrefix platform path).any PathPrefix.hasImplicitRoot

/-- The separators of the body of a path. -/
def bodySep (path : OsStr) : OsUnit → Bool :=
  if isVerbatim platform path then isVerbatimSep platform else isSep platform

/-- `include_cur_dir`. -/
def includeCurDir (path : OsStr) : Bool :=
  !hasRoot platform path &&
    match path.drop (prefixLen platform path) with
    | [unit] => unit = .char '.'
    | unit :: next :: _ => unit = .char '.' && bodySep platform path next
    | [] => false

/-- `Path::components`. -/
def components (path : OsStr) : List Located :=
  let length := prefixLen platform path
  let body (start : ℕ) :=
    (pieces (bodySep platform path) [] (path.drop start) start).filterMap
      (parseSingleComponent (isVerbatim platform path))
  let start :=
    match parsePrefix platform path with
    | some parsed => [⟨.pathPrefix parsed, path.take length, length⟩]
    | none => []
  start ++
    if hasPhysicalRoot platform path then
      ⟨.rootDir, [mainSep platform], length + 1⟩ :: body (length + 1)
    else if (parsePrefix platform path).any fun p => p.hasImplicitRoot && !p.isVerbatim then
      ⟨.rootDir, [mainSep platform], length⟩ :: body length
    else if (parsePrefix platform path).isNone && includeCurDir platform path then
      ⟨.curDir, ofText ".", length + 1⟩ :: body (length + 1)
    else body length

/-- `Path::is_absolute`. -/
def isAbsolute (path : OsStr) : Bool :=
  match platform with
  | .windows => hasRoot .windows path && (parsePrefix .windows path).isSome
  | .unix => hasRoot .unix path

/-- `Path::parent`. -/
def parent (path : OsStr) : Option OsStr :=
  match (components platform path).reverse with
  | last :: before =>
    match last.component with
    | .normal _ | .curDir | .parentDir =>
      some (path.take ((before.head?.map Located.stop).getD 0))
    | .pathPrefix _ | .rootDir => none
  | [] => none

/-- `Path::file_name`. -/
def fileName (path : OsStr) : Option OsStr :=
  match (components platform path).getLast?.map Located.component with
  | some (.normal name) => some name
  | _ => none

/-- The names of the normal components of a path. -/
def normalNames (path : OsStr) : List OsStr := (components platform path).filterMap Located.normal?

/-- `Path::starts_with`. -/
def startsWith (path base : OsStr) : Bool :=
  ((components platform base).map Located.component).isPrefixOf
    ((components platform path).map Located.component)

/-- What `push` does with a component behind a verbatim prefix. -/
def pushComponent (buffer : List Located) (next : Located) : List Located :=
  match next.component with
  | .rootDir => buffer.take 1 ++ [next]
  | .curDir => buffer
  | .parentDir =>
    match buffer.getLast?.map Located.component with
    | some (.normal _) => buffer.dropLast
    | _ => buffer
  | .pathPrefix _ | .normal _ => buffer ++ [next]

/-- The text of components behind a verbatim prefix. -/
def joinComponents : Bool → List Located → OsStr
  | _, [] => []
  | needSep, next :: rest =>
    let sep := if needSep && next.component ≠ .rootDir then [mainSep platform] else []
    let needSep :=
      match next.component with
      | .rootDir => false
      | .pathPrefix parsed => !parsed.isDrive && decide (0 < parsed.len)
      | _ => true
    sep ++ next.text ++ joinComponents needSep rest

/-- `PathBuf::push`. -/
def push (base path : OsStr) : OsStr :=
  let length := prefixLen platform base
  let onlyDrive := decide (0 < length) && decide (length = base.length) &&
    (parsePrefix platform base).any PathPrefix.isDrive
  if isAbsolute platform path || (parsePrefix platform path).isSome then path
  else if isVerbatim platform base && path ≠ [] then
    joinComponents platform false
      ((components platform path).foldl pushComponent (components platform base))
  else if hasRoot platform path then base.take length ++ path
  else if base.getLast?.any (!isSep platform ·) && !onlyDrive then base ++ mainSep platform :: path
  else base ++ path

end Path

/-! ## Absolute Unix paths by their names -/

/-- A name of a directory entry: not empty, not `.` or `..`, and without a separator. -/
structure ValidName (name : OsStr) : Prop where
  ne_nil : name ≠ []
  ne_cur : name ≠ ofText "."
  ne_parent : name ≠ ofText ".."
  no_sep : ∀ unit ∈ name, isSep .unix unit = false

/-- The names joined by separators. -/
def joinNames : List OsStr → OsStr
  | [] => []
  | [name] => name
  | name :: rest => name ++ .char '/' :: joinNames rest

/-- The absolute path with the given names. -/
def rooted (names : List OsStr) : OsStr := .char '/' :: joinNames names

/-- The components of the names, the first of which begins at `offset`. -/
def locate : ℕ → List OsStr → List Located
  | _, [] => []
  | offset, name :: rest =>
    ⟨.normal name, name, offset + name.length⟩ :: locate (offset + name.length + 1) rest

theorem parseSingleComponent_name {name : OsStr} (h : ValidName name) (stop : ℕ) :
    parseSingleComponent false (name, stop) = some ⟨.normal name, name, stop⟩ := by
  simp [parseSingleComponent, h.ne_nil, h.ne_cur, h.ne_parent]

/-- Units without a separator join the piece. -/
theorem pieces_append {sep : OsUnit → Bool} {name : OsStr} (h : ∀ unit ∈ name, sep unit = false)
    (piece rest : OsStr) (offset : ℕ) :
    pieces sep piece (name ++ rest) offset =
      pieces sep (piece ++ name) rest (offset + name.length) := by
  induction name generalizing piece offset with
  | nil => simp
  | cons unit name ih =>
    rw [List.cons_append, pieces, if_neg (by simp [h unit List.mem_cons_self]),
      ih fun other hother => h other (List.mem_cons_of_mem _ hother)]
    rw [List.append_assoc, List.length_cons,
      show offset + 1 + name.length = offset + (name.length + 1) by omega]
    rfl

theorem pieces_joinNames {names : List OsStr} (h : ∀ name ∈ names, ValidName name) (offset : ℕ) :
    (pieces (isSep .unix) [] (joinNames names) offset).filterMap (parseSingleComponent false) =
      locate offset names := by
  induction names using joinNames.induct generalizing offset with
  | case1 => rfl
  | case2 name =>
    have hname := h name List.mem_cons_self
    have hpieces := pieces_append hname.no_sep [] [] offset
    rw [List.append_nil, List.nil_append] at hpieces
    rw [joinNames, hpieces, pieces, List.filterMap_cons, parseSingleComponent_name hname]
    rfl
  | case3 name rest hrest ih =>
    have hname := h name List.mem_cons_self
    rw [joinNames, pieces_append hname.no_sep, List.nil_append, pieces, if_pos (by rfl),
      List.filterMap_cons, parseSingleComponent_name hname,
      ih fun other hother => h other (List.mem_cons_of_mem _ hother)]
    · rfl
    · exact hrest

/-- The components of a rooted path. -/
theorem components_rooted {names : List OsStr} (h : ∀ name ∈ names, ValidName name) :
    components .unix (rooted names) =
      ⟨.rootDir, [.char '/'], 1⟩ :: locate 1 names := by
  have hpieces := pieces_joinNames h 1
  simp only [components, prefixLen, parsePrefix, hasPhysicalRoot, rooted, bodySep, isVerbatim]
  have hsep : isSep .unix (.char '/') = true := by decide
  simpa [hsep, mainSep] using hpieces

theorem isAbsolute_rooted (names : List OsStr) : isAbsolute .unix (rooted names) = true := by
  simp [isAbsolute, hasRoot, hasPhysicalRoot, prefixLen, parsePrefix, rooted, isSep]

theorem component_locate (offset : ℕ) (names : List OsStr) :
    (locate offset names).map Located.component = names.map .normal := by
  induction names generalizing offset with
  | nil => rfl
  | cons name rest ih => simp [locate, ih]

theorem joinNames_cons {names : List OsStr} (h : names ≠ []) (name : OsStr) :
    joinNames (name :: names) = name ++ .char '/' :: joinNames names := by
  cases names with
  | nil => exact absurd rfl h
  | cons next rest => rfl

/-- The text of a rooted path, name by name. -/
theorem rooted_concat (names : List OsStr) (name : OsStr) :
    rooted (names ++ [name]) =
      if names = [] then .char '/' :: name else rooted names ++ .char '/' :: name := by
  induction names with
  | nil => rfl
  | cons first rest ih =>
    rw [if_neg (List.cons_ne_nil _ _), List.cons_append, rooted,
      joinNames_cons (by simp) first, rooted]
    by_cases hrest : rest = []
    · subst hrest
      rfl
    · rw [if_neg hrest, rooted, rooted] at ih
      rw [joinNames_cons hrest, List.cons.inj ih |>.2]
      simp

/-- Where the components of a rooted path end. -/
theorem locate_concat (offset : ℕ) (names : List OsStr) (name : OsStr) :
    locate offset (names ++ [name]) =
      locate offset names ++ [⟨.normal name, name, offset + (joinNames (names ++ [name])).length⟩] := by
  induction names generalizing offset with
  | nil => rfl
  | cons first rest ih =>
    rw [List.cons_append, locate, ih, joinNames_cons (by simp) first]
    simp only [locate, List.cons_append, List.length_append, List.length_cons, Nat.add_assoc,
      Nat.add_comm]

theorem parent_rooted {names : List OsStr} {name : OsStr}
    (h : ∀ other ∈ names ++ [name], ValidName other) :
    parent .unix (rooted (names ++ [name])) = some (rooted names) := by
  rw [parent, components_rooted h, locate_concat, List.reverse_cons, List.reverse_append]
  rcases List.eq_nil_or_concat names with rfl | ⟨init, last, rfl⟩
  · rfl
  · rw [rooted_concat, if_neg (by simp), List.concat_eq_append, locate_concat]
    simp only [List.reverse_singleton, List.reverse_append, List.cons_append, List.nil_append,
      List.head?_cons, Option.map_some, Option.getD_some]
    rw [List.take_append_of_le_length (by simp [rooted, Nat.add_comm]),
      List.take_of_length_le (by simp [rooted, Nat.add_comm])]

theorem startsWith_rooted {names : List OsStr} {name : OsStr}
    (h : ∀ other ∈ names ++ [name], ValidName other) :
    startsWith .unix (rooted (names ++ [name])) (rooted names) = true := by
  rw [startsWith, components_rooted h,
    components_rooted fun other hother => h other (List.mem_append_left _ hother)]
  simp only [List.map_cons, component_locate, List.isPrefixOf_iff_prefix, List.map_append]
  exact List.cons_prefix_cons.mpr ⟨rfl, List.prefix_append _ _⟩

/-- A rooted path ends in a separator only when it has no names. -/
theorem getLast?_rooted {names : List OsStr} (h : ∀ name ∈ names, ValidName name) :
    (rooted names).getLast?.any (!isSep .unix ·) = decide (names ≠ []) := by
  rcases List.eq_nil_or_concat names with rfl | ⟨init, last, rfl⟩
  · rfl
  · rw [List.concat_eq_append] at h ⊢
    have hlast := h last (by simp)
    obtain ⟨start, unit, hunit⟩ : ∃ start unit, last = start ++ [unit] := by
      rcases List.eq_nil_or_concat last with rfl | ⟨start, unit, rfl⟩
      · exact absurd rfl hlast.ne_nil
      · exact ⟨start, unit, List.concat_eq_append⟩
    have hget : (rooted (init ++ [last])).getLast? = some unit := by
      rw [rooted_concat, hunit]
      split_ifs
      · rw [← List.cons_append, List.getLast?_concat]
      · rw [← List.cons_append, ← List.append_assoc, List.getLast?_concat]
    rw [hget, Option.any_some, hlast.no_sep unit (by rw [hunit]; simp)]
    simp

theorem hasRoot_name {name : OsStr} (h : ValidName name) : hasRoot .unix name = false := by
  cases name with
  | nil => exact absurd rfl h.ne_nil
  | cons unit rest =>
    simpa [hasRoot, hasPhysicalRoot, prefixLen, parsePrefix] using h.no_sep unit List.mem_cons_self

/-- Adding a name to a rooted path. -/
theorem push_rooted {names : List OsStr} {name : OsStr} (h : ∀ other ∈ names, ValidName other)
    (hname : ValidName name) : push .unix (rooted names) name = rooted (names ++ [name]) := by
  have hroot := hasRoot_name hname
  have habsolute : isAbsolute .unix name = false := hroot
  rw [rooted_concat]
  simp only [push, habsolute, hroot, parsePrefix, isVerbatim, getLast?_rooted h]
  by_cases hnames : names = []
  · subst hnames
    rfl
  · simp [hnames, mainSep]

/-! ## Names of any path -/

/-- A piece holds no separator and nothing that is not in the path. -/
theorem mem_pieces {sep : OsUnit → Bool} {piece path : OsStr} {offset : ℕ} {found : OsStr × ℕ}
    (hfound : found ∈ pieces sep piece path offset) {unit : OsUnit} (hunit : unit ∈ found.1) :
    unit ∈ piece ∨ (unit ∈ path ∧ sep unit = false) := by
  induction path generalizing piece offset with
  | nil =>
    rw [pieces, List.mem_singleton] at hfound
    subst hfound
    exact .inl hunit
  | cons next rest ih =>
    rw [pieces] at hfound
    split_ifs at hfound with hsep
    · rcases List.mem_cons.mp hfound with rfl | hfound
      · exact .inl hunit
      · rcases ih hfound with hpiece | ⟨hmem, hnot⟩
        · cases hpiece
        · exact .inr ⟨List.mem_cons_of_mem next hmem, hnot⟩
    · rcases ih hfound with hpiece | ⟨hmem, hnot⟩
      · rcases List.mem_append.mp hpiece with hpiece | hnext
        · exact .inl hpiece
        · rw [List.mem_singleton.mp hnext]
          exact .inr ⟨List.mem_cons_self, by simpa using hsep⟩
      · exact .inr ⟨List.mem_cons_of_mem next hmem, hnot⟩

/-- The normal components of a path without a prefix. -/
theorem mem_normalNames {platform : Platform} {path name : OsStr}
    (hpre : parsePrefix platform path = none) (h : name ∈ normalNames platform path) :
    name ≠ [] ∧ name ≠ ofText "." ∧ name ≠ ofText ".." ∧
      ∀ unit ∈ name, unit ∈ path ∧ isSep platform unit = false := by
  -- The name is a piece of the body of the path.
  have hpiece : ∃ start stop, (name, stop) ∈ pieces (isSep platform) [] (path.drop start) start ∧
      name ≠ [] ∧ name ≠ ofText "." ∧ name ≠ ofText ".." := by
    have hbody : ∀ start, name ∈ ((pieces (isSep platform) [] (path.drop start) start).filterMap
        (parseSingleComponent false)).filterMap Located.normal? →
        ∃ start stop, (name, stop) ∈ pieces (isSep platform) [] (path.drop start) start ∧
          name ≠ [] ∧ name ≠ ofText "." ∧ name ≠ ofText ".." := by
      intro start hmem
      obtain ⟨located, hlocated, hname⟩ := List.mem_filterMap.mp hmem
      obtain ⟨⟨piece, stop⟩, hpiece, hparsed⟩ := List.mem_filterMap.mp hlocated
      simp only [parseSingleComponent] at hparsed
      split_ifs at hparsed with hnil hcur hverbatim hparent
      · cases hverbatim
      · cases hparsed
        cases hname
      · cases hparsed
        cases hname
        exact ⟨start, stop, hpiece, hnil, hcur, hparent⟩
    simp only [normalNames, components, prefixLen, hpre, bodySep, OsPath.isVerbatim,
      Option.any_none, Option.map_none, Option.getD_none, Bool.false_eq_true, if_false,
      List.nil_append] at h
    split_ifs at h
    · exact hbody 1 h
    · exact hbody 1 h
    · exact hbody 0 h
  obtain ⟨start, stop, hmem, hnil, hcur, hparent⟩ := hpiece
  refine ⟨hnil, hcur, hparent, ?_⟩
  intro unit hunit
  rcases mem_pieces hmem hunit with hempty | ⟨hpath, hsep⟩
  · cases hempty
  · exact ⟨List.mem_of_mem_drop hpath, hsep⟩
/-! ## Relative paths by their names -/

theorem isSep_slash (platform : Platform) : isSep platform (.char '/') = true := by
  cases platform <;> rfl

theorem isSep_mainSep (platform : Platform) : isSep platform (mainSep platform) = true := by
  cases platform <;> rfl

/-- A name that is a component of its own on the platform wherever it stands in a relative path. -/
structure PlainName (platform : Platform) (name : OsStr) : Prop where
  ne_nil : name ≠ []
  ne_cur : name ≠ ofText "."
  ne_parent : name ≠ ofText ".."
  no_sep : ∀ unit ∈ name, isSep platform unit = false
  no_colon : .char ':' ∉ name

/-- The names joined by a separator. -/
def joinWith (sep : OsUnit) : List OsStr → OsStr
  | [] => []
  | [name] => name
  | name :: rest => name ++ sep :: joinWith sep rest

theorem joinWith_cons {names : List OsStr} (h : names ≠ []) (sep : OsUnit) (name : OsStr) :
    joinWith sep (name :: names) = name ++ sep :: joinWith sep names := by
  cases names with
  | nil => exact absurd rfl h
  | cons next rest => rfl

section Relative

variable {platform : Platform} {sep : OsUnit} {names : List OsStr}

/-- The pieces of joined names are the names. -/
theorem pieces_joinWith (hsep : isSep platform sep = true)
    (h : ∀ name ∈ names, PlainName platform name) (offset : ℕ) :
    (pieces (isSep platform) [] (joinWith sep names) offset).filterMap (parseSingleComponent false) =
      locate offset names := by
  induction names generalizing offset with
  | nil => rfl
  | cons name rest ih =>
    have hname := h name List.mem_cons_self
    have hcomponent : parseSingleComponent false (name, offset + name.length) =
        some ⟨.normal name, name, offset + name.length⟩ := by
      simp [parseSingleComponent, hname.ne_nil, hname.ne_cur, hname.ne_parent]
    by_cases hrest : rest = []
    · subst hrest
      have hpieces := pieces_append hname.no_sep [] [] offset
      rw [List.append_nil, List.nil_append] at hpieces
      rw [joinWith, hpieces, pieces, List.filterMap_cons, hcomponent]
      rfl
    · rw [joinWith_cons hrest, pieces_append hname.no_sep, List.nil_append, pieces, if_pos hsep,
        List.filterMap_cons, hcomponent, ih fun other hother => h other (List.mem_cons_of_mem _ hother)]
      rfl

/-- Joined names begin with a unit of the first name. -/
theorem joinWith_eq_cons {name : OsStr} {rest : List OsStr} (h : PlainName platform name) :
    ∃ unit tail more, name = unit :: tail ∧ joinWith sep (name :: rest) = unit :: (tail ++ more) ∧
      (more = [] ∨ ∃ after, more = sep :: after) := by
  obtain ⟨unit, tail, rfl⟩ := List.exists_cons_of_ne_nil h.ne_nil
  by_cases hrest : rest = []
  · subst hrest
    exact ⟨unit, tail, [], rfl, by simp [joinWith], .inl rfl⟩
  · exact ⟨unit, tail, _, rfl, by rw [joinWith_cons hrest]; rfl, .inr ⟨_, rfl⟩⟩

/-- A path that begins with no separator does not begin with two backslashes. -/
theorem stripStart_eq_none {unit : OsUnit} (h : isSep .windows unit = false) (rest : OsStr) :
    stripStart "\\\\" (unit :: rest) = none := by
  have hunit : unit ≠ .char '/' ∧ unit ≠ .char '\\' := by simpa [isSep] using h
  have hpattern : ofText "\\\\" = [.char '\\', .char '\\'] := rfl
  simp only [stripStart, hpattern, List.length_cons, List.length_nil, List.take_succ_cons,
    List.map_cons, if_neg hunit.1]
  rw [if_neg]
  intro heq
  exact hunit.2 (List.cons.inj heq).1

/-- Joined names have no prefix. -/
theorem parsePrefix_joinWith (hsep : isSep platform sep = true)
    (h : ∀ name ∈ names, PlainName platform name) :
    parsePrefix platform (joinWith sep names) = none := by
  cases platform with
  | unix => rfl
  | windows =>
    cases names with
    | nil => rfl
    | cons name rest =>
      have hname := h name List.mem_cons_self
      obtain ⟨unit, tail, more, rfl, hjoin, hmore⟩ := @joinWith_eq_cons .windows sep name rest hname
      have hunit : isSep .windows unit = false := hname.no_sep unit List.mem_cons_self
      have hcolon : (tail ++ more).head? ≠ some (.char ':') := by
        -- The second unit belongs to the name, or it is the separator.
        cases tail with
        | cons second tail =>
          intro hhead
          apply hname.no_colon
          rw [Option.some.inj hhead]
          simp
        | nil =>
          rcases hmore with rfl | ⟨after, rfl⟩
          · simp
          · intro hhead
            rw [Option.some.inj hhead] at hsep
            exact absurd hsep (by decide)
      rw [hjoin, parsePrefix, stripStart_eq_none hunit, Option.map_eq_none_iff]
      cases hmoreTail : tail ++ more with
      | nil => cases unit <;> rfl
      | cons second after =>
        rw [hmoreTail] at hcolon
        unfold parseDrive
        split
        · rename_i heq
          simp only [List.cons.injEq] at heq
          exact absurd (by rw [heq.2.1]; rfl) hcolon
        · rfl

theorem hasPhysicalRoot_joinWith (hsep : isSep platform sep = true)
    (h : ∀ name ∈ names, PlainName platform name) :
    hasPhysicalRoot platform (joinWith sep names) = false := by
  rw [hasPhysicalRoot, prefixLen, parsePrefix_joinWith hsep h]
  cases names with
  | nil => rfl
  | cons name rest =>
    have hname := h name List.mem_cons_self
    obtain ⟨unit, tail, more, rfl, hjoin, -⟩ := @joinWith_eq_cons platform sep name rest hname
    rw [hjoin]
    exact hname.no_sep unit List.mem_cons_self

/-- Joined names do not begin with the component `.`. -/
theorem includeCurDir_joinWith (hsep : isSep platform sep = true)
    (h : ∀ name ∈ names, PlainName platform name) :
    includeCurDir platform (joinWith sep names) = false := by
  simp only [includeCurDir, hasRoot, hasPhysicalRoot_joinWith hsep h, prefixLen,
    parsePrefix_joinWith hsep h, bodySep, isVerbatim, Option.any_none, Option.map_none,
    Option.getD_none, List.drop_zero, Bool.or_self, Bool.not_false, Bool.true_and]
  cases names with
  | nil => rfl
  | cons name rest =>
    have hname := h name List.mem_cons_self
    obtain ⟨unit, tail, more, rfl, hjoin, hmore⟩ := @joinWith_eq_cons platform sep name rest hname
    rw [hjoin]
    have hcur : tail = [] → unit ≠ .char '.' := by
      rintro rfl rfl
      exact hname.ne_cur rfl
    cases tail with
    | nil =>
      rcases hmore with rfl | ⟨after, rfl⟩
      · simpa using hcur rfl
      · simp [hcur rfl]
    | cons second tail =>
      have hsecond := hname.no_sep second (by simp)
      simp [hsecond]

/-- The components of joined names. -/
theorem components_joinWith (hsep : isSep platform sep = true)
    (h : ∀ name ∈ names, PlainName platform name) :
    components platform (joinWith sep names) = locate 0 names := by
  have hpieces := pieces_joinWith hsep h 0
  simp only [components, prefixLen, parsePrefix_joinWith hsep h, hasPhysicalRoot_joinWith hsep h,
    includeCurDir_joinWith hsep h, bodySep, isVerbatim, Option.any_none, Option.map_none,
    Option.getD_none, Bool.and_false, List.drop_zero, Bool.false_eq_true, if_false, List.nil_append]
  exact hpieces

/-- The normal components of joined plain names are the names. -/
theorem normalNames_joinWith (hsep : isSep platform sep = true)
    (h : ∀ name ∈ names, PlainName platform name) :
    normalNames platform (joinWith sep names) = names := by
  rw [normalNames, components_joinWith hsep h]
  generalize 0 = offset
  induction names generalizing offset with
  | nil => rfl
  | cons name rest ih =>
    rw [locate, List.filterMap_cons]
    simp only [Located.normal?]
    rw [ih fun other hother => h other (List.mem_cons_of_mem _ hother)]

theorem mem_joinWith {unit : OsUnit} {name : OsStr} (hname : name ∈ names)
    (hunit : unit ∈ name) : unit ∈ joinWith sep names := by
  induction names with
  | nil => cases hname
  | cons first rest ih =>
    by_cases hrest : rest = []
    · subst hrest
      rw [List.mem_singleton.mp hname] at hunit
      exact hunit
    · rw [joinWith_cons hrest]
      rcases List.mem_cons.mp hname with rfl | hname
      · exact List.mem_append_left _ hunit
      · exact List.mem_append_right _ (List.mem_cons_of_mem _ (ih hname))

theorem joinWith_concat (sep : OsUnit) (names : List OsStr) (name : OsStr) :
    joinWith sep (names ++ [name]) =
      if names = [] then name else joinWith sep names ++ sep :: name := by
  induction names with
  | nil => rfl
  | cons first rest ih =>
    rw [List.cons_append, joinWith_cons (by simp), ih, if_neg (List.cons_ne_nil _ _)]
    by_cases hrest : rest = []
    · subst hrest
      rfl
    · rw [if_neg hrest, joinWith_cons hrest]
      simp

/-- Joined names end in no separator. -/
theorem getLast?_joinWith (h : ∀ name ∈ names, PlainName platform name) :
    (joinWith sep names).getLast?.any (!isSep platform ·) = decide (names ≠ []) := by
  rcases List.eq_nil_or_concat names with rfl | ⟨init, last, rfl⟩
  · rfl
  · rw [List.concat_eq_append] at h ⊢
    have hlast := h last (by simp)
    obtain ⟨start, unit, rfl⟩ : ∃ start unit, last = start ++ [unit] := by
      rcases List.eq_nil_or_concat last with rfl | ⟨start, unit, rfl⟩
      · exact absurd rfl hlast.ne_nil
      · exact ⟨start, unit, List.concat_eq_append⟩
    have hget : (joinWith sep (init ++ [start ++ [unit]])).getLast? = some unit := by
      rw [joinWith_concat]
      split_ifs
      · rw [List.getLast?_concat]
      · rw [← List.cons_append, ← List.append_assoc, List.getLast?_concat]
    rw [hget, Option.any_some, hlast.no_sep unit (by simp)]
    simp

/-- Pushing a name joins it. -/
theorem push_joinWith (h : ∀ name ∈ names, PlainName platform name) {name : OsStr}
    (hname : PlainName platform name) :
    push platform (joinWith (mainSep platform) names) name =
      joinWith (mainSep platform) (names ++ [name]) := by
  have hsep := isSep_mainSep platform
  have hsingle : ∀ other ∈ [name], PlainName platform other := by simpa using hname
  have hpre : parsePrefix platform name = none := parsePrefix_joinWith hsep hsingle
  have hroot : hasRoot platform name = false := by
    have hphysical : hasPhysicalRoot platform name = false :=
      hasPhysicalRoot_joinWith hsep hsingle
    simp [hasRoot, hphysical, hpre]
  have habsolute : isAbsolute platform name = false := by
    cases platform <;> simp [isAbsolute, hroot]
  simp only [push, habsolute, hpre, hroot, isVerbatim, parsePrefix_joinWith hsep h,
    getLast?_joinWith h, prefixLen, joinWith_concat]
  by_cases hnames : names = []
  · subst hnames
    simp [joinWith]
  · simp [hnames]

end Relative

end BaselineOps.Lib.OsPath
