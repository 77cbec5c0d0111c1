import BaselineOps.Domain.Bounds
import BaselineOps.Domain.ValidateResult
import BaselineOps.Evidence.Store
import BaselineOps.Lib.WindowsPath

/-!
# Artifact locators

What `validate_relative_locator` (`validate.rs`, lines 448–457) accepts, read as a path on Windows and by
`safe_relative_path` (`evidence.rs`, lines 372–384).

* `acceptedLocator_iff`: an accepted locator stays below every directory just when it has no drive, and
  `safe_relative_path` accepts it when it has no `\`, no `:` and no leading `.`.
-/

namespace BaselineOps.Engine

open BaselineOps.Domain BaselineOps.Lib BaselineOps.Lib.OsPath

/-- The separators of `validate_relative_locator`. -/
def isSlash (c : Char) : Bool := c == '/' || c == '\\'

/-- The locator begins with a drive. -/
def DrivePrefixed (locator : String) : Prop :=
  ∃ drive rest, locator.toList = drive :: ':' :: rest ∧ drive.isAlpha = true

/-- What is accepted begins with no separator and has no `..`. -/
structure AcceptedLocator (locator : String) : Prop where
  ne_nil : locator.toList ≠ []
  head : ∀ c ∈ locator.toList.head?, isSlash c = false
  parts : ['.', '.'] ∉ locator.toList.splitOnP isSlash

variable {locator : String}

theorem acceptedLocator (h : validateRelativeLocator locator = .ok ()) : AcceptedLocator locator := by
  rw [validateRelativeLocator, except_bind_ok_iff] at h
  obtain ⟨_, hnonempty, h⟩ := h
  rw [validateNonempty_ok_iff] at hnonempty
  unfold validation at h
  rw [except_guard_ok_iff] at h
  simp only [not_or, List.any_eq_true, beq_iff_eq, not_exists, not_and] at h
  obtain ⟨⟨hslash, hbackslash, hparts⟩, -⟩ := h
  refine ⟨?_, ?_, ?_⟩
  · intro hnil
    rw [hnil] at hnonempty
    cases hnonempty.1
  · intro c hc
    rw [Option.mem_def] at hc
    have hne : c ≠ '/' ∧ c ≠ '\\' := ⟨fun heq => hslash (heq ▸ hc), fun heq => hbackslash (heq ▸ hc)⟩
    simp [isSlash, hne.1, hne.2]
  · intro hmem
    exact hparts _ hmem rfl

/-! ## On Windows -/

theorem isSep_char (c : Char) : isSep .windows (.char c) = isSlash c := by
  simp [isSep, isSlash, Bool.beq_eq_decide_eq]

theorem splitOnP_ofText (locator : String) :
    (ofText locator).splitOnP (isSep .windows) =
      (locator.toList.splitOnP isSlash).map (·.map OsUnit.char) := by
  rw [ofText]
  induction locator.toList with
  | nil => rfl
  | cons c rest ih =>
    rw [List.map_cons, List.splitOnP_cons_eq_if_modifyHead, List.splitOnP_cons_eq_if_modifyHead, ih,
      isSep_char]
    split_ifs
    · rfl
    · cases rest.splitOnP isSlash with
      | nil => rfl
      | cons first others => simp

/-- Without a leading separator the only prefix is a drive. -/
theorem AcceptedLocator.parsePrefix (h : AcceptedLocator locator) :
    parsePrefix .windows (ofText locator) = (parseDrive (ofText locator)).map .disk := by
  obtain ⟨c, rest, hlocator⟩ := List.exists_cons_of_ne_nil h.ne_nil
  have hc : isSep .windows (.char c) = false := by
    rw [isSep_char]
    exact h.head c (by rw [hlocator]; rfl)
  rw [ofText, hlocator, List.map_cons, OsPath.parsePrefix, stripStart_eq_none hc]

theorem AcceptedLocator.hasRoot (h : AcceptedLocator locator)
    (hpre : OsPath.parsePrefix .windows (ofText locator) = none) :
    hasRoot .windows (ofText locator) = false := by
  obtain ⟨c, rest, hlocator⟩ := List.exists_cons_of_ne_nil h.ne_nil
  have hc : isSep .windows (.char c) = false := by
    rw [isSep_char]
    exact h.head c (by rw [hlocator]; rfl)
  rw [OsPath.hasRoot, hasPhysicalRoot, prefixLen, hpre, ofText, hlocator]
  simpa using hc

theorem parseDrive_isSome_iff : (∃ letter, parseDrive (ofText locator) = some letter) ↔
    DrivePrefixed locator := by
  constructor
  · rintro ⟨letter, hletter⟩
    rw [ofText] at hletter
    rcases hlocator : locator.toList with _ | ⟨c, _ | ⟨next, rest⟩⟩
    · rw [hlocator] at hletter
      cases hletter
    · rw [hlocator] at hletter
      cases hletter
    · rw [hlocator, List.map_cons, List.map_cons] at hletter
      unfold parseDrive at hletter
      split at hletter
      · rename_i drive tail heq
        simp only [List.cons.injEq, OsUnit.char.injEq] at heq
        obtain ⟨rfl, rfl, rfl⟩ := heq
        split_ifs at hletter with halpha
        exact ⟨c, rest, hlocator, halpha⟩
      · cases hletter
  · rintro ⟨drive, rest, hlocator, halpha⟩
    refine ⟨drive.toUpper, ?_⟩
    rw [ofText, hlocator]
    exact if_pos halpha

/-- An accepted locator stays below every directory just when it does not begin with a drive. -/
theorem AcceptedLocator.below_iff (h : AcceptedLocator locator) :
    (∀ current directory, Below directory (resolve current directory (ofText locator))) ↔
      ¬ DrivePrefixed locator := by
  rw [← parseDrive_isSome_iff]
  constructor
  · rintro hbelow ⟨letter, hletter⟩
    -- The directory may be on a share.
    have hshare := (hbelow (fun _ => []) ⟨.share [] [], []⟩).1
    have hpre : OsPath.parsePrefix .windows (ofText locator) = some (.disk letter) := by
      rw [h.parsePrefix, hletter]
      rfl
    rw [resolve_drive hpre] at hshare
    cases hshare
  · intro hdrive current directory
    have hpre : OsPath.parsePrefix .windows (ofText locator) = none := by
      rw [h.parsePrefix, Option.map_eq_none_iff, Option.eq_none_iff_forall_ne_some]
      exact fun letter hletter => hdrive ⟨letter, hletter⟩
    refine resolve_below hpre (h.hasRoot hpre) ?_ current directory
    intro hparent
    have hsplit := parentDir_mem_splitOnP hpre (h.hasRoot hpre) hparent
    rw [splitOnP_ofText, List.mem_map] at hsplit
    obtain ⟨part, hpart, heq⟩ := hsplit
    have hinjective : Function.Injective OsUnit.char := fun _ _ heq => OsUnit.char.inj heq
    rw [ofText] at heq
    rw [List.map_injective_iff.mpr hinjective heq] at hpart
    exact h.parts hpart

/-- So do the artifacts of a valid result. -/
theorem resultLocator_below_iff {d : Deps} {result : ResultV3} (h : result.validate d = .ok ())
    {artifact : ArtifactV3} (hartifact : artifact ∈ result.artifacts) :
    (∀ current directory, Below directory (resolve current directory (ofText artifact.locator))) ↔
      ¬ DrivePrefixed artifact.locator :=
  (acceptedLocator (result.locators_accepted h artifact hartifact)).below_iff

/-! ## In the engine -/

theorem splitOnP_congr {p q : Char → Bool} {chars : List Char} (h : ∀ c ∈ chars, p c = q c) :
    chars.splitOnP p = chars.splitOnP q := by
  induction chars with
  | nil => rfl
  | cons c rest ih =>
    rw [List.splitOnP_cons_eq_if_modifyHead, List.splitOnP_cons_eq_if_modifyHead,
      h c List.mem_cons_self, ih fun other hother => h other (List.mem_cons_of_mem c hother)]

theorem AcceptedLocator.safe_iff (h : AcceptedLocator locator) :
    safeRelativePath locator = .ok locator ↔
      '\\' ∉ locator.toList ∧ ':' ∉ locator.toList ∧
        (locator.toList.splitOnP (· == '/')).head? ≠ some ['.'] := by
  have hslash : locator.toList.head? ≠ some '/' := by
    intro hhead
    exact absurd (h.head '/' hhead) (by decide)
  unfold safeRelativePath
  rw [except_bind_ok_iff]
  simp only [failIf_ok_iff, not_or]
  constructor
  · rintro ⟨_, ⟨-, hbackslash, hcolon, -, hcur, -⟩, -⟩
    exact ⟨hbackslash, hcolon, hcur⟩
  · rintro ⟨hbackslash, hcolon, hcur⟩
    have hparts : locator.toList.splitOnP (· == '/') = locator.toList.splitOnP isSlash := by
      refine splitOnP_congr fun c hc => ?_
      have hne : c ≠ '\\' := fun heq => hbackslash (heq ▸ hc)
      simp [isSlash, hne]
    refine ⟨(), ⟨h.ne_nil, hbackslash, hcolon, hslash, hcur, ?_⟩, rfl⟩
    rw [hparts]
    exact h.parts

/-! ## Agreement -/

/-- Accepted locators stay below every directory if and only if they have no drive, and
    `safe_relative_path` accepts them if and only if they have no `\`, no `:` and no leading `.`. -/
theorem acceptedLocator_iff (locator : String) (h : validateRelativeLocator locator = .ok ()) :
    ((∀ current directory, Below directory (resolve current directory (ofText locator))) ↔
      ¬ DrivePrefixed locator) ∧
    (safeRelativePath locator = .ok locator ↔
      '\\' ∉ locator.toList ∧ ':' ∉ locator.toList ∧
        (locator.toList.splitOnP (· == '/')).head? ≠ some ['.']) :=
  ⟨(acceptedLocator h).below_iff, (acceptedLocator h).safe_iff⟩

theorem acceptedLocator_plain :
    validateRelativeLocator "a/b" = .ok () ∧
    ((∀ current directory, Below directory (resolve current directory (ofText "a/b"))) ↔
      ¬ DrivePrefixed "a/b") ∧
    (safeRelativePath "a/b" = .ok "a/b" ↔
      '\\' ∉ "a/b".toList ∧ ':' ∉ "a/b".toList ∧
        ("a/b".toList.splitOnP (· == '/')).head? ≠ some ['.']) :=
  ⟨rfl, acceptedLocator_iff "a/b" rfl⟩

/-- A locator with a drive is accepted, leads to this drive, and is no safe relative path. -/
theorem acceptedLocator_drive :
    ¬ ∀ locator, validateRelativeLocator locator = .ok () →
      (∀ current directory, Below directory (resolve current directory (ofText locator))) ∧
        safeRelativePath locator = .ok locator := by
  intro h
  have hbelow := (h "C:secret" rfl).1 (fun _ => []) ⟨.drive 'D', []⟩
  exact absurd hbelow.1 (by decide)

end BaselineOps.Engine
