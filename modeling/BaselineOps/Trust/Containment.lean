import Mathlib
import BaselineOps.Trust.ProtectedPath

/-!
# Containment of handle paths

`path_is_within` (`trust/windows/handle_path.rs`, lines 263–270) slices the candidate at the byte length of
the root. Where this length falls inside a character of the candidate, the slice panics.

* `pathIsWithin_true_iff`: what is reported as within, is.
* `pathIsWithin_isSome_iff`: the function returns on all candidates but these.
* `ancestorsFrom_ne_panic`: the walk over the ancestors never meets one of them.
* `pathIsWithin_exact_iff`: so containment is exact but for them.
-/

namespace BaselineOps.Trust

open BaselineOps.Lib BaselineOps.SafePath

/-! ## Slices -/

/-- A slice is possible where a list of whole characters ends. -/
theorem splitAtByte_eq_some_iff {length : ℕ} {text left right : List Char} :
    splitAtByte length text = some (left, right) ↔ text = left ++ right ∧ utf8Length left = length := by
  induction text generalizing length left with
  | nil =>
    cases length with
    | zero =>
      simp only [splitAtByte, Option.some.injEq, Prod.mk.injEq]
      constructor
      · rintro ⟨rfl, rfl⟩
        exact ⟨rfl, rfl⟩
      · rintro ⟨hnil, -⟩
        have hparts := List.append_eq_nil_iff.mp hnil.symm
        exact ⟨hparts.1.symm, hparts.2.symm⟩
    | succ length =>
      simp only [splitAtByte, reduceCtorEq, false_iff, not_and]
      intro hnil
      rw [(List.append_eq_nil_iff.mp hnil.symm).1]
      exact (Nat.succ_ne_zero length).symm
  | cons c text ih =>
    have hsize := c.utf8Size_pos
    cases length with
    | zero =>
      simp only [splitAtByte, Option.some.injEq, Prod.mk.injEq]
      constructor
      · rintro ⟨rfl, rfl⟩
        exact ⟨rfl, rfl⟩
      · rintro ⟨htext, hzero⟩
        cases left with
        | nil => exact ⟨rfl, htext⟩
        | cons d left =>
          have := d.utf8Size_pos
          rw [utf8Length_cons] at hzero
          omega
    | succ length =>
      rw [splitAtByte]
      split_ifs with hfits
      · simp only [Option.map_eq_some_iff, Prod.mk.injEq, Prod.exists]
        constructor
        · rintro ⟨before, after, hsplit, rfl, rfl⟩
          obtain ⟨rfl, hlength⟩ := ih.mp hsplit
          refine ⟨rfl, ?_⟩
          rw [utf8Length_cons, hlength]
          omega
        · rintro ⟨htext, hlength⟩
          cases left with
          | nil => exact absurd hlength (Nat.succ_ne_zero length).symm
          | cons d left =>
            rw [List.cons_append, List.cons.injEq] at htext
            obtain ⟨rfl, rfl⟩ := htext
            rw [utf8Length_cons] at hlength
            exact ⟨left, right, ih.mpr ⟨rfl, by omega⟩, rfl, rfl⟩
      · simp only [false_iff, not_and]
        intro htext hlength
        cases left with
        | nil => exact absurd hlength (Nat.succ_ne_zero length).symm
        | cons d left =>
          rw [List.cons_append, List.cons.injEq] at htext
          obtain ⟨rfl, -⟩ := htext
          rw [utf8Length_cons] at hlength
          omega

theorem utf8Size_toLower (c : Char) : c.toLower.utf8Size = c.utf8Size := by
  rw [Char.toLower]
  split_ifs with hupper
  · have hle := UInt32.le_iff_toNat_le.mp hupper.1
    have hge := UInt32.le_iff_toNat_le.mp hupper.2
    have hone : ∀ d : Char, d.val.toNat ≤ 127 → d.utf8Size = 1 := by
      intro d hd
      rw [Char.utf8Size, if_pos (UInt32.le_iff_toNat_le.mpr hd)]
    rw [hone, hone]
    · simp at hge ⊢
      omega
    · simp only [UInt32.toNat_add]
      simp at hle hge ⊢
      omega
  · rfl

/-- Texts that are equal up to ASCII case have the same length. -/
theorem utf8Length_of_map_toLower {left right : List Char}
    (h : left.map Char.toLower = right.map Char.toLower) : utf8Length left = utf8Length right := by
  have hfold : ∀ text : List Char, utf8Length (text.map Char.toLower) = utf8Length text := by
    intro text
    rw [utf8Length, utf8Length, List.map_map]
    exact congrArg List.sum (List.map_congr_left fun c _ => utf8Size_toLower c)
  rw [← hfold left, h, hfold right]

/-! ## Containment -/

/-- A text equal to the root up to ASCII case, a separator and any rest. -/
def Within (candidate root : List Char) : Prop :=
  ∃ start separator rest, candidate = start ++ separator :: rest ∧
    eqIgnoreAsciiCase start root = true ∧ (separator = '\\' ∨ separator = '/')

/-- The byte length of the root is that of some first characters of the candidate, unless the candidate is
    not longer. -/
def OnBoundary (candidate root : List Char) : Prop :=
  utf8Length candidate ≤ utf8Length root ∨
    ∃ start rest, candidate = start ++ rest ∧ utf8Length start = utf8Length root

theorem utf8Length_of_eqIgnoreAsciiCase {left right : List Char} (h : eqIgnoreAsciiCase left right = true) :
    utf8Length left = utf8Length right :=
  utf8Length_of_map_toLower (of_decide_eq_true h)

theorem pathIsWithin_isSome_iff {candidate root : List Char} :
    (∃ within, pathIsWithin candidate root = some within) ↔ OnBoundary candidate root := by
  rw [pathIsWithin, OnBoundary]
  split_ifs with hshort
  · exact ⟨fun _ => .inl hshort, fun _ => ⟨false, rfl⟩⟩
  · simp only [Option.map_eq_some_iff, hshort, false_or]
    constructor
    · rintro ⟨_, ⟨start, rest⟩, hsplit, -⟩
      exact ⟨start, rest, splitAtByte_eq_some_iff.mp hsplit⟩
    · rintro ⟨start, rest, hparts⟩
      exact ⟨_, ⟨start, rest⟩, splitAtByte_eq_some_iff.mpr hparts, rfl⟩

/-- What is reported as within is within, and the other way round. -/
theorem pathIsWithin_true_iff {candidate root : List Char} :
    pathIsWithin candidate root = some true ↔ Within candidate root := by
  rw [pathIsWithin]
  constructor
  · intro h
    split_ifs at h with hshort
    · cases h
    · obtain ⟨⟨start, rest⟩, hsplit, hwithin⟩ := Option.map_eq_some_iff.mp h
      simp only [Bool.and_eq_true, Bool.or_eq_true, decide_eq_true_eq] at hwithin
      obtain ⟨hroot, hseparator⟩ := hwithin
      obtain ⟨hcandidate, -⟩ := splitAtByte_eq_some_iff.mp hsplit
      cases rest with
      | nil => simp at hseparator
      | cons separator rest =>
        simp only [List.head?_cons, Option.some.injEq] at hseparator
        exact ⟨start, separator, rest, hcandidate, hroot, hseparator⟩
  · rintro ⟨start, separator, rest, rfl, hroot, hseparator⟩
    have hlength := utf8Length_of_eqIgnoreAsciiCase hroot
    have hpositive := separator.utf8Size_pos
    have hlong : ¬ utf8Length (start ++ separator :: rest) ≤ utf8Length root := by
      rw [utf8Length_append, utf8Length_cons, hlength]
      omega
    rw [if_neg hlong, splitAtByte_eq_some_iff.mpr ⟨rfl, hlength⟩]
    simp [hroot, hseparator]

/-! ## The checks -/

section Checks

variable {H : Type} {env : Environment H}

theorem orHalt_ne_panic {α : Type} (x : Except PathError α) : orHalt x ≠ .error .panic := by
  cases x <;> simp [orHalt, Except.mapError]

theorem prefix_intercalate (sep : Char) (segments more : List (List Char)) :
    [sep].intercalate segments <+: [sep].intercalate (segments ++ more) := by
  induction segments with
  | nil => exact List.nil_prefix
  | cons segment rest ih =>
    cases rest with
    | nil =>
      cases more with
      | nil => exact List.prefix_refl _
      | cons next more =>
        rw [List.cons_append, List.nil_append, List.intercalate_singleton,
          List.intercalate_cons_cons, List.append_assoc]
        exact List.prefix_append _ _
    | cons next rest =>
      rw [List.cons_append, List.cons_append, List.intercalate_cons_cons, List.intercalate_cons_cons]
      exact (List.prefix_append_right_inj _).mpr ih

/-- The text of a parent begins the text of its child. -/
theorem parent_text_prefix {child path : FinalPath} (h : child.parent = some path) :
    path.text <+: child.text := by
  rw [FinalPath.parent] at h
  split_ifs at h
  cases h
  simp only [FinalPath.text, FinalPath.upTo]
  refine (List.prefix_append_right_inj _).mpr ?_
  have hnames := prefix_intercalate '\\' (child.names.take (child.names.length - 1))
    (child.names.drop (child.names.length - 1))
  rwa [List.take_append_drop] at hnames

/-- A handle that reports the parent of the child leaves nothing to slice inside a character. -/
theorem containsChild_ne_panic {child path : FinalPath} {opened : OpenedPath env}
    (h : child.parent = some path) : containsChild env child path opened ≠ .error .panic := by
  rw [containsChild]
  split_ifs with hequal
  · have hlength : utf8Length path.text = utf8Length opened.finalPath.text :=
      (utf8Length_of_map_toLower (pathsEqual_iff.mp hequal)).symm
    obtain ⟨rest, hrest⟩ := parent_text_prefix h
    obtain ⟨within, hwithin⟩ := pathIsWithin_isSome_iff.mpr (.inr ⟨path.text, rest, hrest.symm, hlength⟩)
    rw [hwithin]
    simp [orPanic]
  · simp

/-- The walk over the ancestors never panics, whatever the handles report. -/
theorem ancestorsFrom_ne_panic (fuel : ℕ) (child : FinalPath) :
    ancestorsFrom env fuel child ≠ .error .panic := by
  induction fuel generalizing child with
  | zero => simp [ancestorsFrom]
  | succ fuel ih =>
    rw [ancestorsFrom]
    cases hparent : child.parent with
    | none => simp
    | some path =>
      simp only
      split_ifs with hroot
      · simp
      · apply except_bind_ne_error (orHalt_ne_panic _)
        intro opened _
        apply except_bind_ne_error (containsChild_ne_panic hparent)
        intro contained _
        apply except_bind_ne_error (orHalt_ne_panic _)
        intro _ _
        apply except_bind_ne_error (orHalt_ne_panic _)
        intro _ _
        apply except_bind_ne_error (ih opened.finalPath)
        intro _ _
        simp [pure, Except.pure]

/-- The check of the executable: within, escaped, or a slice inside a character. -/
theorem verifyContainment_eq (root executable : OpenedPath env) :
    verifyContainment env root executable =
      match pathIsWithin executable.finalPath.text root.finalPath.text with
      | some true => .ok ()
      | some false => .error (.error (untrusted executable.finalPath
          "executable final handle path escaped the protected root"))
      | none => .error .panic := by
  rw [verifyContainment]
  cases pathIsWithin executable.finalPath.text root.finalPath.text with
  | none => rfl
  | some within => cases within <;> rfl

end Checks

/-- A candidate that the containment check panics on: the root ends inside its last character. -/
theorem pathIsWithin_panics : ¬ ∀ candidate root, ∃ within,
    pathIsWithin candidate root = some within ∧ (within = true ↔ Within candidate root) := by
  intro h
  obtain ⟨within, hwithin, -⟩ := h "\\\\?\\C:\\é".toList "\\\\?\\C:\\a".toList
  have hnone : pathIsWithin "\\\\?\\C:\\é".toList "\\\\?\\C:\\a".toList = none := by decide
  rw [hnone] at hwithin
  cases hwithin

/-- Containment is exact, and untrusted paths are reported, just when the byte length of the root falls
    between two characters of the candidate or behind it. The walk over the ancestors only asks for such
    candidates, so it never panics. -/
theorem pathIsWithin_exact_iff {H : Type} (env : Environment H) :
    (∀ candidate root, (∃ within, pathIsWithin candidate root = some within ∧
        (within = true ↔ Within candidate root)) ↔ OnBoundary candidate root) ∧
    (∀ root executable : OpenedPath env,
      ((Within executable.finalPath.text root.finalPath.text →
          verifyContainment env root executable = .ok ()) ∧
        (¬ Within executable.finalPath.text root.finalPath.text →
          verifyContainment env root executable = .error (.error (untrusted executable.finalPath
            "executable final handle path escaped the protected root")))) ↔
        OnBoundary executable.finalPath.text root.finalPath.text) ∧
    ∀ (fuel : ℕ) (root : OpenedPath env), verifyAncestors env fuel root ≠ .error .panic := by
  refine ⟨?_, ?_, fun fuel root => ancestorsFrom_ne_panic fuel root.finalPath⟩
  · intro candidate root
    rw [← pathIsWithin_isSome_iff]
    constructor
    · rintro ⟨within, hwithin, -⟩
      exact ⟨within, hwithin⟩
    · rintro ⟨within, hwithin⟩
      refine ⟨within, hwithin, ?_⟩
      rw [← pathIsWithin_true_iff, hwithin, Option.some.injEq]
  · intro root executable
    rw [verifyContainment_eq, ← pathIsWithin_isSome_iff, ← pathIsWithin_true_iff]
    cases pathIsWithin executable.finalPath.text root.finalPath.text with
    | none => simp
    | some within => cases within <;> simp

end BaselineOps.Trust
