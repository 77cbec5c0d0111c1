import Mathlib
import BaselineOps.Lib.EState
import BaselineOps.Lib.Regex
import BaselineOps.Lib.Split
import BaselineOps.Lib.Utf16

/-!
# Path traversal segments

Model of `Test-PathTraversal` and `Assert-NoPathTraversal` (`lib/Validation.psm1`, lines 12–54). A path is
the list of its UTF-16 units; `.` matches every unit but a line feed.

The second expression is written `'\\.\\.\\'` in a single-quoted string, so its dots are not escaped: it
matches three separators with any one unit between neighbours.

* `search_traversalSegment`: the first expression finds the segments `..`.
* `search_spacedSeparators`: what the second expression finds.
* `testPathTraversal_exact_iff`: the test is exact but for the paths on which only the latter matches.
-/

namespace BaselineOps.Validation

open BaselineOps.Lib

/-! ## Model -/

/-- `/`. -/
def slash : UInt16 := 47

/-- `\`. -/
def backslash : UInt16 := 92

/-- `.`. -/
def dot : UInt16 := 46

/-- The character before which `$` also matches at the end. -/
def lineFeed : UInt16 := 10

/-- `char.IsWhiteSpace`. -/
def isWhiteSpace (unit : UInt16) : Bool :=
  (9 ≤ unit && unit ≤ 13) || unit ∈ ([0x20, 0x85, 0xa0, 0x1680, 0x2028, 0x2029, 0x202f, 0x205f, 0x3000] :
    List UInt16) || (0x2000 ≤ unit && unit ≤ 0x200a)

/-- `[string]::IsNullOrWhiteSpace`. -/
def isNullOrWhiteSpace (path : List UInt16) : Bool := path.all isWhiteSpace

/-- One given unit. -/
def unit (expected : UInt16) : Regex UInt16 := .lit (· == expected)

/-- `(^|\\)\.\.(\\|$)`. -/
def traversalSegment : Regex UInt16 :=
  .seq (.alt .start (unit backslash)) (.seq (unit dot) (.seq (unit dot) (.alt (unit backslash) .stop)))

/-- `.` -/
def anyUnit : Regex UInt16 := .lit (· != lineFeed)

/-- `\\.\\.\\`. -/
def spacedSeparators : Regex UInt16 :=
  .seq (unit backslash) (.seq anyUnit (.seq (unit backslash) (.seq anyUnit (unit backslash))))

/-- `$Path.Replace('/', '\')`, unit by unit. -/
def normalizeUnit (unit : UInt16) : UInt16 := if unit = slash then backslash else unit

/-- `Test-PathTraversal` (lines 18–33). -/
def testPathTraversal (path : List UInt16) : Bool :=
  if isNullOrWhiteSpace path then false
  else
    let normalized := path.map normalizeUnit
    traversalSegment.search lineFeed normalized || spacedSeparators.search lineFeed normalized

/-- `Assert-NoPathTraversal` (lines 43–54). -/
def assertNoPathTraversal (path : List UInt16) (parameterName : String) : Except String Unit :=
  failIf (testPathTraversal path = true)
    (parameterName ++ " must not contain path traversal segments ('..').")

/-! ## What is tested -/

/-- A separator of Windows paths. -/
def isSeparator (unit : UInt16) : Bool := unit == slash || unit == backslash

/-- Some segment between separators is `..`. -/
def HasParentSegment (path : List UInt16) : Prop := [dot, dot] ∈ path.splitOnP isSeparator

instance (path : List UInt16) : Decidable (HasParentSegment path) :=
  inferInstanceAs (Decidable (_ ∈ _))

/-- Three separators stand in a row with exactly one unit between neighbours. -/
def HasSpacedSeparators (path : List UInt16) : Prop :=
  ∃ before first x second y third after, path = before ++ [first, x, second, y, third] ++ after ∧
    isSeparator first = true ∧ isSeparator second = true ∧ isSeparator third = true

/-! ## The expressions -/

theorem search_traversalSegment {text : List UInt16} (h : lineFeed ∉ text) :
    traversalSegment.search lineFeed text = true ↔ [dot, dot] ∈ text.splitOnP (· == backslash) := by
  rw [Regex.search_iff, mem_splitOnP_iff]
  simp only [traversalSegment, unit, Regex.mem_remainders_seq, Regex.mem_remainders_alt,
    Regex.mem_remainders_start, Regex.mem_remainders_lit, Regex.mem_remainders_stop, beq_iff_eq]
  constructor
  · rintro ⟨before, after, htext, rest, middle, hbefore, tail, ⟨_, rfl, hfirst⟩, last, ⟨_, rfl, hsecond⟩,
      hlast⟩
    subst hfirst hsecond
    have hafter : last = [] ∨ ∃ x rest, last = x :: rest ∧ x = backslash := by
      rcases hlast with ⟨_, rfl, hlast⟩ | ⟨hstop | hstop, -⟩
      · exact .inr ⟨backslash, rest, hlast, rfl⟩
      · exact .inl hstop
      · exfalso
        apply h
        rcases hbefore with ⟨-, rfl⟩ | ⟨_, -, rfl⟩ <;> simp [htext, hstop]
    have hdots : ∀ x ∈ [dot, dot], (x == backslash) = false := by simp [dot, backslash]
    rcases hbefore with ⟨hstart, rfl⟩ | ⟨_, rfl, rfl⟩
    · have hnil : before = [] := List.isEmpty_iff.mp hstart
      exact ⟨[], last, by simp [htext, hnil], hdots, .inl rfl, hafter⟩
    · exact ⟨before ++ [backslash], last, by simp [htext], hdots, .inr ⟨before, backslash, rfl, rfl⟩, hafter⟩
  · rintro ⟨before, after, rfl, -, hbefore, hafter⟩
    have hlast : (∃ x, x = backslash ∧ after = x :: after.tail) ∨
        (after = [] ∨ after = [lineFeed]) ∧ after.tail = after := by
      rcases hafter with rfl | ⟨x, rest, rfl, hx⟩
      · exact .inr ⟨.inl rfl, rfl⟩
      · exact .inl ⟨x, hx, rfl⟩
    rcases hbefore with rfl | ⟨rest, x, rfl, hx⟩
    · exact ⟨[], [dot, dot] ++ after, rfl, after.tail, [dot, dot] ++ after, .inl ⟨rfl, rfl⟩,
        dot :: after, ⟨dot, rfl, rfl⟩, after, ⟨dot, rfl, rfl⟩, hlast⟩
    · exact ⟨rest, x :: ([dot, dot] ++ after), by simp, after.tail, [dot, dot] ++ after, .inr ⟨x, hx, rfl⟩,
        dot :: after, ⟨dot, rfl, rfl⟩, after, ⟨dot, rfl, rfl⟩, hlast⟩

theorem search_spacedSeparators {text : List UInt16} (h : lineFeed ∉ text) :
    spacedSeparators.search lineFeed text = true ↔ ∃ before x y after,
      text = before ++ [backslash, x, backslash, y, backslash] ++ after := by
  rw [Regex.search_iff]
  simp only [spacedSeparators, unit, anyUnit, Regex.mem_remainders_seq, Regex.mem_remainders_lit,
    beq_iff_eq, bne_iff_ne]
  constructor
  · rintro ⟨before, _, htext, rest, _, ⟨_, rfl, rfl⟩, _, ⟨x, -, rfl⟩, _, ⟨_, rfl, rfl⟩, _, ⟨y, -, rfl⟩, _, rfl,
      rfl⟩
    exact ⟨before, x, y, rest, by simp [htext]⟩
  · rintro ⟨before, x, y, after, rfl⟩
    have hx : x ≠ lineFeed := fun heq => h (by simp [heq])
    have hy : y ≠ lineFeed := fun heq => h (by simp [heq])
    exact ⟨before, _, by rw [List.append_assoc]; rfl, after, _, ⟨_, rfl, rfl⟩, _, ⟨x, hx, rfl⟩, _,
      ⟨_, rfl, rfl⟩, _, ⟨y, hy, rfl⟩, _, rfl, rfl⟩

/-! ## The normalised path -/

theorem normalizeUnit_eq_backslash {u : UInt16} : normalizeUnit u = backslash ↔ isSeparator u = true := by
  rw [normalizeUnit, isSeparator, Bool.or_eq_true, beq_iff_eq, beq_iff_eq]
  split_ifs with h <;> simp [h]

theorem normalizeUnit_eq_dot {u : UInt16} : normalizeUnit u = dot ↔ u = dot := by
  rw [normalizeUnit]
  split_ifs with h
  · rw [h]
    decide
  · rfl

theorem lineFeed_notMem_normalized {path : List UInt16} (h : lineFeed ∉ path) :
    lineFeed ∉ path.map normalizeUnit := by
  intro hmem
  obtain ⟨u, hu, heq⟩ := List.mem_map.mp hmem
  rw [normalizeUnit] at heq
  split_ifs at heq
  · exact absurd heq (by decide)
  · exact h (heq ▸ hu)

theorem parentSegment_normalized {path : List UInt16} :
    [dot, dot] ∈ (path.map normalizeUnit).splitOnP (· == backslash) ↔ HasParentSegment path := by
  have hsep : (fun u => u == backslash) ∘ normalizeUnit = isSeparator := by
    funext u
    rw [Function.comp_apply, Bool.eq_iff_iff, beq_iff_eq, normalizeUnit_eq_backslash]
  rw [splitOnP_map, hsep, HasParentSegment, List.mem_map]
  constructor
  · rintro ⟨segment, hsegment, heq⟩
    simp only [List.map_eq_cons_iff, List.map_eq_nil_iff, normalizeUnit_eq_dot] at heq
    obtain ⟨u, _, rfl, rfl, v, _, rfl, rfl, rfl⟩ := heq
    exact hsegment
  · intro h
    exact ⟨[dot, dot], h, rfl⟩

theorem spacedSeparators_normalized {path : List UInt16} :
    (∃ before x y after, path.map normalizeUnit =
      before ++ [backslash, x, backslash, y, backslash] ++ after) ↔ HasSpacedSeparators path := by
  constructor
  · rintro ⟨before, x, y, after, h⟩
    rw [List.append_assoc, List.map_eq_append_iff] at h
    obtain ⟨before', tail, rfl, -, htail⟩ := h
    rw [List.map_eq_append_iff] at htail
    obtain ⟨middle, after', rfl, hmiddle, -⟩ := htail
    simp only [List.map_eq_cons_iff, List.map_eq_nil_iff, normalizeUnit_eq_backslash] at hmiddle
    obtain ⟨first, _, rfl, hfirst, x', _, rfl, -, second, _, rfl, hsecond, y', _, rfl, -, third, _, rfl,
      hthird, rfl⟩ := hmiddle
    exact ⟨before', first, x', second, y', third, after', by simp, hfirst, hsecond, hthird⟩
  · rintro ⟨before, first, x, second, y, third, after, rfl, hfirst, hsecond, hthird⟩
    rw [← normalizeUnit_eq_backslash] at hfirst hsecond hthird
    exact ⟨before.map normalizeUnit, normalizeUnit x, normalizeUnit y, after.map normalizeUnit,
      by simp [hfirst, hsecond, hthird]⟩

theorem testPathTraversal_iff {path : List UInt16} (hblank : isNullOrWhiteSpace path = false)
    (hline : lineFeed ∉ path) :
    testPathTraversal path = true ↔ HasParentSegment path ∨ HasSpacedSeparators path := by
  have hnormalized := lineFeed_notMem_normalized hline
  rw [testPathTraversal, hblank, if_neg Bool.false_ne_true, Bool.or_eq_true,
    search_traversalSegment hnormalized, search_spacedSeparators hnormalized, parentSegment_normalized,
    spacedSeparators_normalized]

/-! ## Exactness -/

/-- `C:\a\b\c` has no segment `..` and is reported. -/
theorem testPathTraversal_reports_plain : ¬ ∀ path, isNullOrWhiteSpace path = false → lineFeed ∉ path →
    (testPathTraversal path = true ↔ HasParentSegment path) := by
  intro h
  have hplain := h (Utf16.encode "C:\\a\\b\\c".toList) (by decide) (by decide)
  exact absurd (hplain.mp (by decide)) (by decide)

/-- The test reports exactly the paths with a segment `..`, and the assertion throws for exactly these,
    just when the path has such a segment or nowhere has three separators with one unit between
    neighbours. -/
theorem testPathTraversal_exact_iff (path : List UInt16) (hblank : isNullOrWhiteSpace path = false)
    (hline : lineFeed ∉ path) :
    ((testPathTraversal path = true ↔ HasParentSegment path) ∧
      ∀ parameterName, (∃ e, assertNoPathTraversal path parameterName = .error e) ↔
        HasParentSegment path) ↔
      HasParentSegment path ∨ ¬ HasSpacedSeparators path := by
  have hthrows : ∀ parameterName, (∃ e, assertNoPathTraversal path parameterName = .error e) ↔
      testPathTraversal path = true := by
    intro parameterName
    simp only [assertNoPathTraversal, failIf_error_iff, exists_and_left, exists_eq', and_true]
  simp only [hthrows, forall_const, and_self, testPathTraversal_iff hblank hline]
  tauto

theorem testPathTraversal_exact_parent :
    testPathTraversal (Utf16.encode "C:\\a\\..\\b".toList) = true ↔
      HasParentSegment (Utf16.encode "C:\\a\\..\\b".toList) :=
  ((testPathTraversal_exact_iff (Utf16.encode "C:\\a\\..\\b".toList) (by decide) (by decide)).mpr
    (.inl (by decide))).1

end BaselineOps.Validation
