import Mathlib
import BaselineOps.Lib.EState
import BaselineOps.Lib.Split

/-!
# Environment blocks of native processes

Model of `environment_block` (`native_process/windows.rs`, lines 413–445) with `wide` (lines 458–460).
A `BTreeMap<OsString, OsString>` is the list of its entries in the order of the map, names and values
as 16-bit units; nothing is said about that order. `str::to_uppercase` is a parameter.

* `environmentBlock_faithful`: a block is read back as the entries of the map, in the order of their
  upper-cased names, and it is refused exactly when a name or a value would be read differently.
-/

namespace BaselineOps.NativeProcess

open BaselineOps.Lib

/-! ## The encoder -/

/-- The units of an `OsString`. -/
abbrev WideText := List UInt16

/-- `u16::from(b'=')`. -/
def equalsUnit : UInt16 := 0x3d

/-- The map of a process policy. -/
structure Environment where
  entries : List (WideText × WideText)
  distinct : (entries.map Prod.fst).Nodup

/-- `wide` (lines 458–460). -/
def wideTerminated (value : WideText) : WideText := value ++ [0]

/-- `String::from_utf16_lossy`: a surrogate without its partner is U+FFFD. -/
def fromUtf16Lossy : WideText → List Char
  | [] => []
  | unit :: rest =>
    if unit.toNat < 0xd800 ∨ 0xdfff < unit.toNat then Char.ofNat unit.toNat :: fromUtf16Lossy rest
    else if 0xdc00 ≤ unit.toNat then '\ufffd' :: fromUtf16Lossy rest
    else
      match rest with
      | [] => ['\ufffd']
      | low :: after =>
        if low.toNat < 0xdc00 ∨ 0xdfff < low.toNat then '\ufffd' :: fromUtf16Lossy (low :: after)
        else
          Char.ofNat (0x10000 + (unit.toNat - 0xd800) * 0x400 + (low.toNat - 0xdc00)) ::
            fromUtf16Lossy after

section Encoder

variable (toUppercase : String → String)

/-- The sort key of a name (line 428). -/
def sortKey (name : WideText) : String := toUppercase (String.ofList (fromUtf16Lossy name))

/-- The first loop (lines 417–430) for one entry. -/
def environmentEntry (entry : WideText × WideText) : Except String (String × WideText × WideText) := do
  let name := wideTerminated entry.1
  let value := wideTerminated entry.2
  failIf (0 ∈ name.dropLast ∨ 0 ∈ value.dropLast ∨ equalsUnit ∈ name.dropLast)
    "environment contains an invalid Windows name or value"
  return (sortKey toUppercase name.dropLast, name, value)

/-- What the second loop (lines 433–438) writes for an entry. -/
def writeEntry (entry : String × WideText × WideText) : WideText :=
  entry.2.1.dropLast ++ [equalsUnit] ++ entry.2.2.dropLast ++ [0]

/-- `environment_block` (lines 413–445). -/
def environmentBlock (environment : Environment) : Except String WideText := do
  let entries ← environment.entries.mapM (environmentEntry toUppercase)
  let entries := entries.insertionSort fun left right => left.1 ≤ right.1
  let output := entries.flatMap writeEntry
  return if output = [] then output ++ [0, 0] else output ++ [0]

end Encoder

/-! ## Reading a block -/

/-- The entries of a block up to the first empty one, each cut at its first `=`. -/
def readBlock (block : WideText) : Option (List (WideText × WideText)) :=
  ((block.splitOn 0).takeWhile fun entry => entry ≠ []).mapM (splitFirst equalsUnit)

/-- A name and a value that the block can hold. -/
def ValidEntry (entry : WideText × WideText) : Prop :=
  0 ∉ entry.1 ∧ equalsUnit ∉ entry.1 ∧ 0 ∉ entry.2

/-- The text of an entry. -/
def entryText (entry : WideText × WideText) : WideText := entry.1 ++ equalsUnit :: entry.2

theorem zero_not_mem_entryText {entry : WideText × WideText} (h : ValidEntry entry) :
    0 ∉ entryText entry := by
  obtain ⟨hname, -, hvalue⟩ := h
  have hequals : (0 : UInt16) ≠ equalsUnit := by decide
  simp [entryText, hname, hvalue, hequals]

theorem entryText_ne_nil (entry : WideText × WideText) : entryText entry ≠ [] := by
  simp [entryText]

theorem splitOn_entries {entries : List (WideText × WideText)} (rest : WideText)
    (h : ∀ entry ∈ entries, ValidEntry entry) :
    (entries.flatMap (fun entry => entryText entry ++ [0]) ++ rest).splitOn 0 =
      entries.map entryText ++ rest.splitOn 0 := by
  induction entries with
  | nil => rfl
  | cons entry entries ih =>
    rw [List.forall_mem_cons] at h
    rw [List.flatMap_cons, List.append_assoc, List.append_assoc, List.singleton_append,
      List.splitOn_append_cons_self_of_not_mem (zero_not_mem_entryText h.1), ih h.2, List.map_cons,
      List.cons_append]

theorem takeWhile_texts (entries : List (WideText × WideText)) (rest : List WideText) :
    (entries.map entryText ++ [] :: rest).takeWhile (fun entry => entry ≠ []) =
      entries.map entryText := by
  induction entries with
  | nil => rfl
  | cons entry entries ih =>
    rw [List.map_cons, List.cons_append, List.takeWhile_cons_of_pos (by simp [entryText_ne_nil]), ih]

theorem mapM_splitFirst {entries : List (WideText × WideText)}
    (h : ∀ entry ∈ entries, ValidEntry entry) :
    (entries.map entryText).mapM (splitFirst equalsUnit) = some entries := by
  induction entries with
  | nil => rfl
  | cons entry entries ih =>
    rw [List.forall_mem_cons] at h
    have hentry : splitFirst equalsUnit (entryText entry) = some entry :=
      splitFirst_eq_some_iff.mpr ⟨rfl, h.1.2.1⟩
    rw [List.map_cons, List.mapM_cons, hentry, ih h.2]
    rfl

/-! ## What the encoder returns -/

section Encoder

variable {toUppercase : String → String}

/-- The entries in the order of their upper-cased names, equal ones in the order of the map. -/
def sortedEntries (toUppercase : String → String) (entries : List (WideText × WideText)) :
    List (WideText × WideText) :=
  entries.insertionSort fun left right => sortKey toUppercase left.1 ≤ sortKey toUppercase right.1

/-- What the first loop keeps of an entry. -/
def keyedEntry (toUppercase : String → String) (entry : WideText × WideText) :
    String × WideText × WideText :=
  (sortKey toUppercase entry.1, wideTerminated entry.1, wideTerminated entry.2)

theorem environmentEntry_ok_iff {entry : WideText × WideText}
    {result : String × WideText × WideText} :
    environmentEntry toUppercase entry = .ok result ↔
      ValidEntry entry ∧ result = keyedEntry toUppercase entry := by
  simp only [environmentEntry, except_bind_ok_iff, failIf_ok_iff, wideTerminated, List.dropLast_concat,
    ValidEntry]
  constructor
  · rintro ⟨_, hvalid, h⟩
    exact ⟨by tauto, (Except.ok.inj h).symm⟩
  · rintro ⟨hvalid, rfl⟩
    exact ⟨(), by tauto, rfl⟩

theorem mapM_environmentEntry_ok_iff {entries : List (WideText × WideText)}
    {result : List (String × WideText × WideText)} :
    entries.mapM (environmentEntry toUppercase) = .ok result ↔
      (∀ entry ∈ entries, ValidEntry entry) ∧ result = entries.map (keyedEntry toUppercase) := by
  rw [except_mapM_ok_iff]
  induction entries generalizing result with
  | nil => simp
  | cons entry entries ih =>
    rw [List.forall₂_cons_left_iff, List.forall_mem_cons, List.map_cons]
    constructor
    · rintro ⟨_, _, hentry, hentries, rfl⟩
      obtain ⟨hvalid, rfl⟩ := environmentEntry_ok_iff.mp hentry
      obtain ⟨hvalids, rfl⟩ := ih.mp hentries
      exact ⟨⟨hvalid, hvalids⟩, rfl⟩
    · rintro ⟨⟨hvalid, hvalids⟩, rfl⟩
      exact ⟨_, _, environmentEntry_ok_iff.mpr ⟨hvalid, rfl⟩, ih.mpr ⟨hvalids, rfl⟩, rfl⟩

/-- The block of entries. -/
def blockOf (entries : List (WideText × WideText)) : WideText :=
  if entries = [] then [0, 0] else entries.flatMap (fun entry => entryText entry ++ [0]) ++ [0]

theorem environmentBlock_ok_iff {environment : Environment} {block : WideText} :
    environmentBlock toUppercase environment = .ok block ↔
      (∀ entry ∈ environment.entries, ValidEntry entry) ∧
        block = blockOf (sortedEntries toUppercase environment.entries) := by
  have hsort : (environment.entries.map (keyedEntry toUppercase)).insertionSort
      (fun left right => left.1 ≤ right.1) =
      (sortedEntries toUppercase environment.entries).map (keyedEntry toUppercase) :=
    (List.map_insertionSort _ _ (keyedEntry toUppercase) environment.entries
      fun _ _ _ _ => Iff.rfl).symm
  have houtput : ((sortedEntries toUppercase environment.entries).map
      (keyedEntry toUppercase)).flatMap writeEntry =
      (sortedEntries toUppercase environment.entries).flatMap fun entry => entryText entry ++ [0] := by
    rw [List.flatMap_map]
    refine List.flatMap_congr fun entry _ => ?_
    simp [writeEntry, keyedEntry, wideTerminated, entryText]
  have hblock : ∀ entries : List (WideText × WideText),
      (if (entries.flatMap fun entry => entryText entry ++ [0]) = [] then
        (entries.flatMap fun entry => entryText entry ++ [0]) ++ [0, 0]
      else (entries.flatMap fun entry => entryText entry ++ [0]) ++ [0]) = blockOf entries := by
    intro entries
    cases entries with
    | nil => rfl
    | cons entry entries => simp [blockOf]
  simp only [environmentBlock, except_bind_ok_iff, mapM_environmentEntry_ok_iff]
  constructor
  · rintro ⟨_, ⟨hvalid, rfl⟩, h⟩
    rw [hsort, houtput, hblock] at h
    exact ⟨hvalid, (Except.ok.inj h).symm⟩
  · rintro ⟨hvalid, rfl⟩
    refine ⟨_, ⟨hvalid, rfl⟩, ?_⟩
    rw [hsort, houtput, hblock]
    rfl

theorem environmentBlock_error_iff {environment : Environment} :
    (∃ reason, environmentBlock toUppercase environment = .error reason) ↔
      ∃ entry ∈ environment.entries, 0 ∈ entry.1 ∨ equalsUnit ∈ entry.1 ∨ 0 ∈ entry.2 := by
  have hvalid : (∃ entry ∈ environment.entries, 0 ∈ entry.1 ∨ equalsUnit ∈ entry.1 ∨ 0 ∈ entry.2) ↔
      ¬ ∀ entry ∈ environment.entries, ValidEntry entry := by
    simp only [ValidEntry]
    push Not
    refine exists_congr fun entry => and_congr_right fun _ => ?_
    tauto
  rw [hvalid]
  cases h : environmentBlock toUppercase environment with
  | ok block =>
    simp only [reduceCtorEq, exists_false, false_iff, not_not]
    exact (environmentBlock_ok_iff.mp h).1
  | error reason =>
    simp only [Except.error.injEq, exists_eq', true_iff]
    intro hall
    rw [environmentBlock_ok_iff.mpr ⟨hall, rfl⟩] at h
    cases h

end Encoder

/-! ## Blocks are faithful -/

/-- The segments of a block: its entries and two empty ones, three for the empty map. -/
theorem splitOn_blockOf {entries : List (WideText × WideText)}
    (h : ∀ entry ∈ entries, ValidEntry entry) :
    (blockOf entries).splitOn 0 =
      entries.map entryText ++ if entries = [] then [[], [], []] else [[], []] := by
  unfold blockOf
  split_ifs with hnil
  · rw [hnil]
    rfl
  · rw [splitOn_entries [0] h]
    rfl

theorem readBlock_blockOf {entries : List (WideText × WideText)}
    (h : ∀ entry ∈ entries, ValidEntry entry) : readBlock (blockOf entries) = some entries := by
  obtain ⟨rest, hrest⟩ : ∃ rest, (if entries = [] then [[], [], []] else [[], []]) =
      ([] : WideText) :: rest := by
    split_ifs
    · exact ⟨_, rfl⟩
    · exact ⟨_, rfl⟩
  rw [readBlock, splitOn_blockOf h, hrest, takeWhile_texts, mapM_splitFirst h]

theorem blockOf_ends (entries : List (WideText × WideText)) :
    ∃ body, blockOf entries = body ++ [0, 0] := by
  unfold blockOf
  split_ifs with hnil
  · exact ⟨[], rfl⟩
  · obtain ⟨init, last, rfl⟩ := List.eq_nil_or_concat'  entries |>.resolve_left hnil
    exact ⟨init.flatMap (fun entry => entryText entry ++ [0]) ++ entryText last, by simp⟩

/-- Two NULs in a row stand at the very end. -/
theorem blockOf_double_nul {entries : List (WideText × WideText)}
    (h : ∀ entry ∈ entries, ValidEntry entry) {before after : WideText}
    (hblock : blockOf entries = before ++ 0 :: 0 :: after) : after = [] := by
  have hsplit := splitOn_blockOf h
  have hzero : ((0 : UInt16) :: after).splitOn 0 = [] :: after.splitOn 0 :=
    List.splitOn_append_cons_self [] after
  rw [hblock, List.splitOn_append_cons_self, hzero] at hsplit
  have hbefore := List.length_pos_of_ne_nil (List.splitOn_ne_nil (0 : UInt16) before)
  have hafter := List.length_pos_of_ne_nil (List.splitOn_ne_nil (0 : UInt16) after)
  have hlength := congrArg List.length hsplit
  -- the empty segment stands behind the segments of the entries
  have hlater : entries.length ≤ (before.splitOn 0).length := by
    by_contra hlt
    have hget := congrArg (fun segments => segments[(before.splitOn 0).length]?) hsplit
    simp only [List.getElem?_append_right le_rfl, Nat.sub_self, List.getElem?_cons_zero] at hget
    rw [List.getElem?_append_left (by rw [List.length_map]; omega), List.getElem?_map, eq_comm,
      Option.map_eq_some_iff] at hget
    obtain ⟨entry, -, hentry⟩ := hget
    exact entryText_ne_nil entry hentry
  have hone : (after.splitOn 0).length = 1 := by
    simp only [List.length_append, List.length_cons, List.length_map] at hlength
    split_ifs at hlength with hnil
    · simp only [hnil, List.length_cons, List.length_nil] at hlength hlater
      omega
    · simp only [List.length_cons, List.length_nil] at hlength
      omega
  obtain ⟨segment, hsegment⟩ := List.length_eq_one_iff.mp hone
  have hlast := congrArg List.getLast? hsplit
  rw [hsegment] at hlast
  have hnil : segment = [] := by
    split_ifs at hlast
    · simpa using hlast
    · simpa using hlast
  rw [← @List.intercalate_splitOn _ after _ _ (0 : UInt16), hsegment, hnil]
  rfl

/-- A block begins with NUL for the empty map only. -/
theorem blockOf_leading_nul {entries : List (WideText × WideText)}
    (h : ∀ entry ∈ entries, ValidEntry entry) {after : WideText}
    (hblock : blockOf entries = 0 :: after) : entries = [] := by
  cases entries with
  | nil => rfl
  | cons entry entries =>
    have hread := readBlock_blockOf h
    have hzero : ((0 : UInt16) :: after).splitOn 0 = [] :: after.splitOn 0 :=
      List.splitOn_append_cons_self [] after
    rw [hblock, readBlock, hzero] at hread
    cases hread

/-- What a reader finds in the block of a map. -/
structure Faithful (toUppercase : String → String) (environment : Environment) (block : WideText) :
    Prop where
  /-- The entries are read back, each once, in the order of their upper-cased names. -/
  read : ∃ entries, readBlock block = some entries ∧ entries.Perm environment.entries ∧
    (entries.map Prod.fst).Nodup ∧ entries.Pairwise fun left right =>
      sortKey toUppercase left.1 ≤ sortKey toUppercase right.1
  /-- The block ends with an empty entry. -/
  terminated : ∃ body, block = body ++ [0, 0]
  /-- An empty entry stands nowhere else. -/
  terminator_last : ∀ before after, block = before ++ 0 :: 0 :: after → after = []
  /-- The first entry is empty for the empty map only. -/
  leading : ∀ after, block = 0 :: after → environment.entries = []

/-- Every block is faithful, and a map has a block unless an entry could be read differently. -/
theorem environmentBlock_faithful (toUppercase : String → String) (environment : Environment) :
    ((∃ reason, environmentBlock toUppercase environment = .error reason) ↔
      ∃ entry ∈ environment.entries, 0 ∈ entry.1 ∨ equalsUnit ∈ entry.1 ∨ 0 ∈ entry.2) ∧
    ∀ block, environmentBlock toUppercase environment = .ok block →
      Faithful toUppercase environment block := by
  refine ⟨environmentBlock_error_iff, fun block hok => ?_⟩
  obtain ⟨hvalid, rfl⟩ := environmentBlock_ok_iff.mp hok
  have hperm : (sortedEntries toUppercase environment.entries).Perm environment.entries :=
    List.perm_insertionSort _ _
  have hvalid' : ∀ entry ∈ sortedEntries toUppercase environment.entries, ValidEntry entry :=
    fun entry hentry => hvalid entry (hperm.mem_iff.mp hentry)
  have hsorted : (sortedEntries toUppercase environment.entries).Pairwise fun left right =>
      sortKey toUppercase left.1 ≤ sortKey toUppercase right.1 := by
    have htotal : Std.Total fun left right : WideText × WideText =>
        sortKey toUppercase left.1 ≤ sortKey toUppercase right.1 := ⟨fun _ _ => le_total _ _⟩
    have htrans : IsTrans (WideText × WideText) fun left right =>
        sortKey toUppercase left.1 ≤ sortKey toUppercase right.1 := ⟨fun _ _ _ => le_trans⟩
    exact List.pairwise_insertionSort _ _
  refine ⟨⟨_, readBlock_blockOf hvalid', hperm, ?_, hsorted⟩, blockOf_ends _,
    fun _ _ => blockOf_double_nul hvalid', fun after hblock => ?_⟩
  · exact (hperm.map Prod.fst).nodup_iff.mpr environment.distinct
  · have hnil := blockOf_leading_nul hvalid' hblock
    rw [hnil] at hperm
    exact List.nil_perm.mp hperm

/-- A variable without a name, and one whose value holds an equals sign. -/
theorem environmentBlock_faithful_sample :
    Faithful id ⟨[([], [0x43]), ([0x41], [0x3d])], by decide⟩ [0x3d, 0x43, 0, 0x41, 0x3d, 0x3d, 0, 0] :=
  (environmentBlock_faithful id _).2 _ (by decide +kernel)

end BaselineOps.NativeProcess
