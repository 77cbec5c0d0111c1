import Mathlib
import BaselineOps.Lib.Argv
import BaselineOps.Lib.OsPath
import BaselineOps.Lib.Utf16

/-!
# Command lines of native processes

Two encoders of an argument list into one Windows command line: `baselineops-windows/src/
command_line.rs` with `native_process/windows.rs` (lines 447–459), and the fallback of
`lib/platform/NativeProcess.ps1` for hosts without `ProcessStartInfo.ArgumentList`.

* A command line is read by `CommandLineToArgvW` as 16-bit units up to the first NUL.
* Rust strings are characters, PowerShell strings are 16-bit units.
* `saturating_mul` and `saturating_add` count the backslashes of one string and do not saturate.
* An executable path that is not Unicode is converted by `to_string_lossy`; its round trip holds for
  the converted path.
-/

namespace BaselineOps.NativeProcess

open BaselineOps.Lib

/-! ## The parser -/

/-- The marks of the parser, as characters. -/
def charMarks : Argv.Marks Char where
  backslash := '\\'
  quote := '"'
  space := ' '
  tab := '\t'
  quote_ne_backslash := by decide
  space_ne_backslash := by decide
  space_ne_quote := by decide

/-- The marks of the parser, as UTF-16 units. -/
def unitMarks : Argv.Marks UInt16 where
  backslash := 0x5c
  quote := 0x22
  space := 0x20
  tab := 0x09
  quote_ne_backslash := by decide
  space_ne_backslash := by decide
  space_ne_quote := by decide

/-- `CommandLineToArgvW` on a NUL-terminated buffer. -/
def commandLineToArgvW (buffer : List UInt16) : List (List UInt16) :=
  Argv.commandLineToArgv unitMarks (buffer.takeWhile (· ≠ 0))

/-! ## The Rust encoder -/

/-- The loop of `quote_argument` (`command_line.rs`, lines 6–18) on `(output, backslashes)`. -/
def quoteCharacter (state : List Char × ℕ) (character : Char) : List Char × ℕ :=
  let (output, backslashes) := state
  if character = '\\' then (output, backslashes + 1)
  else if character = '"' then
    (output ++ List.replicate (backslashes * 2 + 1) '\\' ++ [character], 0)
  else (output ++ List.replicate backslashes '\\' ++ [character], 0)

/-- `quote_argument` (lines 3–22). -/
def quoteArgument (argument : String) : String :=
  let (output, backslashes) := argument.toList.foldl quoteCharacter (['"'], 0)
  String.ofList (output ++ List.replicate (backslashes * 2) '\\' ++ ['"'])

/-- `command_line` (`native_process/windows.rs`, lines 447–456). -/
def commandLine (executable : OsPath.OsStr) (args : List String) : String :=
  let tokens := String.ofList (OsPath.toStringLossy executable) :: args
  " ".intercalate (tokens.map quoteArgument)

/-- `encode_wide` of an `OsStr`. -/
def encodeWide (text : OsPath.OsStr) : List UInt16 :=
  text.flatMap fun
    | .char c => Utf16.encodeChar c
    | .ill unit => [UInt16.ofNat unit]

/-- `wide` (lines 458–460). -/
def wide (text : OsPath.OsStr) : List UInt16 := encodeWide text ++ [0]

/-! ## The PowerShell encoder -/

/-- `\s` of a .NET regular expression: `[\f\n\r\t\v\x85\p\x7bZ\x7d]`. -/
def isSpace (unit : UInt16) : Bool :=
  (0x09 ≤ unit ∧ unit ≤ 0x0d) ∨ unit = 0x20 ∨ unit = 0x85 ∨ unit = 0xa0 ∨ unit = 0x1680 ∨
    (0x2000 ≤ unit ∧ unit ≤ 0x200a) ∨ unit = 0x2028 ∨ unit = 0x2029 ∨ unit = 0x202f ∨
    unit = 0x205f ∨ unit = 0x3000

/-- `Add-TrailingWindowsCommandLineBackslashes` (`NativeProcess.ps1`, lines 14–17). -/
def addTrailingWindowsCommandLineBackslashes (builder : List UInt16) (slashCount : ℕ) :
    List UInt16 :=
  if 0 < slashCount then builder ++ List.replicate (slashCount * 2) 0x5c else builder

/-- The loop of `Invoke-NativeArgumentEscaper` (lines 30–35) on `(builder, slashes)`. -/
def escapeCharacter (state : List UInt16 × ℕ) (character : UInt16) : List UInt16 × ℕ :=
  let (builder, slashes) := state
  if character = 0x5c then (builder, slashes + 1)
  else if character = 0x22 then (builder ++ List.replicate (slashes * 2 + 1) 0x5c ++ [0x22], 0)
  else
    let (builder, slashes) :=
      if 0 < slashes then (builder ++ List.replicate slashes 0x5c, 0) else (builder, slashes)
    (builder ++ [character], slashes)

/-- `Invoke-NativeArgumentEscaper` (lines 25–38). -/
def invokeNativeArgumentEscaper (argument : List UInt16) : List UInt16 :=
  if argument.length = 0 then [0x22, 0x22]
  else if ¬ argument.any fun character => isSpace character || character == 0x22 then argument
  else
    let (builder, slashes) := argument.foldl escapeCharacter ([0x22], 0)
    addTrailingWindowsCommandLineBackslashes builder slashes ++ [0x22]

/-- `Set-NativeProcessArguments` without `ArgumentList` (lines 72–76). -/
def setNativeProcessArguments (arguments : List (List UInt16)) : List UInt16 :=
  [(0x20 : UInt16)].intercalate (arguments.map invokeNativeArgumentEscaper)

/-! ## Both are the escaping of the library -/

theorem foldl_quoteCharacter (argument : List Char) (output : List Char) (backslashes : ℕ) :
    (argument.foldl quoteCharacter (output, backslashes)).1 ++
        List.replicate ((argument.foldl quoteCharacter (output, backslashes)).2 * 2) '\\' ++ ['"'] =
      output ++ Argv.escape charMarks argument backslashes := by
  induction argument generalizing output backslashes with
  | nil =>
    rw [Argv.escape, Nat.mul_comm 2, List.append_assoc]
    rfl
  | cons c argument ih =>
    rw [List.foldl_cons, Argv.escape]
    by_cases hbackslash : c = charMarks.backslash
    · have hstep : quoteCharacter (output, backslashes) c = (output, backslashes + 1) :=
        if_pos hbackslash
      rw [hstep, ih, if_pos hbackslash]
    · by_cases hquote : c = charMarks.quote
      · have hstep : quoteCharacter (output, backslashes) c =
            (output ++ List.replicate (backslashes * 2 + 1) '\\' ++ [c], 0) :=
          (if_neg hbackslash).trans (if_pos hquote)
        rw [hstep, ih, if_neg hbackslash, if_pos hquote, Nat.mul_comm 2, hquote, List.append_assoc,
          List.append_assoc]
        rfl
      · have hstep : quoteCharacter (output, backslashes) c =
            (output ++ List.replicate backslashes '\\' ++ [c], 0) :=
          (if_neg hbackslash).trans (if_neg hquote)
        rw [hstep, ih, if_neg hbackslash, if_neg hquote, List.append_assoc, List.append_assoc]
        rfl

theorem quoteArgument_eq (argument : String) :
    (quoteArgument argument).toList = '"' :: Argv.escape charMarks argument.toList 0 := by
  unfold quoteArgument
  rw [String.toList_ofList]
  exact foldl_quoteCharacter argument.toList ['"'] 0

theorem foldl_escapeCharacter (argument builder : List UInt16) (slashes : ℕ) :
    addTrailingWindowsCommandLineBackslashes (argument.foldl escapeCharacter (builder, slashes)).1
        (argument.foldl escapeCharacter (builder, slashes)).2 ++ [0x22] =
      builder ++ Argv.escape unitMarks argument slashes := by
  induction argument generalizing builder slashes with
  | nil =>
    rw [Argv.escape, Nat.mul_comm 2]
    change addTrailingWindowsCommandLineBackslashes builder slashes ++ [0x22] = _
    unfold addTrailingWindowsCommandLineBackslashes
    split_ifs with hslashes
    · exact List.append_assoc ..
    · rw [Nat.eq_zero_of_not_pos hslashes]
      rfl
  | cons c argument ih =>
    rw [List.foldl_cons, Argv.escape]
    by_cases hbackslash : c = unitMarks.backslash
    · have hstep : escapeCharacter (builder, slashes) c = (builder, slashes + 1) :=
        if_pos hbackslash
      rw [hstep, ih, if_pos hbackslash]
    · by_cases hquote : c = unitMarks.quote
      · have hstep : escapeCharacter (builder, slashes) c =
            (builder ++ List.replicate (slashes * 2 + 1) 0x5c ++ [0x22], 0) :=
          (if_neg hbackslash).trans (if_pos hquote)
        rw [hstep, ih, if_neg hbackslash, if_pos hquote, Nat.mul_comm 2, List.append_assoc,
          List.append_assoc]
        rfl
      · have hstep : escapeCharacter (builder, slashes) c =
            (builder ++ List.replicate slashes 0x5c ++ [c], 0) := by
          refine ((if_neg hbackslash).trans (if_neg hquote)).trans ?_
          cases slashes with
          | zero => simp
          | succ slashes => simp
        rw [hstep, ih, if_neg hbackslash, if_neg hquote, List.append_assoc, List.append_assoc]
        rfl

theorem encodes_invokeNativeArgumentEscaper (argument : List UInt16) :
    Argv.Encodes unitMarks (invokeNativeArgumentEscaper argument) argument := by
  unfold invokeNativeArgumentEscaper
  split_ifs with hempty hquoted
  · rw [List.length_eq_zero_iff] at hempty
    subst hempty
    exact Argv.encodes_escape []
  · change Argv.Encodes unitMarks (addTrailingWindowsCommandLineBackslashes
      (argument.foldl escapeCharacter ([0x22], 0)).1 (argument.foldl escapeCharacter ([0x22], 0)).2 ++
      [0x22]) argument
    rw [foldl_escapeCharacter]
    exact Argv.encodes_escape argument
  · -- no white space, hence no blank
    have hnone : ∀ c ∈ argument, isSpace c = false ∧ c ≠ 0x22 := by
      intro c hc
      simp only [List.any_eq_true, not_exists, not_and, Bool.or_eq_true, not_or] at hquoted
      simpa using hquoted c hc
    apply Argv.encodes_plain
    · rintro rfl
      exact hempty rfl
    · intro hquote
      exact (hnone _ hquote).2 rfl
    · rintro c hc (rfl | rfl)
      · exact absurd (hnone _ hc).1 (by decide)
      · exact absurd (hnone _ hc).1 (by decide)

/-! ## Characters and units -/

theorem transports_encodeChar : Argv.Transports charMarks unitMarks Utf16.encodeChar where
  backslash := by decide
  quote := by decide
  space := by decide
  literal := by
    intro c hbackslash hquote
    refine ⟨Utf16.encodeChar_ne_nil c, ?_, ?_⟩
    · intro hmem
      exact hbackslash (Utf16.eq_of_mem_encodeChar (d := '\\') (by decide) hmem)
    · intro hmem
      exact hquote (Utf16.eq_of_mem_encodeChar (d := '"') (by decide) hmem)

theorem encode_quoteArgument (argument : String) :
    Utf16.encode (quoteArgument argument).toList =
      0x22 :: Argv.escape unitMarks (Utf16.encode argument.toList) 0 := by
  rw [quoteArgument_eq, Utf16.encode, List.flatMap_cons, transports_encodeChar.flatMap_escape]
  rfl

theorem encode_intercalate (texts : List (List Char)) :
    Utf16.encode ([' '].intercalate texts) = [(0x20 : UInt16)].intercalate (texts.map Utf16.encode) := by
  induction texts with
  | nil => rfl
  | cons text texts ih =>
    cases texts with
    | nil => simp
    | cons text' texts =>
      rw [List.intercalate_cons_cons, List.map_cons, List.map_cons, List.intercalate_cons_cons,
        ← List.map_cons, ← ih]
      simp [Utf16.encode, Utf16.encodeChar]

theorem encodeWide_ofText (text : String) :
    encodeWide (OsPath.ofText text) = Utf16.encode text.toList := by
  unfold encodeWide OsPath.ofText Utf16.encode
  rw [List.flatMap_map]

theorem lossy_eq_iff {c : Char} (hc : c ≠ Char.ofNat 0xfffd) (unit : OsPath.OsUnit) :
    unit.lossy = c ↔ unit = .char c := by
  cases unit with
  | char d => simp [OsPath.OsUnit.lossy]
  | ill n =>
    simp only [OsPath.OsUnit.lossy, reduceCtorEq, iff_false]
    exact Ne.symm hc

theorem mem_toStringLossy {c : Char} (hc : c ≠ Char.ofNat 0xfffd) {path : OsPath.OsStr} :
    c ∈ OsPath.toStringLossy path ↔ .char c ∈ path := by
  unfold OsPath.toStringLossy
  rw [List.mem_map]
  simp only [lossy_eq_iff hc, exists_eq_right]

theorem encode_toStringLossy {path : OsPath.OsStr} (h : ∀ unit ∈ path, ∃ c, unit = .char c) :
    Utf16.encode (OsPath.toStringLossy path) = encodeWide path := by
  unfold Utf16.encode OsPath.toStringLossy encodeWide
  rw [List.flatMap_map]
  apply List.flatMap_congr
  intro unit hunit
  obtain ⟨c, rfl⟩ := h unit hunit
  rfl

/-! ## The buffer -/

/-- Up to its first NUL the buffer holds the whole command line. -/
theorem takeWhile_wide {text : String} (h : '\x00' ∉ text.toList) :
    (wide (OsPath.ofText text)).takeWhile (· ≠ 0) = Utf16.encode text.toList := by
  unfold wide
  rw [encodeWide_ofText, List.takeWhile_append_of_pos]
  · simp
  · intro unit hunit
    have hnul : (0 : UInt16) ∉ Utf16.encode text.toList := by
      intro hmem
      exact h ((Utf16.mem_encode_ascii (d := '\x00') (by decide)).mp hmem)
    simpa using fun hzero : unit = 0 => hnul (hzero ▸ hunit)

/-- Quoting adds no character but backslashes and quotes. -/
theorem mem_escape {c : Char} {text : List Char} {slashes : ℕ}
    (h : c ∈ Argv.escape charMarks text slashes) : c ∈ text ∨ c = '\\' ∨ c = '"' := by
  induction text generalizing slashes with
  | nil =>
    simp only [Argv.escape, List.mem_append, List.mem_replicate, List.mem_singleton] at h
    obtain ⟨-, rfl⟩ | rfl := h
    · exact .inr (.inl rfl)
    · exact .inr (.inr rfl)
  | cons d text ih =>
    have hcons {slashes : ℕ} (h : c ∈ Argv.escape charMarks text slashes) :
        c ∈ d :: text ∨ c = '\\' ∨ c = '"' :=
      (ih h).imp_left (List.mem_cons_of_mem d)
    rw [Argv.escape] at h
    split_ifs at h with hbackslash hquote
    · exact hcons h
    · simp only [List.mem_append, List.mem_replicate, List.mem_cons] at h
      obtain ⟨-, rfl⟩ | rfl | h := h
      · exact .inr (.inl rfl)
      · exact .inr (.inr rfl)
      · exact hcons h
    · simp only [List.mem_append, List.mem_replicate, List.mem_cons] at h
      obtain ⟨-, rfl⟩ | rfl | h := h
      · exact .inr (.inl rfl)
      · exact .inl List.mem_cons_self
      · exact hcons h

theorem nul_notMem_quoteArgument {argument : String} (h : '\x00' ∉ argument.toList) :
    '\x00' ∉ (quoteArgument argument).toList := by
  rw [quoteArgument_eq, List.mem_cons, not_or]
  refine ⟨by decide, ?_⟩
  intro hmem
  obtain hmem | habs | habs := mem_escape hmem
  · exact h hmem
  · exact absurd habs (by decide)
  · exact absurd habs (by decide)

theorem toList_intercalate_space (texts : List String) :
    (" ".intercalate texts).toList = [' '].intercalate (texts.map String.toList) := by
  rw [String.toList_intercalate]
  rfl

theorem nul_notMem_intercalate {texts : List (List Char)} (h : ∀ text ∈ texts, '\x00' ∉ text) :
    '\x00' ∉ [' '].intercalate texts := by
  induction texts with
  | nil => simp
  | cons text texts ih =>
    obtain ⟨htext, htexts⟩ := List.forall_mem_cons.mp h
    cases texts with
    | nil =>
      rw [List.intercalate_singleton]
      exact htext
    | cons text' texts =>
      rw [List.intercalate_cons_cons, List.mem_append, List.mem_append, not_or, not_or]
      exact ⟨⟨htext, by decide⟩, ih htexts⟩

/-- A command line without NULs is read back as the tokens it was made of. -/
theorem commandLineToArgvW_commandLine {executable : OsPath.OsStr} {args : List String}
    (hnul : .char '\x00' ∉ executable) (hne : executable ≠ []) (hquote : .char '"' ∉ executable)
    (hslash : executable.getLast? ≠ some (.char '\\'))
    (hargs : ∀ argument ∈ args, '\x00' ∉ argument.toList) :
    commandLineToArgvW (wide (OsPath.ofText (commandLine executable args))) =
      Utf16.encode (OsPath.toStringLossy executable) ::
        args.map fun argument => Utf16.encode argument.toList := by
  have hfirst : String.toList (String.ofList (OsPath.toStringLossy executable)) =
      OsPath.toStringLossy executable := String.toList_ofList
  have hline : (commandLine executable args).toList = [' '].intercalate
      ((quoteArgument (String.ofList (OsPath.toStringLossy executable))).toList ::
        args.map fun argument => (quoteArgument argument).toList) := by
    unfold commandLine
    rw [toList_intercalate_space, List.map_cons, List.map_cons, List.map_map]
    rfl
  have hclean : '\x00' ∉ (commandLine executable args).toList := by
    rw [hline]
    apply nul_notMem_intercalate
    rw [List.forall_mem_cons, List.forall_mem_map]
    refine ⟨nul_notMem_quoteArgument ?_, fun argument hmem => nul_notMem_quoteArgument (hargs _ hmem)⟩
    rwa [hfirst, mem_toStringLossy (by decide)]
  -- the executable is quoted, but not changed by its quoting
  have hexecutable : Utf16.encode (quoteArgument
      (String.ofList (OsPath.toStringLossy executable))).toList =
      0x22 :: Utf16.encode (OsPath.toStringLossy executable) ++ [0x22] := by
    rw [quoteArgument_eq, hfirst, Argv.escape_of_plain]
    · rw [List.replicate_zero, List.nil_append, Utf16.encode, List.flatMap_cons,
        List.flatMap_append, List.flatMap_singleton, transports_encodeChar.quote]
      rfl
    · simpa [OsPath.toStringLossy] using hne
    · exact fun hmem => hquote ((mem_toStringLossy (by decide)).mp hmem)
    · rw [OsPath.toStringLossy, List.getLast?_map, Ne, Option.map_eq_some_iff]
      rintro ⟨unit, hunit, hlossy⟩
      exact hslash (((lossy_eq_iff (by decide) unit).mp hlossy) ▸ hunit)
  unfold commandLineToArgvW
  rw [takeWhile_wide hclean, hline, encode_intercalate, List.map_cons, hexecutable, List.map_map]
  apply Argv.commandLineToArgv_join (m := unitMarks)
  · intro hmem
    exact hquote ((mem_toStringLossy (by decide)).mp
      ((Utf16.mem_encode_ascii (d := '"') (by decide)).mp hmem))
  · rw [List.forall₂_map_left_iff, List.forall₂_map_right_iff, List.forall₂_same]
    intro argument _
    rw [Function.comp_apply, encode_quoteArgument]
    exact Argv.encodes_escape _

theorem laterTokens_setNativeProcessArguments (arguments : List (List UInt16)) :
    Argv.laterTokens unitMarks (setNativeProcessArguments arguments) = arguments := by
  unfold setNativeProcessArguments
  apply Argv.laterTokens_join (m := unitMarks)
  rw [List.forall₂_map_left_iff, List.forall₂_same]
  exact fun argument _ => encodes_invokeNativeArgumentEscaper argument

/-- Both encoders are undone by the rules of `CommandLineToArgvW`. The executable is read back in its
    Unicode conversion, which is the executable itself when that is Unicode. -/
theorem commandLine_roundTrip {executable : OsPath.OsStr} {args : List String}
    (hnul : .char '\x00' ∉ executable) (hne : executable ≠ []) (hquote : .char '"' ∉ executable)
    (hslash : executable.getLast? ≠ some (.char '\\'))
    (hargs : ∀ argument ∈ args, '\x00' ∉ argument.toList) :
    commandLineToArgvW (wide (OsPath.ofText (commandLine executable args))) =
        Utf16.encode (OsPath.toStringLossy executable) ::
          args.map (fun argument => Utf16.encode argument.toList) ∧
      ((∀ unit ∈ executable, ∃ c, unit = .char c) →
        Utf16.encode (OsPath.toStringLossy executable) = encodeWide executable) ∧
      ∀ arguments : List (List UInt16),
        Argv.laterTokens unitMarks (setNativeProcessArguments arguments) = arguments :=
  ⟨commandLineToArgvW_commandLine hnul hne hquote hslash hargs, encode_toStringLossy,
    laterTokens_setNativeProcessArguments⟩

theorem commandLine_roundTrip_sample :
    commandLineToArgvW (wide (OsPath.ofText (commandLine (OsPath.ofText "C:\\a b\\c.exe")
        ["", "x\\\"y", "z\\"]))) =
      Utf16.encode (OsPath.toStringLossy (OsPath.ofText "C:\\a b\\c.exe")) ::
        ["", "x\\\"y", "z\\"].map fun argument => Utf16.encode argument.toList :=
  (commandLine_roundTrip (by decide) (by decide) (by decide) (by decide) (by decide)).1

/-- A path with an unpaired surrogate comes back as U+FFFD. -/
theorem commandLine_lossy_executable :
    ¬ ∀ (executable : OsPath.OsStr) (args : List String), .char '\x00' ∉ executable →
      executable ≠ [] → .char '"' ∉ executable → executable.getLast? ≠ some (.char '\\') →
      (∀ argument ∈ args, '\x00' ∉ argument.toList) →
      commandLineToArgvW (wide (OsPath.ofText (commandLine executable args))) =
        encodeWide executable :: args.map fun argument => Utf16.encode argument.toList := by
  intro h
  have hread := h [.ill 0xd800] [] (by decide) (by decide) (by decide) (by decide) (by simp)
  rw [commandLineToArgvW_commandLine (by decide) (by decide) (by decide) (by decide) (by simp)]
    at hread
  exact absurd hread (by decide)

end BaselineOps.NativeProcess
