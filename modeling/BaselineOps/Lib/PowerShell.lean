import Mathlib

/-!
# Lexical rules of PowerShell

A scanner for strings, comments, brackets and the variables of expandable strings. Here-strings and the
grammar above the tokens are left out: what the scanner refuses is no script, and a text that it accepts
may still be none.

* `scan_append`: a text is scanned piece by piece.
* `scan_literal`: a text without quotes stays within single quotes.
-/

namespace BaselineOps.Lib.PowerShell

/-- What is open at a place of a script. -/
inductive Frame where
  | paren
  | brace
  /-- Within a word, where `#` begins no comment. -/
  | word
  /-- Within single quotes, and behind a quote there, which ends the string unless another follows. -/
  | literal
  | literalQuote
  /-- Within double quotes, behind a quote there, and behind a backtick. -/
  | expandable
  | expandableQuote
  | expandableEscape
  /-- Behind `$`, within `$name`, behind `$name:` and within `${…}` of an expandable string. -/
  | dollar
  | variable
  | colon
  | braced
  /-- Behind a backtick and behind `<`. -/
  | escape
  | less
  | lineComment
  | blockComment
  | blockCommentHash
deriving DecidableEq

/-- What is open, the innermost first. -/
abbrev Stack := List Frame

/-- The apostrophe and the single quotes that count as one. -/
def isSingleQuote (c : Char) : Bool := c = '\'' || (0x2018 ≤ c.toNat && c.toNat ≤ 0x201b)

/-- The quotation mark and the double quotes that count as one. -/
def isDoubleQuote (c : Char) : Bool := c = '"' || (0x201c ≤ c.toNat && c.toNat ≤ 0x201e)

/-- The characters of the name of a variable. -/
def isNameChar (c : Char) : Bool := c.isAlphanum || c = '_' || c = '?'

/-- Blanks and ends of lines. -/
def isBlank (c : Char) : Bool := c = ' ' || c = '\n' || c = '\t' || c = '\r'

/-- The characters at which a word ends. -/
def endsWord (c : Char) : Bool :=
  isBlank c || isSingleQuote c || isDoubleQuote c || c ∈ [';', '|', '&', ',', '(', ')', '{', '}', '<', '>']

/-- A character of code. -/
def stepCode (stack : Stack) (c : Char) : Option Stack :=
  if isSingleQuote c then some (.literal :: stack)
  else if isDoubleQuote c then some (.expandable :: stack)
  else if c = '(' then some (.paren :: stack)
  else if c = '{' then some (.brace :: stack)
  else if c = ')' then if stack.head? = some .paren then some stack.tail else none
  else if c = '}' then if stack.head? = some .brace then some stack.tail else none
  else if c = '`' then some (.escape :: stack)
  else if c = '<' then some (.less :: stack)
  else if c = '#' then some (.lineComment :: stack)
  else if endsWord c then some stack
  else some (.word :: stack)

/-- A character of an expandable string. -/
def stepExpandable (rest : Stack) (c : Char) : Stack :=
  if isDoubleQuote c then .expandableQuote :: rest
  else if c = '`' then .expandableEscape :: rest
  else if c = '$' then .dollar :: rest
  else .expandable :: rest

/-- One character, by the innermost frame. -/
def step : Stack → Char → Option Stack
  | .word :: rest, c =>
    if c = '`' then some (.escape :: .word :: rest) else if endsWord c then stepCode rest c else some (.word :: rest)
  | .literal :: rest, c => some (if isSingleQuote c then .literalQuote :: rest else .literal :: rest)
  | .literalQuote :: rest, c => if isSingleQuote c then some (.literal :: rest) else stepCode rest c
  | .expandable :: rest, c => some (stepExpandable rest c)
  | .expandableQuote :: rest, c => if isDoubleQuote c then some (.expandable :: rest) else stepCode rest c
  | .expandableEscape :: rest, _ => some (.expandable :: rest)
  | .dollar :: rest, c =>
    if c = '(' then some (.paren :: .expandable :: rest)
    else if c = '{' then some (.braced :: rest)
    else if isNameChar c then some (.variable :: rest)
    else some (stepExpandable rest c)
  | .variable :: rest, c =>
    if isNameChar c then some (.variable :: rest)
    else if c = ':' then some (.colon :: rest)
    else some (stepExpandable rest c)
  -- ':' was not followed by a valid variable name character
  | .colon :: rest, c => if isNameChar c then some (.variable :: rest) else none
  | .braced :: rest, c => some (if c = '}' then .expandable :: rest else .braced :: rest)
  | .escape :: rest, _ => some rest
  | .less :: rest, c => if c = '#' then some (.blockComment :: rest) else stepCode rest c
  | .lineComment :: rest, c => some (if c = '\n' then rest else .lineComment :: rest)
  | .blockComment :: rest, c => some (if c = '#' then .blockCommentHash :: rest else .blockComment :: rest)
  | .blockCommentHash :: rest, c =>
    some (if c = '>' then rest else if c = '#' then .blockCommentHash :: rest else .blockComment :: rest)
  | stack, c => stepCode stack c

/-- A text from left to right; `none` where the parser refuses it. -/
def scan (stack : Stack) (text : List Char) : Option Stack := text.foldlM step stack

/-- What may be open at the end of a script. -/
def closes : Stack → Bool
  | [] => true
  | [.word] => true
  | [.literalQuote] => true
  | [.expandableQuote] => true
  | [.less] => true
  | [.lineComment] => true
  | _ => false

/-- The text keeps the lexical rules. -/
def wellFormed (text : List Char) : Bool := (scan [] text).any closes

example : wellFormed "Write-Output \"It's $name, $env:TEMP: $(Get-Date -Format 'o')\" # done".toList = false := by
  decide +kernel

example : wellFormed "Write-Output \"It's $name, $env:TEMP $(Get-Date -Format 'o')\" # done".toList = true := by
  decide +kernel

theorem scan_append (stack : Stack) (first second : List Char) :
    scan stack (first ++ second) = (scan stack first).bind fun next => scan next second :=
  List.foldlM_append

theorem scan_literal {rest : Stack} {text : List Char} (h : ∀ c ∈ text, isSingleQuote c = false) :
    scan (.literal :: rest) text = some (.literal :: rest) := by
  induction text with
  | nil => rfl
  | cons c text ih =>
    have hstep : step (.literal :: rest) c = some (.literal :: rest) := by
      simp [step, h c List.mem_cons_self]
    have hcons : scan (.literal :: rest) (c :: text) =
        (step (.literal :: rest) c).bind fun next => scan next text := rfl
    rw [hcons, hstep]
    exact ih fun d hd => h d (List.mem_cons_of_mem c hd)

/-- Behind an error nothing helps. -/
theorem wellFormed_of_scan_none {first second : List Char} (h : scan [] first = none) :
    wellFormed (first ++ second) = false := by
  rw [wellFormed, scan_append, h]
  rfl

end BaselineOps.Lib.PowerShell
