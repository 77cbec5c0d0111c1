import Mathlib.Data.List.Basic
import Mathlib.Tactic.Common

/-!
# Argument vectors in one command line

The published rules of `CommandLineToArgvW` over an arbitrary alphabet with four marks, and the
usual escaping of an argument: backslashes are doubled where a quote follows, and only there.

* `laterTokens` is the parser for all tokens but the first one, as an automaton: the number of
  backslashes that are pending, whether a quote is open, and the token that is being read.
* `Encodes` is what a token encoder has to achieve: whatever follows, the parser reads exactly the
  argument. `laterTokens_join` puts encoded tokens together.
* `encodes_escape`: an escaped argument between quotes; `encodes_plain`: an argument without blanks
  and quotes as it is.
-/

namespace BaselineOps.Lib.Argv

variable {α β : Type} [DecidableEq α] [DecidableEq β]

/-- The characters that the rules name. -/
structure Marks (α : Type) where
  backslash : α
  quote : α
  space : α
  tab : α
  quote_ne_backslash : quote ≠ backslash
  space_ne_backslash : space ≠ backslash
  space_ne_quote : space ≠ quote

variable (m : Marks α)

/-- Unquoted blanks separate tokens. -/
def Marks.Blank (c : α) : Prop := c = m.space ∨ c = m.tab

instance (c : α) : Decidable (m.Blank c) := inferInstanceAs (Decidable (_ ∨ _))

/-! ## The parser -/

/-- All tokens but the first: `2n` backslashes before a quote are `n` backslashes, and the quote
    toggles; `2n + 1` backslashes before a quote are `n` backslashes and the quote itself; other
    backslashes are literal. `current` is `none` between tokens. -/
def tokens : List α → (slashes : ℕ) → (quoted : Bool) → (current : Option (List α)) →
    List (List α)
  | [], _, _, none => []
  | [], slashes, _, some token => [token ++ List.replicate slashes m.backslash]
  | c :: text, slashes, quoted, current =>
    let token := current.getD []
    if c = m.backslash then tokens text (slashes + 1) quoted (some token)
    else if c = m.quote then
      let token := token ++ List.replicate (slashes / 2) m.backslash
      if slashes % 2 = 0 then tokens text 0 (!quoted) (some token)
      else tokens text 0 quoted (some (token ++ [m.quote]))
    else if m.Blank c ∧ quoted = false then
      match current with
      | none => tokens text 0 false none
      | some token => (token ++ List.replicate slashes m.backslash) :: tokens text 0 false none
    else tokens text 0 quoted (some (token ++ List.replicate slashes m.backslash ++ [c]))

/-- The tokens behind the first one. -/
def laterTokens (text : List α) : List (List α) := tokens m text 0 false none

/-- The first token: behind a quote it runs to the next quote, without escapes; otherwise to the
    first blank. -/
def commandLineToArgv : List α → List (List α)
  | [] => []
  | c :: text =>
    if c = m.quote then
      text.takeWhile (· ≠ m.quote) :: laterTokens m (text.dropWhile (· ≠ m.quote)).tail
    else
      (c :: text).takeWhile (fun c => ¬ m.Blank c) ::
        laterTokens m ((c :: text).dropWhile fun c => ¬ m.Blank c)

/-! ## The escaping -/

/-- The inside of a quoted token with its closing quote, `slashes` backslashes pending. -/
def escape : List α → (slashes : ℕ) → List α
  | [], slashes => List.replicate (2 * slashes) m.backslash ++ [m.quote]
  | c :: text, slashes =>
    if c = m.backslash then escape text (slashes + 1)
    else if c = m.quote then
      List.replicate (2 * slashes + 1) m.backslash ++ m.quote :: escape text 0
    else List.replicate slashes m.backslash ++ c :: escape text 0

/-! ## Reading tokens back -/

/-- The text behind a token: the end of the line, or a blank. -/
def Boundary (rest : List α) : Prop := rest = [] ∨ ∃ text, rest = m.space :: text

/-- The parser reads `text` as the token `argument`, whatever follows. -/
def Encodes (text argument : List α) : Prop :=
  ∀ rest, Boundary m rest →
    tokens m (text ++ rest) 0 false none = tokens m rest 0 false (some argument)

variable {m}

/-- A run of backslashes is counted. -/
theorem tokens_replicate (n slashes : ℕ) (quoted : Bool) (token text : List α) :
    tokens m (List.replicate n m.backslash ++ text) slashes quoted (some token) =
      tokens m text (slashes + n) quoted (some token) := by
  induction n generalizing slashes with
  | zero => simp
  | succ n ih =>
    rw [List.replicate_succ, List.cons_append, tokens]
    simp only [if_true, Option.getD_some]
    rw [ih]
    congr 1
    omega

/-- A quote behind an even number of backslashes. -/
theorem tokens_quote_even (n : ℕ) (quoted : Bool) (token text : List α) :
    tokens m (m.quote :: text) (2 * n) quoted (some token) =
      tokens m text 0 (!quoted) (some (token ++ List.replicate n m.backslash)) := by
  rw [tokens]
  simp only [if_neg m.quote_ne_backslash, if_true, Option.getD_some]
  rw [if_pos (by omega), Nat.mul_div_cancel_left n (by decide)]

/-- A quote behind an odd number of backslashes. -/
theorem tokens_quote_odd (n : ℕ) (quoted : Bool) (token text : List α) :
    tokens m (m.quote :: text) (2 * n + 1) quoted (some token) =
      tokens m text 0 quoted (some (token ++ List.replicate n m.backslash ++ [m.quote])) := by
  have hhalf : (2 * n + 1) / 2 = n := by omega
  rw [tokens]
  simp only [if_neg m.quote_ne_backslash, if_true, Option.getD_some]
  rw [if_neg (by omega), hhalf]

/-- Inside quotes every other character is literal. -/
theorem tokens_literal_quoted {c : α} (hbackslash : c ≠ m.backslash) (hquote : c ≠ m.quote)
    (slashes : ℕ) (token text : List α) :
    tokens m (c :: text) slashes true (some token) =
      tokens m text 0 true (some (token ++ List.replicate slashes m.backslash ++ [c])) := by
  rw [tokens]
  simp [hbackslash, hquote]

/-- Outside of quotes every character but a blank is literal. -/
theorem tokens_literal {c : α} (hbackslash : c ≠ m.backslash) (hquote : c ≠ m.quote)
    (hblank : ¬ m.Blank c) (slashes : ℕ) (token text : List α) :
    tokens m (c :: text) slashes false (some token) =
      tokens m text 0 false (some (token ++ List.replicate slashes m.backslash ++ [c])) := by
  rw [tokens]
  simp [hbackslash, hquote, hblank]

theorem tokens_space (token text : List α) (slashes : ℕ) :
    tokens m (m.space :: text) slashes false (some token) =
      (token ++ List.replicate slashes m.backslash) :: laterTokens m text := by
  rw [tokens]
  simp only [if_neg m.space_ne_backslash, if_neg m.space_ne_quote]
  rw [if_pos ⟨.inl rfl, trivial⟩]
  rfl

/-- A token that begins here is an empty one so far. -/
theorem tokens_none {c : α} (hblank : ¬ m.Blank c) (text : List α) :
    tokens m (c :: text) 0 false none = tokens m (c :: text) 0 false (some []) := by
  rw [tokens, tokens]
  simp [hblank]

/-- At a boundary, pending backslashes are literal. -/
theorem tokens_pending {rest : List α} (hrest : Boundary m rest) (slashes : ℕ) (token : List α) :
    tokens m rest slashes false (some token) =
      tokens m rest 0 false (some (token ++ List.replicate slashes m.backslash)) := by
  obtain rfl | ⟨text, rfl⟩ := hrest
  · simp [tokens]
  · rw [tokens_space, tokens_space]
    simp

/-- The parser undoes the escaping. -/
theorem tokens_escape (argument : List α) (slashes : ℕ) (token rest : List α) :
    tokens m (escape m argument slashes ++ rest) 0 true (some token) =
      tokens m rest 0 false (some (token ++ List.replicate slashes m.backslash ++ argument)) := by
  induction argument generalizing slashes token with
  | nil =>
    rw [escape, List.append_assoc, tokens_replicate, Nat.zero_add, List.singleton_append,
      tokens_quote_even, List.append_nil]
    rfl
  | cons c argument ih =>
    rw [escape]
    split_ifs with hbackslash hquote
    · rw [ih, hbackslash, List.replicate_succ']
      simp
    · rw [List.append_assoc, tokens_replicate, Nat.zero_add, List.cons_append, tokens_quote_odd, ih,
        hquote]
      simp
    · rw [List.append_assoc, tokens_replicate, Nat.zero_add, List.cons_append,
        tokens_literal_quoted hbackslash hquote, ih]
      simp

theorem encodes_escape (argument : List α) : Encodes m (m.quote :: escape m argument 0) argument := by
  intro rest _
  have hopen : tokens m (m.quote :: (escape m argument 0 ++ rest)) 0 false none =
      tokens m (escape m argument 0 ++ rest) 0 true (some []) := by
    rw [tokens]
    simp [m.quote_ne_backslash]
  rw [List.cons_append, hopen, tokens_escape]
  simp

/-- An argument without quotes and blanks, read as it is. -/
theorem tokens_plain {argument rest : List α} (hquote : m.quote ∉ argument)
    (hblank : ∀ c ∈ argument, ¬ m.Blank c) (hrest : Boundary m rest) (slashes : ℕ)
    (token : List α) :
    tokens m (argument ++ rest) slashes false (some token) =
      tokens m rest 0 false (some (token ++ List.replicate slashes m.backslash ++ argument)) := by
  induction argument generalizing slashes token with
  | nil =>
    rw [List.nil_append, tokens_pending hrest, List.append_nil]
  | cons c argument ih =>
    rw [List.mem_cons, not_or] at hquote
    obtain ⟨hc, hquote⟩ := hquote
    obtain ⟨hcblank, hblank⟩ := List.forall_mem_cons.mp hblank
    rw [List.cons_append]
    by_cases hbackslash : c = m.backslash
    · have hcount := tokens_replicate (m := m) 1 slashes false token (argument ++ rest)
      rw [List.replicate_one, List.singleton_append] at hcount
      rw [hbackslash, hcount, ih hquote hblank, List.replicate_succ']
      simp
    · rw [tokens_literal hbackslash (Ne.symm hc) hcblank, ih hquote hblank]
      simp

theorem encodes_plain {argument : List α} (hne : argument ≠ []) (hquote : m.quote ∉ argument)
    (hblank : ∀ c ∈ argument, ¬ m.Blank c) : Encodes m argument argument := by
  intro rest hrest
  obtain ⟨c, tail, rfl⟩ := List.exists_cons_of_ne_nil hne
  have hread := tokens_plain hquote hblank hrest 0 []
  rw [List.cons_append] at hread ⊢
  rw [tokens_none (hblank c List.mem_cons_self), hread]
  simp

/-- Encoded tokens joined by single spaces are read back one by one. -/
theorem laterTokens_join {texts arguments : List (List α)}
    (h : List.Forall₂ (Encodes m) texts arguments) :
    laterTokens m ([m.space].intercalate texts) = arguments := by
  induction h with
  | nil => rfl
  | @cons text argument texts arguments hhead htail ih =>
    cases htail with
    | nil =>
      have hread := hhead [] (.inl rfl)
      rw [List.append_nil] at hread
      rw [List.intercalate_singleton, laterTokens, hread, tokens]
      simp
    | @cons text' argument' texts arguments hhead' htail =>
      rw [List.intercalate_cons_cons, List.append_assoc, List.singleton_append, laterTokens,
        hhead _ (.inr ⟨_, rfl⟩), tokens_space, ih]
      simp

/-! ## The first token -/

/-- Without quotes and without a backslash at its end, an argument is not changed. -/
theorem escape_of_plain {argument : List α} (hne : argument ≠ []) (hquote : m.quote ∉ argument)
    (hlast : argument.getLast? ≠ some m.backslash) (slashes : ℕ) :
    escape m argument slashes = List.replicate slashes m.backslash ++ argument ++ [m.quote] := by
  induction argument generalizing slashes with
  | nil => exact absurd rfl hne
  | cons c argument ih =>
    rw [List.mem_cons, not_or] at hquote
    obtain ⟨hc, hquote⟩ := hquote
    rw [escape]
    cases argument with
    | nil =>
      have hbackslash : c ≠ m.backslash := by
        rintro rfl
        exact hlast rfl
      rw [if_neg hbackslash, if_neg (Ne.symm hc), escape]
      simp
    | cons d argument =>
      have htail : (d :: argument).getLast? ≠ some m.backslash := by
        rwa [List.getLast?_cons_cons] at hlast
      split_ifs with hbackslash hquote'
      · rw [ih (by simp) hquote htail, hbackslash, List.replicate_succ']
        simp
      · exact absurd hquote'.symm hc
      · rw [ih (by simp) hquote htail]
        simp

/-- A quoted first token in front of encoded tokens. -/
theorem commandLineToArgv_join {executable : List α} (hquote : m.quote ∉ executable)
    {texts arguments : List (List α)} (h : List.Forall₂ (Encodes m) texts arguments) :
    commandLineToArgv m ([m.space].intercalate ((m.quote :: executable ++ [m.quote]) :: texts)) =
      executable :: arguments := by
  have htake (rest : List α) : (executable ++ m.quote :: rest).takeWhile (· ≠ m.quote) =
      executable := by
    rw [List.takeWhile_append_of_pos]
    · simp
    · intro c hc
      simpa using fun hcq : c = m.quote => hquote (hcq ▸ hc)
  have hdrop (rest : List α) : ((executable ++ m.quote :: rest).dropWhile (· ≠ m.quote)).tail =
      rest := by
    rw [List.dropWhile_append_of_pos]
    · simp
    · intro c hc
      simpa using fun hcq : c = m.quote => hquote (hcq ▸ hc)
  cases h with
  | nil =>
    rw [List.intercalate_singleton, List.cons_append, commandLineToArgv, if_pos rfl, htake, hdrop]
    rfl
  | @cons text argument texts arguments hhead htail =>
    have hskip (rest : List α) : laterTokens m (m.space :: rest) = laterTokens m rest := by
      rw [laterTokens, tokens]
      simp only [if_neg m.space_ne_backslash, if_neg m.space_ne_quote]
      rw [if_pos ⟨.inl rfl, trivial⟩]
      rfl
    rw [List.intercalate_cons_cons, List.append_assoc, List.singleton_append, List.cons_append,
      List.cons_append, List.append_assoc, List.singleton_append, commandLineToArgv, if_pos rfl,
      htake, hdrop, hskip, laterTokens_join (.cons hhead htail)]

/-! ## Changing the alphabet -/

/-- A change of alphabet that keeps the two escaped marks apart from everything else. -/
structure Transports (m : Marks α) (m' : Marks β) (f : α → List β) : Prop where
  backslash : f m.backslash = [m'.backslash]
  quote : f m.quote = [m'.quote]
  space : f m.space = [m'.space]
  literal : ∀ c, c ≠ m.backslash → c ≠ m.quote →
    f c ≠ [] ∧ m'.backslash ∉ f c ∧ m'.quote ∉ f c

variable {m' : Marks β} {f : α → List β}

theorem escape_literals {literals : List β} (hne : literals ≠ [])
    (hbackslash : m'.backslash ∉ literals) (hquote : m'.quote ∉ literals) (text : List β)
    (slashes : ℕ) :
    escape m' (literals ++ text) slashes =
      List.replicate slashes m'.backslash ++ literals ++ escape m' text 0 := by
  induction literals generalizing slashes with
  | nil => exact absurd rfl hne
  | cons c literals ih =>
    rw [List.mem_cons, not_or] at hbackslash hquote
    rw [List.cons_append, escape, if_neg (Ne.symm hbackslash.1), if_neg (Ne.symm hquote.1)]
    cases literals with
    | nil => simp
    | cons d literals =>
      rw [ih (by simp) hbackslash.2 hquote.2]
      simp

theorem Transports.flatMap_escape (h : Transports m m' f) (argument : List α) (slashes : ℕ) :
    (escape m argument slashes).flatMap f = escape m' (argument.flatMap f) slashes := by
  have hreplicate (n : ℕ) : (List.replicate n m.backslash).flatMap f =
      List.replicate n m'.backslash := by
    induction n with
    | zero => rfl
    | succ n ih => rw [List.replicate_succ, List.flatMap_cons, ih, h.backslash]; rfl
  induction argument generalizing slashes with
  | nil =>
    rw [escape, List.flatMap_append, hreplicate, List.flatMap_singleton, h.quote]
    rfl
  | cons c argument ih =>
    rw [escape, List.flatMap_cons]
    split_ifs with hbackslash hquote
    · rw [ih, hbackslash, h.backslash, List.singleton_append, escape, if_pos rfl]
    · rw [List.flatMap_append, hreplicate, List.flatMap_cons, ih, hquote, h.quote,
        List.singleton_append, List.singleton_append, escape, if_neg m'.quote_ne_backslash,
        if_pos rfl]
    · obtain ⟨hne, hnb, hnq⟩ := h.literal c hbackslash hquote
      rw [List.flatMap_append, hreplicate, List.flatMap_cons, ih, escape_literals hne hnb hnq,
        List.append_assoc]

end BaselineOps.Lib.Argv
