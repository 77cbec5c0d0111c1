import Mathlib
import BaselineOps.Domain.KeyOrder
import BaselineOps.Domain.Load
import BaselineOps.Domain.Reference
import BaselineOps.Lib.Decimal
import BaselineOps.Lib.Reader

/-!
# Reading canonical JSON back

`fromSlice` models `serde_json::from_slice::<Value>` with the default features: the grammar, the
escapes, maps that keep the last of several equal keys, and the recursion limit, which lets 127
containers nest. What the parser makes of a number that no integer type holds is a parameter.

* `fromSlice_canonicalJsonBytes`: canonical bytes of a value within the recursion limit are read back,
  and refused beyond it.
* `canonicalJson_normal_form`: canonical bytes are a normal form of values.
-/

namespace BaselineOps.Domain

open BaselineOps.Lib

/-! ## The parser -/

/-- Space, line feed, tab and carriage return. -/
def isJsonWhitespace (b : UInt8) : Bool := b == 0x20 || b == 0x0a || b == 0x09 || b == 0x0d

/-- The input behind its leading blanks. -/
def skipWhitespace (input : List UInt8) : List UInt8 := input.dropWhile isJsonWhitespace

/-- The value of a hexadecimal digit. -/
def hexDigitValue (b : UInt8) : Option ℕ :=
  if 0x30 ≤ b ∧ b ≤ 0x39 then some (b.toNat - 0x30)
  else if 0x61 ≤ b ∧ b ≤ 0x66 then some (b.toNat - 0x61 + 10)
  else if 0x41 ≤ b ∧ b ≤ 0x46 then some (b.toNat - 0x41 + 10)
  else none

/-- The value of four hexadecimal digits. -/
def hexEscapeValue (a b c e : UInt8) : Option ℕ := do
  let a ← hexDigitValue a
  let b ← hexDigitValue b
  let c ← hexDigitValue c
  let e ← hexDigitValue e
  return ((a * 16 + b) * 16 + c) * 16 + e

/-- The four digits behind `\u`. -/
def decodeHexEscape : Reader UInt8 ℕ
  | a :: b :: c :: e :: rest => (hexEscapeValue a b c e).map fun n => (n, rest)
  | _ => none

/-- What stands behind `\u`: a code point, or a surrogate pair in two escapes. -/
def parseUnicodeEscape : Reader UInt8 (List UInt8) := fun input => do
  let (n, rest) ← decodeHexEscape input
  if 0xdc00 ≤ n ∧ n ≤ 0xdfff then none
  else if n < 0xd800 ∨ 0xdbff < n then return (String.utf8EncodeChar (Char.ofNat n), rest)
  else
    match rest with
    | a :: b :: rest => do
      if a ≠ 0x5c ∨ b ≠ 0x75 then none
      let (m, rest) ← decodeHexEscape rest
      if m < 0xdc00 ∨ 0xdfff < m then none
      return (String.utf8EncodeChar (Char.ofNat ((n - 0xd800) * 1024 + (m - 0xdc00) + 0x10000)), rest)
    | _ => none

/-- The byte that a one-letter escape stands for. -/
def shortEscape (e : UInt8) : Option UInt8 :=
  if e = 0x22 then some 0x22
  else if e = 0x5c then some 0x5c
  else if e = 0x2f then some 0x2f
  else if e = 0x62 then some 0x08
  else if e = 0x66 then some 0x0c
  else if e = 0x6e then some 0x0a
  else if e = 0x72 then some 0x0d
  else if e = 0x74 then some 0x09
  else none

/-- What stands behind a backslash. -/
def parseEscape : Reader UInt8 (List UInt8)
  | [] => none
  | e :: rest =>
    if e = 0x75 then parseUnicodeEscape rest else (shortEscape e).map fun b => ([b], rest)

/-- The bytes of a string up to its closing quote, with fuel for each of them. -/
def parseStrBytes : ℕ → Reader UInt8 (List UInt8)
  | 0, _ => none
  | _ + 1, [] => none
  | fuel + 1, b :: rest =>
    if b = 0x22 then some ([], rest)
    else if b = 0x5c then do
      let (c, rest) ← parseEscape rest
      let (bytes, rest) ← parseStrBytes fuel rest
      return (c ++ bytes, rest)
    else if b < 0x20 then none
    else do
      let (bytes, rest) ← parseStrBytes fuel rest
      return (b :: bytes, rest)

/-- A string, behind its opening quote. -/
def parseStr : Reader UInt8 String := fun input => do
  let (bytes, rest) ← parseStrBytes input.length input
  let s ← fromUtf8 bytes
  return (s, rest)

/-- `b'0'..=b'9'`. -/
def isDigitByte (b : UInt8) : Bool := decide (0x30 ≤ b ∧ b ≤ 0x39)

/-- The bytes that a number is spelled with. -/
def isNumberByte (b : UInt8) : Bool :=
  isDigitByte b || b == 0x2d || b == 0x2b || b == 0x2e || b == 0x65 || b == 0x45

/-- The value of a number without sign, fraction and exponent; there are no leading zeros. -/
def decimal (text : List UInt8) : Option ℕ :=
  if text ≠ [] ∧ text.all isDigitByte ∧ (text.head? = some 0x30 → text.length = 1) then
    some (text.foldl (fun n b => 10 * n + (b.toNat - 0x30)) 0)
  else none

/-- A number: `u64` and negative `i64` where they fit, else what `readFloat` makes of the text. -/
def parseNumber (readFloat : List UInt8 → Option FiniteFloat) (text : List UInt8) : Option Number :=
  match text with
  | [] => none
  | b :: rest =>
    if b = 0x2d then
      match decimal rest with
      | some n =>
        if h : 0 < n ∧ n ≤ 2 ^ 63 then some (.negInt ⟨n - 1, by omega⟩)
        else (readFloat text).map .float
      | none => (readFloat text).map .float
    else
      match decimal text with
      | some n => if n < 2 ^ 64 then some (.posInt (UInt64.ofNat n)) else (readFloat text).map .float
      | none => (readFloat text).map .float

/-- One of the names `null`, `true` and `false`, behind its first letter. -/
def parseIdent (name : String) (v : Value) : Reader UInt8 Value := fun input =>
  if utf8 name <+: input then some (v, input.drop (utf8 name).length) else none

/-- `BTreeMap::insert`. -/
def insertMember : List (String × Value) → String × Value → List (String × Value)
  | [], m => [m]
  | x :: members, m =>
    if x.1 < m.1 then x :: insertMember members m
    else if x.1 = m.1 then m :: members
    else m :: x :: members

/-- Key, colon and value. -/
def parseMember (value : Reader UInt8 Value) : Reader UInt8 (String × Value) := fun input =>
  match skipWhitespace input with
  | [] => none
  | q :: rest => do
    if q ≠ 0x22 then none
    let (key, rest) ← parseStr rest
    match skipWhitespace rest with
    | [] => none
    | c :: rest => do
      if c ≠ 0x3a then none
      let (v, rest) ← value rest
      return ((key, v), rest)

/-- A value, with the number of containers that may still nest. -/
def parseValue (readFloat : List UInt8 → Option FiniteFloat) : ℕ → Reader UInt8 Value
  | depth, input =>
    match skipWhitespace input with
    | [] => none
    | b :: rest =>
      if b = 0x6e then parseIdent "ull" .null rest
      else if b = 0x74 then parseIdent "rue" (.bool true) rest
      else if b = 0x66 then parseIdent "alse" (.bool false) rest
      else if b = 0x22 then (parseStr rest).map fun (s, rest) => (.string s, rest)
      else if b = 0x5b then
        match depth with
        | 0 => none
        | depth + 1 =>
          (readSeparated skipWhitespace (parseValue readFloat depth) 0x2c 0x5d rest).map
            fun (items, rest) => (.array items, rest)
      else if b = 0x7b then
        match depth with
        | 0 => none
        | depth + 1 =>
          (readSeparated skipWhitespace (parseMember (parseValue readFloat depth)) 0x2c 0x7d rest).map
            fun (members, rest) => (.object (members.foldl insertMember []), rest)
      else
        (parseNumber readFloat ((b :: rest).takeWhile isNumberByte)).map
          fun n => (.number n, (b :: rest).dropWhile isNumberByte)

/-- `serde_json::from_slice::<Value>`. The remaining depth starts at 128 and must not reach zero. -/
def fromSlice (readFloat : List UInt8 → Option FiniteFloat) (bytes : List UInt8) : Option Value := do
  let (v, rest) ← parseValue readFloat 127 bytes
  if skipWhitespace rest = [] then return v else none

/-! ## Strings -/

/-- More fuel reads the same string. -/
theorem parseStrBytes_mono {fuel n : ℕ} (hfuel : fuel ≤ n) {input : List UInt8}
    {r : List UInt8 × List UInt8} (h : parseStrBytes fuel input = some r) :
    parseStrBytes n input = some r := by
  induction fuel generalizing n input r with
  | zero => cases h
  | succ fuel ih =>
    obtain ⟨n, rfl⟩ := Nat.exists_eq_succ_of_ne_zero (show n ≠ 0 by omega)
    have hle : fuel ≤ n := Nat.le_of_succ_le_succ hfuel
    cases input with
    | nil => cases h
    | cons b rest =>
      rw [parseStrBytes] at h ⊢
      split_ifs at h ⊢ with hquote hescape hcontrol
      · exact h
      · simp only [Option.bind_eq_bind, Option.bind_eq_some_iff] at h ⊢
        obtain ⟨c, hc, r', hr', h⟩ := h
        exact ⟨c, hc, r', ih hle hr', h⟩
      · simp only [Option.bind_eq_bind, Option.bind_eq_some_iff] at h ⊢
        obtain ⟨r', hr', h⟩ := h
        exact ⟨r', ih hle hr', h⟩

/-- Bytes that stand for themselves. -/
theorem parseStrBytes_verbatim {w : List UInt8} (hw : ∀ b ∈ w, b ≠ 0x22 ∧ b ≠ 0x5c ∧ ¬ b < 0x20)
    {fuel : ℕ} {x bytes rest : List UInt8} (h : parseStrBytes fuel x = some (bytes, rest)) :
    parseStrBytes (fuel + w.length) (w ++ x) = some (w ++ bytes, rest) := by
  induction w with
  | nil => exact h
  | cons b w ih =>
    obtain ⟨hquote, hescape, hcontrol⟩ := hw b List.mem_cons_self
    have hrest := ih fun b' hb' => hw b' (List.mem_cons_of_mem b hb')
    rw [List.length_cons, ← Nat.add_assoc, List.cons_append, parseStrBytes, if_neg hquote,
      if_neg hescape, if_neg hcontrol, hrest]
    rfl

/-- The bytes of a character are its code in ASCII, and start at 128 otherwise. -/
theorem mem_utf8EncodeChar {c : Char} {b : UInt8} (h : b ∈ String.utf8EncodeChar c) :
    c.toNat < 128 ∧ b = UInt8.ofNat c.toNat ∨ 128 ≤ b.toNat := by
  have hc : c.val.toNat = c.toNat := rfl
  simp only [String.utf8EncodeChar, hc] at h
  split_ifs at h with h1 h2 h3
  · left
    exact ⟨by omega, List.mem_singleton.mp h⟩
  all_goals
    right
    simp only [List.mem_cons, List.not_mem_nil, or_false] at h
    rcases h with rfl | rfl | rfl | rfl
  all_goals
    rw [UInt8.toNat_ofNat']
    omega

theorem verbatim_of_not_mem {c : Char} (hc : c ∉ escapedChars) {b : UInt8}
    (hb : b ∈ String.utf8EncodeChar c) : b ≠ 0x22 ∧ b ≠ 0x5c ∧ ¬ b < 0x20 := by
  rw [mem_escapedChars, not_or, not_or] at hc
  obtain ⟨hquote, hescape, hcontrol⟩ := hc
  have hquote' : c.toNat ≠ 34 := fun h => hquote (Char.toNat_inj.mp h)
  have hescape' : c.toNat ≠ 92 := fun h => hescape (Char.toNat_inj.mp h)
  rw [← UInt8.toNat_inj.ne, ← UInt8.toNat_inj.ne, UInt8.lt_iff_toNat_lt]
  show b.toNat ≠ 34 ∧ b.toNat ≠ 92 ∧ ¬ b.toNat < 32
  rcases mem_utf8EncodeChar hb with ⟨hlow, rfl⟩ | hhigh
  · rw [UInt8.toNat_ofNat', Nat.mod_eq_of_lt (by omega)]
    omega
  · omega

/-- The escapes that the writer uses are undone. -/
theorem parseEscape_escapeChar {c : Char} (hc : c ∈ escapedChars) (x : List UInt8) :
    parseEscape ((escapeChar c).tail ++ x) = some (String.utf8EncodeChar c, x) := by
  simp only [escapedChars, List.mem_cons, List.mem_map, List.mem_range] at hc
  rcases hc with rfl | rfl | ⟨n, hn, rfl⟩
  · rfl
  · rfl
  · interval_cases n <;> rfl

theorem parseStrBytes_escapeChar (c : Char) {fuel : ℕ} {x bytes rest : List UInt8}
    (h : parseStrBytes fuel x = some (bytes, rest)) :
    parseStrBytes (fuel + (escapeChar c).length) (escapeChar c ++ x) =
      some (String.utf8EncodeChar c ++ bytes, rest) := by
  by_cases hc : c ∈ escapedChars
  · obtain ⟨t, ht⟩ := List.head?_eq_some_iff.mp (escapeChar_escaped hc).1
    have hescape := parseEscape_escapeChar hc x
    rw [ht, List.tail_cons] at hescape
    rw [ht, List.length_cons, ← Nat.add_assoc, List.cons_append, parseStrBytes,
      if_neg (by decide), if_pos rfl, hescape]
    have hmore := parseStrBytes_mono (Nat.le_add_right fuel t.length) h
    simp only [Option.bind_eq_bind, Option.bind_some, hmore]
    rfl
  · rw [escapeChar_plain hc]
    exact parseStrBytes_verbatim (fun b hb => verbatim_of_not_mem hc hb) h

/-- A string is read back, behind its opening quote. -/
theorem parseStr_jsonString (s : String) (x : List UInt8) :
    parseStr ((jsonString s).tail ++ x) = some (s, x) := by
  have key : ∀ l : List Char, parseStrBytes (1 + (l.flatMap escapeChar).length)
      (l.flatMap escapeChar ++ 0x22 :: x) = some (l.flatMap String.utf8EncodeChar, x) := by
    intro l
    induction l with
    | nil => rfl
    | cons c l ih =>
      rw [List.flatMap_cons, List.flatMap_cons, List.append_assoc, List.length_append,
        Nat.add_comm (escapeChar c).length, ← Nat.add_assoc]
      exact parseStrBytes_escapeChar c ih
  have htail : (jsonString s).tail ++ x = s.toList.flatMap escapeChar ++ 0x22 :: x := by
    rw [jsonString, List.cons_append, List.tail_cons, List.append_assoc, List.singleton_append]
  have hbytes := parseStrBytes_mono (n := ((jsonString s).tail ++ x).length) (by
    rw [htail, List.length_append, List.length_cons]
    omega) (key s.toList)
  rw [← htail] at hbytes
  have hs : fromUtf8 (s.toList.flatMap String.utf8EncodeChar) = some s := fromUtf8_utf8 s
  rw [parseStr, hbytes]
  simp only [Option.bind_eq_bind, Option.bind_some, hs]
  rfl

/-! ## Numbers -/

theorem utf8_repr (n : ℕ) :
    utf8 (Nat.repr n) = (Nat.toDigits 10 n).map fun c => UInt8.ofNat c.toNat := by
  have hascii : ∀ c ∈ Nat.toDigits 10 n, c.toNat ≤ 127 := by
    intro c hc
    have hdigit := Nat.isDigit_of_mem_toDigits (by norm_num) (by norm_num) hc
    simp only [Char.isDigit, Bool.and_eq_true, decide_eq_true_eq] at hdigit
    have hle : c.toNat ≤ 57 := UInt32.le_iff_toNat_le.mp hdigit.2
    omega
  rw [utf8, Nat.toList_repr]
  generalize Nat.toDigits 10 n = l at hascii
  induction l with
  | nil => rfl
  | cons c l ih =>
    have hc : c.val.toNat ≤ 127 := hascii c List.mem_cons_self
    rw [List.flatMap_cons, List.map_cons, ih fun c' hc' => hascii c' (List.mem_cons_of_mem c hc'),
      String.utf8EncodeChar]
    simp only [hc, ite_true]
    rfl

theorem decimal_utf8_repr (n : ℕ) : decimal (utf8 (Nat.repr n)) = some n := by
  have hbyte : ∀ c ∈ Nat.toDigits 10 n, 48 ≤ c.toNat ∧ c.toNat ≤ 57 := by
    intro c hc
    have hdigit := Nat.isDigit_of_mem_toDigits (by norm_num) (by norm_num) hc
    simp only [Char.isDigit, Bool.and_eq_true, decide_eq_true_eq] at hdigit
    exact ⟨UInt32.le_iff_toNat_le.mp hdigit.1, UInt32.le_iff_toNat_le.mp hdigit.2⟩
  have htoNat : ∀ c ∈ Nat.toDigits 10 n, (UInt8.ofNat c.toNat).toNat = c.toNat := by
    intro c hc
    have := hbyte c hc
    rw [UInt8.toNat_ofNat']
    omega
  have hne : (Nat.toDigits 10 n).map (fun c => UInt8.ofNat c.toNat) ≠ [] := by
    rw [Ne, List.map_eq_nil_iff]
    exact Nat.toDigits_ne_nil
  have hall : ((Nat.toDigits 10 n).map fun c => UInt8.ofNat c.toNat).all isDigitByte = true := by
    rw [List.all_map, List.all_eq_true]
    intro c hc
    have hb := hbyte c hc
    have ht := htoNat c hc
    rw [Function.comp_apply, isDigitByte, decide_eq_true_eq, UInt8.le_iff_toNat_le,
      UInt8.le_iff_toNat_le, ht]
    exact hb
  have hzero : ((Nat.toDigits 10 n).map fun c => UInt8.ofNat c.toNat).head? = some 0x30 →
      ((Nat.toDigits 10 n).map fun c => UInt8.ofNat c.toNat).length = 1 := by
    intro h
    rw [List.head?_map, Option.map_eq_some_iff] at h
    obtain ⟨c, hc, hcode⟩ := h
    have hcode' : c.toNat = 48 := by
      rw [← htoNat c (List.mem_of_mem_head? hc), hcode]
      rfl
    have hchar : c = '0' := Char.toNat_inj.mp hcode'
    rw [hchar] at hc
    rw [head_toDigits hc]
    rfl
  have hvalue : ((Nat.toDigits 10 n).map fun c => UInt8.ofNat c.toNat).foldl
      (fun n b => 10 * n + (b.toNat - 0x30)) 0 = n := by
    rw [List.foldl_map]
    calc (Nat.toDigits 10 n).foldl (fun n c => 10 * n + ((UInt8.ofNat c.toNat).toNat - 0x30)) 0
        = (Nat.toDigits 10 n).foldl (fun n c => 10 * n + (c.toNat - '0'.toNat)) 0 := by
          apply List.foldl_ext
          intro m c hc
          rw [htoNat c hc]
          rfl
      _ = Nat.ofDigitChars 10 (Nat.toDigits 10 n) 0 := (Nat.ofDigitChars_eq_foldl).symm
      _ = n := Nat.ofDigitChars_ten_toDigits
  rw [utf8_repr, decimal, if_pos ⟨hne, hall, hzero⟩, hvalue]

theorem decimal_eq_none {text : List UInt8} {b : UInt8} (hb : b ∈ text) (h : isDigitByte b = false) :
    decimal text = none := by
  rw [decimal, if_neg]
  rintro ⟨-, hall, -⟩
  rw [List.all_eq_true.mp hall b hb] at h
  cases h

theorem mem_utf8_of_mem {s : String} {c : Char} (hc : c ∈ s.toList) (hascii : c.toNat ≤ 127) :
    UInt8.ofNat c.toNat ∈ utf8 s := by
  refine List.mem_flatMap.mpr ⟨c, hc, ?_⟩
  have hval : c.val.toNat ≤ 127 := hascii
  rw [String.utf8EncodeChar]
  simp only [hval, ite_true]
  exact List.mem_singleton_self _

/-- A number is read back from its text; a float if `readFloat` does so. -/
theorem parseNumber_numberText {d : Deps} (hd : d.LawfulText)
    {readFloat : List UInt8 → Option FiniteFloat} {n : Number}
    (hfloat : ∀ x, n = .float x → readFloat (utf8 (d.floatText x)) = some x) :
    parseNumber readFloat (utf8 (numberText d n)) = some n := by
  cases n with
  | posInt n =>
    have hdecimal := decimal_utf8_repr n.toNat
    show parseNumber readFloat (utf8 (Nat.repr n.toNat)) = _
    cases htext : utf8 (Nat.repr n.toNat) with
    | nil =>
      rw [htext] at hdecimal
      cases hdecimal
    | cons b rest =>
      rw [htext] at hdecimal
      have hminus : b ≠ 0x2d := by
        rintro rfl
        rw [decimal_eq_none List.mem_cons_self (by decide)] at hdecimal
        cases hdecimal
      rw [parseNumber, if_neg hminus, hdecimal]
      dsimp only
      rw [if_pos n.toNat_lt, UInt64.ofNat_toNat]
  | negInt m =>
    have htext : utf8 (numberText d (.negInt m)) = 0x2d :: utf8 (Nat.repr (m.val + 1)) := by
      rw [numberText, utf8, String.toList_append]
      rfl
    have hm := m.isLt
    rw [htext, parseNumber, if_pos rfl, decimal_utf8_repr]
    dsimp only
    rw [dif_pos ⟨by omega, by omega⟩]
    rfl
  | float x =>
    show parseNumber readFloat (utf8 (d.floatText x)) = _
    have hread := hfloat x rfl
    have hmark : ∃ b ∈ utf8 (d.floatText x), b = 0x2e ∨ b = 0x65 := by
      rcases hd.floatText_mark x with h | h
      · exact ⟨_, mem_utf8_of_mem h (by decide), .inl rfl⟩
      · exact ⟨_, mem_utf8_of_mem h (by decide), .inr rfl⟩
    obtain ⟨b, hb, hcode⟩ := hmark
    have hdigit : isDigitByte b = false := by rcases hcode with rfl | rfl <;> decide
    have hminus : b ≠ 0x2d := by rcases hcode with rfl | rfl <;> decide
    have hwhole := decimal_eq_none hb hdigit
    cases htext : utf8 (d.floatText x) with
    | nil =>
      rw [htext] at hb
      cases hb
    | cons a rest =>
      rw [htext] at hread hwhole hb
      rw [parseNumber]
      split_ifs with ha
      · have hrest : b ∈ rest := by
          rcases List.mem_cons.mp hb with rfl | hb
          · exact absurd ha hminus
          · exact hb
        rw [decimal_eq_none hrest hdigit]
        dsimp only
        rw [hread]
        rfl
      · rw [hwhole]
        dsimp only
        rw [hread]
        rfl

/-! ## Values -/

mutual

/-- The number of containers that nest in a value. -/
def Value.nesting : Value → ℕ
  | .array items => Value.nestingItems items + 1
  | .object members => Value.nestingMembers members + 1
  | _ => 0

/-- The deepest of the items. -/
def Value.nestingItems : List Value → ℕ
  | [] => 0
  | v :: vs => max v.nesting (Value.nestingItems vs)

/-- The deepest of the members. -/
def Value.nestingMembers : List (String × Value) → ℕ
  | [] => 0
  | m :: ms => max (Value.nestingMember m) (Value.nestingMembers ms)

/-- The nesting of the value of a member. -/
def Value.nestingMember : String × Value → ℕ
  | (_, v) => v.nesting

end

theorem Value.nesting_array_le {items : List Value} {n : ℕ} :
    (Value.array items).nesting ≤ n + 1 ↔ ∀ v ∈ items, v.nesting ≤ n := by
  have key : ∀ l : List Value, Value.nestingItems l ≤ n ↔ ∀ v ∈ l, v.nesting ≤ n := by
    intro l
    induction l with
    | nil => simp [Value.nestingItems]
    | cons v l ih => simp [Value.nestingItems, ih]
  rw [Value.nesting, Nat.add_le_add_iff_right, key]

theorem Value.nesting_object_le {members : List (String × Value)} {n : ℕ} :
    (Value.object members).nesting ≤ n + 1 ↔ ∀ m ∈ members, m.2.nesting ≤ n := by
  have key : ∀ l : List (String × Value),
      Value.nestingMembers l ≤ n ↔ ∀ m ∈ l, m.2.nesting ≤ n := by
    intro l
    induction l with
    | nil => simp [Value.nestingMembers]
    | cons m l ih =>
      obtain ⟨k, v⟩ := m
      simp [Value.nestingMembers, Value.nestingMember, ih]
  rw [Value.nesting, Nat.add_le_add_iff_right, key]

/-- A float is read from its text. -/
def Value.LocallyExact (d : Deps) (readFloat : List UInt8 → Option FiniteFloat) : Value → Prop
  | .number n => ∀ x, n = .float x → readFloat (utf8 (d.floatText x)) = some x
  | _ => True

/-- Every float of the value is read from its text. -/
def Value.Exact (d : Deps) (readFloat : List UInt8 → Option FiniteFloat) (v : Value) : Prop :=
  v.All (fun _ => Value.LocallyExact d readFloat) 0

theorem skipWhitespace_cons {b : UInt8} (h : isJsonWhitespace b = false) (x : List UInt8) :
    skipWhitespace (b :: x) = b :: x := by
  rw [skipWhitespace, List.dropWhile_cons_of_neg]
  rw [h]
  exact Bool.false_ne_true

theorem skipWhitespace_delimiter (b : UInt8) (x : List UInt8) (h : Delimiter b) :
    skipWhitespace (b :: x) = b :: x := by
  apply skipWhitespace_cons
  rcases h with rfl | rfl | rfl <;> decide

theorem isNumberByte_of_char {c : Char} (h : NumberChar c) :
    isNumberByte (UInt8.ofNat c.toNat) = true := by
  have key : ∀ n < 58, 45 ≤ n → n ≠ 47 → isNumberByte (UInt8.ofNat n) = true := by decide
  rcases h with h | h
  · simp only [Char.isDigit, Bool.and_eq_true, decide_eq_true_eq] at h
    have h0 : 48 ≤ c.toNat := UInt32.le_iff_toNat_le.mp h.1
    have h9 : c.toNat ≤ 57 := UInt32.le_iff_toNat_le.mp h.2
    exact key _ (by omega) (by omega) (by omega)
  · simp only [List.mem_cons, List.not_mem_nil, or_false] at h
    rcases h with rfl | rfl | rfl <;> decide

/-- The bytes of a number start no other token. -/
theorem isNumberByte_visible {b : UInt8} (h : isNumberByte b = true) : isJsonWhitespace b = false ∧
    b ≠ 0x6e ∧ b ≠ 0x74 ∧ b ≠ 0x66 ∧ b ≠ 0x22 ∧ b ≠ 0x5b ∧ b ≠ 0x7b ∧ ¬ Delimiter b := by
  have key : ∀ n < 256, isNumberByte (UInt8.ofNat n) = true → isJsonWhitespace (UInt8.ofNat n) = false ∧
      UInt8.ofNat n ≠ 0x6e ∧ UInt8.ofNat n ≠ 0x74 ∧ UInt8.ofNat n ≠ 0x66 ∧ UInt8.ofNat n ≠ 0x22 ∧
      UInt8.ofNat n ≠ 0x5b ∧ UInt8.ofNat n ≠ 0x7b ∧
      ¬ (UInt8.ofNat n = 0x2c ∨ UInt8.ofNat n = 0x5d ∨ UInt8.ofNat n = 0x7d) := by
    decide +kernel
  have hb := key b.toNat b.toNat_lt
  rw [UInt8.ofNat_toNat] at hb
  exact hb h

/-- The text of a number is a run of number bytes that is not empty. -/
theorem numberText_bytes {d : Deps} (hd : d.LawfulText) (n : Number) :
    ∃ b t, utf8 (numberText d n) = b :: t ∧ ∀ b' ∈ b :: t, isNumberByte b' = true := by
  obtain ⟨b, t, hb, -⟩ := plainBytes_head hd (.number n)
  rw [plainBytes] at hb
  refine ⟨b, t, hb, ?_⟩
  intro b' hb'
  rw [← hb] at hb'
  obtain ⟨c, hc, rfl⟩ := mem_utf8_numberText hd hb'
  exact isNumberByte_of_char hc

/-- The first byte of a value is no whitespace and no delimiter. -/
theorem plainBytes_visible {d : Deps} (hd : d.LawfulText) (v : Value) :
    ∃ b t, plainBytes d v = b :: t ∧ isJsonWhitespace b = false ∧ ¬ Delimiter b := by
  unfold Delimiter
  cases v with
  | null => exact ⟨0x6e, _, rfl, by decide, by decide⟩
  | bool b =>
    cases b
    · exact ⟨0x66, _, rfl, by decide, by decide⟩
    · exact ⟨0x74, _, rfl, by decide, by decide⟩
  | number n =>
    obtain ⟨b, t, hb, hall⟩ := numberText_bytes hd n
    have hvisible := isNumberByte_visible (hall b List.mem_cons_self)
    exact ⟨b, t, hb, hvisible.1, hvisible.2.2.2.2.2.2.2⟩
  | string s => exact ⟨0x22, _, rfl, by decide, by decide⟩
  | array items => exact ⟨0x5b, _, rfl, by decide, by decide⟩
  | object members => exact ⟨0x7b, _, rfl, by decide, by decide⟩

theorem takeWhile_append_ends {S : UInt8 → Prop} {q : UInt8 → Bool} {w x : List UInt8}
    (hw : ∀ b ∈ w, q b = true) (hS : ∀ b, S b → q b = false) (hx : Ends S x) :
    (w ++ x).takeWhile q = w ∧ (w ++ x).dropWhile q = x := by
  have hend : x.takeWhile q = [] ∧ x.dropWhile q = x := by
    cases x with
    | nil => exact ⟨rfl, rfl⟩
    | cons b x =>
      have hb : ¬ q b = true := by
        rw [hS b (hx b rfl)]
        exact Bool.false_ne_true
      exact ⟨List.takeWhile_cons_of_neg hb, List.dropWhile_cons_of_neg hb⟩
  rw [List.takeWhile_append_of_pos hw, List.dropWhile_append_of_pos hw, hend.1, hend.2,
    List.append_nil]
  exact ⟨rfl, rfl⟩

theorem parseValue_number {d : Deps} (hd : d.LawfulText)
    {readFloat : List UInt8 → Option FiniteFloat} {n : Number}
    (hfloat : ∀ x, n = .float x → readFloat (utf8 (d.floatText x)) = some x) (depth : ℕ) :
    ReadsWord Delimiter (parseValue readFloat depth) (utf8 (numberText d n)) (.number n) := by
  intro x hx
  have hnumber := parseNumber_numberText hd hfloat
  obtain ⟨b, t, hb, hall⟩ := numberText_bytes hd n
  obtain ⟨hspace, hn, ht, hf, hquote, harray, hobject, -⟩ :=
    isNumberByte_visible (hall b List.mem_cons_self)
  have hdelimiter : ∀ b, Delimiter b → isNumberByte b = false := by
    intro b hb
    rcases hb with rfl | rfl | rfl <;> decide
  obtain ⟨htake, hdrop⟩ := takeWhile_append_ends hall hdelimiter hx
  rw [hb] at hnumber ⊢
  rw [List.cons_append] at htake hdrop ⊢
  rw [parseValue, skipWhitespace_cons hspace]
  dsimp only
  rw [if_neg hn, if_neg ht, if_neg hf, if_neg hquote, if_neg harray, if_neg hobject, htake, hdrop,
    hnumber]
  rfl

theorem parseValue_string (readFloat : List UInt8 → Option FiniteFloat) (s : String) (depth : ℕ) :
    ReadsWord Delimiter (parseValue readFloat depth) (jsonString s) (.string s) := by
  intro x _
  have hstring := parseStr_jsonString s x
  have hcons : jsonString s ++ x = 0x22 :: ((jsonString s).tail ++ x) := rfl
  rw [hcons, parseValue, skipWhitespace_cons (by decide)]
  dsimp only
  rw [if_neg (by decide), if_neg (by decide), if_neg (by decide), if_pos rfl, hstring]
  rfl

theorem parseIdent_append (name : String) (v : Value) (x : List UInt8) :
    parseIdent name v (utf8 name ++ x) = some (v, x) := by
  rw [parseIdent, if_pos (List.prefix_append _ _), List.drop_left]

/-- Keys that come in ascending order stay in that order. -/
theorem foldl_insertMember {members : List (String × Value)}
    (h : members.Pairwise fun a b => a.1 < b.1) : members.foldl insertMember [] = members := by
  have hlast : ∀ (l : List (String × Value)) (m : String × Value), (∀ x ∈ l, x.1 < m.1) →
      insertMember l m = l ++ [m] := by
    intro l m hl
    induction l with
    | nil => rfl
    | cons x l ih =>
      rw [insertMember, if_pos (hl x List.mem_cons_self),
        ih fun y hy => hl y (List.mem_cons_of_mem x hy)]
      rfl
  have key : ∀ l k : List (String × Value), (k ++ l).Pairwise (fun a b => a.1 < b.1) →
      l.foldl insertMember k = k ++ l := by
    intro l
    induction l with
    | nil =>
      intro k _
      rw [List.foldl_nil, List.append_nil]
    | cons m l ih =>
      intro k hk
      have hbelow : ∀ x ∈ k, x.1 < m.1 := by
        intro x hx
        exact (List.pairwise_append.mp hk).2.2 x hx m List.mem_cons_self
      rw [List.foldl_cons, hlast k m hbelow, ih, List.append_assoc]
      · rfl
      · rw [List.append_assoc]
        exact hk
  exact key members [] h

/-- Behind key and colon comes the value. -/
theorem parseMember_behind_key (d : Deps) (value : Reader UInt8 Value) (m : String × Value)
    (x : List UInt8) : parseMember value (jsonString m.1 ++ 0x3a :: plainBytes d m.2 ++ x) =
      (value (plainBytes d m.2 ++ x)).map fun r => ((m.1, r.1), r.2) := by
  have hkey := parseStr_jsonString m.1 (0x3a :: plainBytes d m.2 ++ x)
  have hcons : jsonString m.1 ++ 0x3a :: plainBytes d m.2 ++ x =
      0x22 :: ((jsonString m.1).tail ++ (0x3a :: plainBytes d m.2 ++ x)) := by
    rw [List.append_assoc]
    rfl
  rw [hcons, parseMember, skipWhitespace_cons (by decide)]
  dsimp only
  rw [if_neg (by decide), hkey]
  simp only [Option.bind_eq_bind, Option.bind_some, List.cons_append,
    skipWhitespace_cons (show isJsonWhitespace 0x3a = false by decide)]
  rw [if_neg (by decide)]
  cases value (plainBytes d m.2 ++ x) with
  | none => rfl
  | some r => rfl

/-- A member is read back if its value is. -/
theorem parseMember_plainMember {d : Deps} {value : Reader UInt8 Value} {m : String × Value}
    (hv : ReadsWord Delimiter value (plainBytes d m.2) m.2) :
    ReadsWord Delimiter (parseMember value) (jsonString m.1 ++ 0x3a :: plainBytes d m.2) m := by
  intro x hx
  rw [parseMember_behind_key, hv x hx]
  rfl

/-- A member is refused if its value is. -/
theorem parseMember_refused {d : Deps} {value : Reader UInt8 Value} {m : String × Value}
    (hv : RefusesWord Delimiter value (plainBytes d m.2)) :
    RefusesWord Delimiter (parseMember value) (jsonString m.1 ++ 0x3a :: plainBytes d m.2) := by
  intro x hx
  rw [parseMember_behind_key, hv x hx]
  rfl

/-- An array is read as its items are. -/
theorem parseValue_array (readFloat : List UInt8 → Option FiniteFloat) (depth : ℕ)
    (input : List UInt8) : parseValue readFloat (depth + 1) (0x5b :: input) =
      (readSeparated skipWhitespace (parseValue readFloat depth) 0x2c 0x5d input).map
        fun r => (.array r.1, r.2) := by
  rw [parseValue, skipWhitespace_cons (by decide)]
  rfl

/-- An object is read as its members are. -/
theorem parseValue_object (readFloat : List UInt8 → Option FiniteFloat) (depth : ℕ)
    (input : List UInt8) : parseValue readFloat (depth + 1) (0x7b :: input) =
      (readSeparated skipWhitespace (parseMember (parseValue readFloat depth)) 0x2c 0x7d input).map
        fun r => (.object (r.1.foldl insertMember []), r.2) := by
  rw [parseValue, skipWhitespace_cons (by decide)]
  rfl

/-- The text of a value with sorted keys is read back if the depth suffices, and refused otherwise.
    The induction is over the value; every container takes one from the depth. -/
theorem parseValue_plainBytes {d : Deps} (hd : d.LawfulText)
    {readFloat : List UInt8 → Option FiniteFloat} {v : Value} (hexact : v.Exact d readFloat)
    (hsorted : v.KeysSorted) (depth : ℕ) :
    (v.nesting ≤ depth → ReadsWord Delimiter (parseValue readFloat depth) (plainBytes d v) v) ∧
    (depth < v.nesting → RefusesWord Delimiter (parseValue readFloat depth) (plainBytes d v)) := by
  unfold Value.KeysSorted at hsorted
  unfold Value.Exact at hexact
  induction v using Value.induction generalizing depth with
  | null =>
    refine ⟨fun _ x _ => ?_, fun h => absurd h (Nat.not_lt_zero depth)⟩
    show parseValue readFloat _ (0x6e :: (utf8 "ull" ++ x)) = _
    rw [parseValue, skipWhitespace_cons (by decide)]
    exact parseIdent_append "ull" .null x
  | bool b =>
    refine ⟨fun _ x _ => ?_, fun h => absurd h (Nat.not_lt_zero depth)⟩
    cases b with
    | false =>
      show parseValue readFloat _ (0x66 :: (utf8 "alse" ++ x)) = _
      rw [parseValue, skipWhitespace_cons (by decide)]
      exact parseIdent_append "alse" (.bool false) x
    | true =>
      show parseValue readFloat _ (0x74 :: (utf8 "rue" ++ x)) = _
      rw [parseValue, skipWhitespace_cons (by decide)]
      exact parseIdent_append "rue" (.bool true) x
  | number n =>
    exact ⟨fun _ => parseValue_number hd hexact depth, fun h => absurd h (Nat.not_lt_zero depth)⟩
  | string s =>
    exact ⟨fun _ => parseValue_string readFloat s depth, fun h => absurd h (Nat.not_lt_zero depth)⟩
  | array items ih =>
    obtain ⟨-, hexact⟩ := Value.all_array_zero.mp hexact
    obtain ⟨-, hsorted⟩ := Value.all_array_zero.mp hsorted
    have hcons : ∀ x, plainBytes d (.array items) ++ x =
        0x5b :: (List.intercalate [0x2c] (items.map (plainBytes d)) ++ 0x5d :: x) := by
      intro x
      rw [plainBytes, plainItems_eq_map, List.cons_append, List.append_assoc, List.singleton_append]
    have hword : ∀ v ∈ items, ∃ c t, plainBytes d v = c :: t ∧ c ≠ 0x5d ∧
        ∀ x, skipWhitespace (c :: x) = c :: x := by
      intro v _
      obtain ⟨b, t, hb, hspace, hdelimiter⟩ := plainBytes_visible hd v
      exact ⟨b, t, hb, fun h => hdelimiter (.inr (.inl h)), skipWhitespace_cons hspace⟩
    cases depth with
    | zero =>
      refine ⟨fun h => absurd h (by simp [Value.nesting]), fun _ x _ => ?_⟩
      rw [hcons, parseValue, skipWhitespace_cons (by decide)]
      rfl
    | succ depth =>
      have hitem := fun v hv => ih v hv (hexact v hv) (hsorted v hv) depth
      constructor
      · intro hle x _
        rw [Value.nesting_array_le] at hle
        rw [hcons, parseValue_array, readSeparated_words (plainBytes d) (S := Delimiter) (.inl rfl)
          (.inr (.inl rfl)) skipWhitespace_delimiter (by decide) hword
          fun v hv => (hitem v hv).1 (hle v hv)]
        rfl
      · intro hlt x _
        rw [← not_le, Value.nesting_array_le] at hlt
        push Not at hlt
        obtain ⟨v, hv, hdeep⟩ := hlt
        rw [hcons, parseValue_array, readSeparated_refused (plainBytes d) (S := Delimiter) (.inl rfl)
          (.inr (.inl rfl)) skipWhitespace_delimiter (by decide) hword
          (fun v hv => (le_or_gt v.nesting depth).imp (hitem v hv).1 (hitem v hv).2)
          ⟨v, hv, (hitem v hv).2 hdeep⟩]
        rfl
  | object members ih =>
    obtain ⟨-, hexact⟩ := Value.all_object_zero.mp hexact
    obtain ⟨hkeys, hsorted⟩ := Value.all_object_zero.mp hsorted
    let word : String × Value → List UInt8 := fun m => jsonString m.1 ++ 0x3a :: plainBytes d m.2
    have hcons : ∀ x, plainBytes d (.object members) ++ x =
        0x7b :: (List.intercalate [0x2c] (members.map word) ++ 0x7d :: x) := by
      intro x
      rw [plainBytes, plainMembers_eq_map, List.cons_append, List.append_assoc, List.singleton_append]
    have hword : ∀ m ∈ members, ∃ c t, word m = c :: t ∧ c ≠ 0x7d ∧
        ∀ x, skipWhitespace (c :: x) = c :: x := by
      intro m _
      exact ⟨0x22, _, rfl, by decide, skipWhitespace_cons (by decide)⟩
    cases depth with
    | zero =>
      refine ⟨fun h => absurd h (by simp [Value.nesting]), fun _ x _ => ?_⟩
      rw [hcons, parseValue, skipWhitespace_cons (by decide)]
      rfl
    | succ depth =>
      have hmember := fun m hm => ih m hm (hexact m hm) (hsorted m hm) depth
      constructor
      · intro hle x _
        rw [Value.nesting_object_le] at hle
        rw [hcons, parseValue_object, readSeparated_words word (S := Delimiter) (.inl rfl)
          (.inr (.inr rfl)) skipWhitespace_delimiter (by decide) hword
          fun m hm => parseMember_plainMember ((hmember m hm).1 (hle m hm))]
        dsimp only [Option.map_some]
        rw [foldl_insertMember hkeys]
      · intro hlt x _
        rw [← not_le, Value.nesting_object_le] at hlt
        push Not at hlt
        obtain ⟨m, hm, hdeep⟩ := hlt
        rw [hcons, parseValue_object, readSeparated_refused word (S := Delimiter) (.inl rfl)
          (.inr (.inr rfl)) skipWhitespace_delimiter (by decide) hword
          (fun m hm => (le_or_gt m.2.nesting depth).imp
            (fun h => parseMember_plainMember ((hmember m hm).1 h))
            (fun h => parseMember_refused ((hmember m hm).2 h)))
          ⟨m, hm, parseMember_refused ((hmember m hm).2 hdeep)⟩]
        rfl

/-! ## Canonical bytes -/

theorem Value.nesting_sortKeys (v : Value) : (sortKeys v).nesting = v.nesting := by
  have key : ∀ n, (sortKeys v).nesting ≤ n ↔ v.nesting ≤ n := by
    induction v using Value.induction with
    | null | bool b | number n | string s => exact fun n => Iff.rfl
    | array items ih =>
      intro n
      rw [sortKeys, sortKeysItems_eq_map]
      cases n with
      | zero => simp [Value.nesting]
      | succ n =>
        rw [Value.nesting_array_le, Value.nesting_array_le, List.forall_mem_map]
        exact forall₂_congr fun v hv => ih v hv n
    | object members ih =>
      intro n
      rw [sortKeys]
      cases n with
      | zero => simp [Value.nesting]
      | succ n =>
        have hperm : ∀ m, m ∈ sortByKey (sortKeysMembers members) ↔
            m ∈ members.map fun m => (m.1, sortKeys m.2) := fun m =>
          (sortKeys_object_perm members).mem_iff
        rw [Value.nesting_object_le, Value.nesting_object_le]
        simp only [hperm]
        rw [List.forall_mem_map]
        exact forall₂_congr fun m hm => ih m hm n
  exact le_antisymm ((key _).mpr le_rfl) ((key _).mp le_rfl)

theorem Value.exact_sortKeys {d : Deps} {readFloat : List UInt8 → Option FiniteFloat} {v : Value}
    (h : v.Exact d readFloat) : (sortKeys v).Exact d readFloat := by
  refine Value.all_sortKeys ?_ h
  intro _ u hu
  cases u with
  | null | bool b | number n | string s => exact hu
  | array items | object members => exact trivial

/-- Canonical bytes are read back, with the members of objects in the order of their keys, unless the
    containers nest beyond the recursion limit. -/
theorem fromSlice_canonicalJsonBytes {d : Deps} (hd : d.LawfulText)
    {readFloat : List UInt8 → Option FiniteFloat} {v : Value} (hdistinct : v.DistinctKeys)
    (hexact : v.Exact d readFloat) :
    fromSlice readFloat (canonicalJsonBytes d v) =
      if v.nesting ≤ 127 then some (sortKeys v) else none := by
  have hparse := parseValue_plainBytes hd (Value.exact_sortKeys hexact) (keysSorted_sortKeys hdistinct)
    127
  rw [Value.nesting_sortKeys] at hparse
  rw [canonicalJsonBytes_eq_plain, fromSlice]
  split_ifs with hnesting
  · have hread := hparse.1 hnesting [] (ends_nil Delimiter)
    rw [List.append_nil] at hread
    rw [hread]
    rfl
  · have hrefused := hparse.2 (Nat.lt_of_not_le hnesting) [] (ends_nil Delimiter)
    rw [List.append_nil] at hrefused
    rw [hrefused]
    rfl

/-- Canonical bytes are a normal form: they agree exactly for values that are equal up to the order of
    object members, the parser returns such a value from them if at most 127 containers nest, this
    value has the same canonical bytes, and the streamed digest is the digest of these bytes. -/
theorem canonicalJson_normal_form {d : Deps} (hd : d.LawfulText) {u v : Value}
    (hu : u.DistinctKeys) (hv : v.DistinctKeys) :
    (canonicalJsonBytes d u = canonicalJsonBytes d v ↔ u.EqUpToOrder v) ∧
    (∀ readFloat, v.Exact d readFloat → v.nesting ≤ 127 →
      ∃ w, fromSlice readFloat (canonicalJsonBytes d v) = some w ∧ w.EqUpToOrder v ∧
        canonicalJsonBytes d w = canonicalJsonBytes d v) ∧
    canonicalJsonDigest d v = d.sha256 (canonicalJsonBytes d v) := by
  have hbytes : ∀ u v : Value, u.DistinctKeys → v.DistinctKeys →
      (canonicalJsonBytes d u = canonicalJsonBytes d v ↔ u.EqUpToOrder v) := by
    intro u v hu hv
    rw [← sortKeys_eq_iff hu hv]
    constructor
    · exact canonicalJsonBytes_inj hd
    · intro h
      rw [canonicalJsonBytes_eq_plain, canonicalJsonBytes_eq_plain, h]
  refine ⟨hbytes u v hu hv, ?_, canonicalJsonDigest_eq d v⟩
  intro readFloat hexact hnesting
  have hw := distinctKeys_sortKeys hv
  have heq : (sortKeys v).EqUpToOrder v := (sortKeys_eq_iff hw hv).mp (sortKeys_sortKeys hv)
  refine ⟨sortKeys v, ?_, heq, (hbytes (sortKeys v) v hw hv).mpr heq⟩
  rw [fromSlice_canonicalJsonBytes hd hv hexact, if_pos hnesting]

/-- An object in two orders. -/
theorem canonicalJson_normal_form_sample :
    canonicalJsonBytes referenceDeps
        (.object [("b", .array [.number (.posInt 7), .null]), ("a", .string "x")]) =
      canonicalJsonBytes referenceDeps
        (.object [("a", .string "x"), ("b", .array [.number (.posInt 7), .null])]) ∧
    ∃ w, fromSlice (fun _ => none) (canonicalJsonBytes referenceDeps
        (.object [("a", .string "x"), ("b", .array [.number (.posInt 7), .null])])) = some w ∧
      w.EqUpToOrder (.object [("a", .string "x"), ("b", .array [.number (.posInt 7), .null])]) := by
  have h := canonicalJson_normal_form referenceDeps_lawful
    (u := .object [("b", .array [.number (.posInt 7), .null]), ("a", .string "x")])
    (v := .object [("a", .string "x"), ("b", .array [.number (.posInt 7), .null])])
    (by simp [Value.DistinctKeys, Value.All, Value.AllMembers, Value.AllMember, Value.AllItems,
      Value.LocallyDistinct])
    (by simp [Value.DistinctKeys, Value.All, Value.AllMembers, Value.AllMember, Value.AllItems,
      Value.LocallyDistinct])
  obtain ⟨hbytes, hparse, -⟩ := h
  obtain ⟨w, hw, heq, -⟩ := hparse (fun _ => none)
    (by simp [Value.Exact, Value.All, Value.AllMembers, Value.AllMember, Value.AllItems,
      Value.LocallyExact])
    (by decide)
  refine ⟨hbytes.mpr ?_, w, hw, heq⟩
  rw [Value.EqUpToOrder]
  refine ⟨_, List.Perm.swap _ _ _, ?_⟩
  simp [Value.EqMembers, Value.EqMember, Value.EqUpToOrder, Value.EqItems]

/-! ## The recursion limit -/

/-- Arrays around an empty array. -/
def nestedArrays : ℕ → Value
  | 0 => .array []
  | n + 1 => .array [nestedArrays n]

theorem nesting_nestedArrays (n : ℕ) : (nestedArrays n).nesting = n + 1 := by
  induction n with
  | zero => rfl
  | succ n ih => simp [nestedArrays, Value.nesting, Value.nestingItems, ih]

/-- What holds of all arrays holds all the way down. -/
theorem all_nestedArrays {P : Value → Prop} (h : ∀ items, P (.array items)) (n : ℕ) :
    (nestedArrays n).All (fun _ => P) 0 := by
  induction n with
  | zero => exact Value.all_array_zero.mpr ⟨h [], by simp⟩
  | succ n ih =>
    refine Value.all_array_zero.mpr ⟨h _, ?_⟩
    intro v hv
    rw [List.mem_singleton.mp hv]
    exact ih

/-- 128 arrays are written and refused. -/
theorem canonicalJson_beyond_recursion_limit : (nestedArrays 127).DistinctKeys ∧
    ∀ readFloat, fromSlice readFloat (canonicalJsonBytes referenceDeps (nestedArrays 127)) =
      none := by
  have hdistinct : (nestedArrays 127).DistinctKeys := all_nestedArrays (fun _ => trivial) 127
  refine ⟨hdistinct, fun readFloat => ?_⟩
  rw [fromSlice_canonicalJsonBytes referenceDeps_lawful hdistinct
    (all_nestedArrays (fun _ => trivial) 127), nesting_nestedArrays, if_neg (by decide)]

end BaselineOps.Domain
