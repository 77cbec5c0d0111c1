import Mathlib
import BaselineOps.Lib.PrefixCode
import BaselineOps.Domain.Json

/-!
# The canonical text determines the value

`sortKeys` sorts the members of every object. Main results:

* `canonicalJsonBytes_eq_plain`: the canonical bytes are the compact text of the value with sorted keys.
* `canonicalJsonBytes_inj`: for lawful number texts, equal canonical bytes mean equal values up to
  the order of object members.
* `canonicalJsonDigest_eq`: the streamed digest is SHA-256 of the canonical bytes.
-/

namespace BaselineOps.Domain

open BaselineOps.Lib

/-- What the development assumes of the texts that `chrono` and `ryu` produce: a time and a
    finite float can be read back from their text, and a float is spelled with the characters
    of a JSON number and never like an integer. -/
structure Deps.LawfulText (d : Deps) : Prop where
  rfc3339_inj : Function.Injective d.rfc3339
  floatText_inj : Function.Injective d.floatText
  floatText_chars : ∀ x, ∀ c ∈ (d.floatText x).toList, c.isDigit ∨ c ∈ ['-', '.', 'e']
  floatText_mark : ∀ x, '.' ∈ (d.floatText x).toList ∨ 'e' ∈ (d.floatText x).toList

/-! ## Strings -/

theorem utf8EncodeChar_prefixCode : PrefixCode String.utf8EncodeChar := by
  intro a b x y h
  have hbytes := congrArg List.toByteArray h
  rw [List.toByteArray_append, List.toByteArray_append] at hbytes
  have hdec := congrArg (fun bytes => bytes.utf8DecodeChar? 0) hbytes
  simp only [ByteArray.utf8DecodeChar?_utf8EncodeChar_append, Option.some.injEq] at hdec
  subst hdec
  exact ⟨rfl, List.append_cancel_left h⟩

theorem utf8_injective : Function.Injective utf8 := by
  intro s t h
  have key : ∀ l₁ l₂ : List Char, l₁.flatMap String.utf8EncodeChar =
      l₂.flatMap String.utf8EncodeChar → l₁ = l₂ := by
    intro l₁
    induction l₁ with
    | nil =>
      intro l₂ h
      cases l₂ with
      | nil => rfl
      | cons c l₂ => simp [String.utf8EncodeChar_ne_nil] at h
    | cons c l₁ ih =>
      intro l₂ h
      cases l₂ with
      | nil => simp [String.utf8EncodeChar_ne_nil] at h
      | cons c' l₂ =>
        simp only [List.flatMap_cons] at h
        obtain ⟨rfl, hrest⟩ := utf8EncodeChar_prefixCode _ _ _ _ h
        rw [ih l₂ hrest]
  exact String.toList_injective (key _ _ h)

/-- The first byte of an ASCII character is the character, the others start at 128. -/
theorem utf8EncodeChar_head (c : Char) : ∃ b t, String.utf8EncodeChar c = b :: t ∧
    (c.toNat < 128 → b = UInt8.ofNat c.toNat) ∧ (128 ≤ c.toNat → 128 ≤ b.toNat) := by
  have hc : c.val.toNat = c.toNat := rfl
  simp only [String.utf8EncodeChar, hc]
  split_ifs with h1 h2 h3
  · exact ⟨_, _, rfl, fun _ => rfl, fun h => by omega⟩
  · refine ⟨_, _, rfl, fun h => by omega, fun _ => ?_⟩
    rw [UInt8.toNat_ofNat']; omega
  · refine ⟨_, _, rfl, fun h => by omega, fun _ => ?_⟩
    rw [UInt8.toNat_ofNat']; omega
  · refine ⟨_, _, rfl, fun h => by omega, fun _ => ?_⟩
    rw [UInt8.toNat_ofNat']; omega

/-- The characters that a JSON string cannot hold verbatim. -/
def escapedChars : List Char := '"' :: '\\' :: (List.range 32).map Char.ofNat

theorem mem_escapedChars (c : Char) :
    c ∈ escapedChars ↔ c = '"' ∨ c = '\\' ∨ c.toNat < 32 := by
  simp only [escapedChars, List.mem_cons, List.mem_map, List.mem_range]
  constructor
  · rintro (h | h | ⟨n, hn, rfl⟩)
    · exact .inl h
    · exact .inr (.inl h)
    · right; right
      rw [Char.toNat_ofNat]; split_ifs <;> omega
  · rintro (h | h | h)
    · exact .inl h
    · exact .inr (.inl h)
    · exact .inr (.inr ⟨c.toNat, h, Char.ofNat_toNat c⟩)

theorem escapeChar_plain {c : Char} (h : c ∉ escapedChars) :
    escapeChar c = String.utf8EncodeChar c := by
  rw [mem_escapedChars, not_or, not_or] at h
  obtain ⟨h1, h2, h3⟩ := h
  unfold escapeChar
  rw [if_neg h1, if_neg h2, if_neg (by omega), if_neg (by omega), if_neg (by omega),
    if_neg (by omega), if_neg (by omega), if_neg h3]

/-- The 34 escapes start with a backslash; the byte after it tells the hexadecimal ones, of six
    bytes, from the short ones. -/
theorem escapeChar_escaped {a : Char} (ha : a ∈ escapedChars) :
    (escapeChar a).head? = some 0x5c ∧
      (escapeChar a).length = if (escapeChar a)[1]? == some 0x75 then 6 else 2 := by
  have key : (escapedChars.all fun c => (escapeChar c).head? == some 0x5c &&
      (escapeChar c).length == if (escapeChar c)[1]? == some 0x75 then 6 else 2) = true := by
    decide +kernel
  have h := List.all_eq_true.mp key a ha
  simpa only [Bool.and_eq_true, beq_iff_eq] using h

theorem escapedChars_map_nodup : (escapedChars.map escapeChar).Nodup := by decide +kernel

theorem escapeChar_head (c : Char) : ∃ b t, escapeChar c = b :: t ∧ b ≠ 0x22 ∧
    (b = 0x5c ↔ c ∈ escapedChars) := by
  by_cases hc : c ∈ escapedChars
  · have h := (escapeChar_escaped hc).1
    obtain ⟨t, ht⟩ := List.head?_eq_some_iff.mp h
    exact ⟨0x5c, t, ht, by decide, by simp [hc]⟩
  · rw [escapeChar_plain hc]
    obtain ⟨b, t, hb, hlow, hhigh⟩ := utf8EncodeChar_head c
    rw [mem_escapedChars, not_or, not_or] at hc
    refine ⟨b, t, hb, ?_, ?_⟩
    · rintro rfl
      by_cases h : c.toNat < 128
      · refine hc.1 (Char.toNat_inj.mp ?_)
        have := congrArg UInt8.toNat (hlow h)
        rw [UInt8.toNat_ofNat'] at this
        change 34 = c.toNat % 256 at this
        change c.toNat = 34
        omega
      · have := hhigh (by omega)
        simp at this
    · refine ⟨?_, fun h => ?_⟩
      · rintro rfl
        by_cases h : c.toNat < 128
        · refine absurd (Char.toNat_inj.mp ?_) hc.2.1
          have := congrArg UInt8.toNat (hlow h)
          rw [UInt8.toNat_ofNat'] at this
          change 92 = c.toNat % 256 at this
          change c.toNat = 92
          omega
        · have := hhigh (by omega)
          simp at this
      · rw [mem_escapedChars] at h
        tauto

theorem escapeChar_prefixCode : PrefixCode escapeChar := by
  intro a b x y h
  obtain ⟨ba, ta, ha, -, ha'⟩ := escapeChar_head a
  obtain ⟨bb, tb, hb, -, hb'⟩ := escapeChar_head b
  have hhead : ba = bb := by
    rw [ha, hb] at h
    exact (List.cons.inj h).1
  by_cases hae : a ∈ escapedChars
  · have hbe : b ∈ escapedChars := hb'.mp (hhead ▸ ha'.mpr hae)
    have hla := (escapeChar_escaped hae).2
    have hlb := (escapeChar_escaped hbe).2
    have hsecond : (escapeChar a)[1]? = (escapeChar b)[1]? := by
      have hget := congrArg (fun l => l[1]?) h
      have h1 : 1 < (escapeChar a).length := by split_ifs at hla <;> omega
      have h2 : 1 < (escapeChar b).length := by split_ifs at hlb <;> omega
      simpa only [List.getElem?_append_left h1, List.getElem?_append_left h2] using hget
    obtain ⟨h1, h2⟩ := List.append_inj h (by rw [hla, hlb, hsecond])
    exact ⟨List.inj_on_of_nodup_map escapedChars_map_nodup hae hbe h1, h2⟩
  · have hbe : b ∉ escapedChars := fun hbe => hae (ha'.mp (hhead ▸ hb'.mpr hbe))
    rw [escapeChar_plain hae, escapeChar_plain hbe] at h
    exact utf8EncodeChar_prefixCode a b x y h

theorem jsonString_prefixCode : PrefixCode jsonString := by
  intro a b x y h
  simp only [jsonString, List.cons_append, List.append_assoc, List.cons.injEq, true_and,
    List.nil_append] at h
  obtain ⟨hl, hrest⟩ := flatMap_terminated_inj escapeChar_prefixCode
    (fun c => by obtain ⟨b, t, hb, hne, -⟩ := escapeChar_head c; exact ⟨b, t, hb, hne⟩) _ _ _ _ h
  exact ⟨String.toList_injective hl, hrest⟩

/-! ## Numbers -/

/-- The characters of a JSON number. -/
def NumberChar (c : Char) : Prop := c.isDigit ∨ c ∈ ['-', '.', 'e']

theorem repr_chars {n : ℕ} {c : Char} (h : c ∈ (Nat.repr n).toList) : c.isDigit := by
  rw [Nat.toList_repr] at h
  exact Nat.isDigit_of_mem_toDigits (by norm_num) (by norm_num) h

theorem not_mem_repr {c : Char} (hc : c.isDigit = false) (n : ℕ) : c ∉ (Nat.repr n).toList := by
  intro h
  simp [repr_chars h] at hc

theorem numberText_chars {d : Deps} (hd : d.LawfulText) (n : Number) :
    ∀ c ∈ (numberText d n).toList, NumberChar c := by
  intro c hc
  cases n with
  | posInt n => exact .inl (repr_chars hc)
  | negInt m =>
    simp only [numberText, String.toList_append, List.mem_append] at hc
    rcases hc with hc | hc
    · exact .inr (by simp at hc; simp [hc])
    · exact .inl (repr_chars hc)
  | float x => exact hd.floatText_chars x c hc

theorem numberText_ne_nil {d : Deps} (hd : d.LawfulText) (n : Number) :
    (numberText d n).toList ≠ [] := by
  cases n with
  | posInt n => simp [numberText, Nat.toList_repr, Nat.toDigits_ne_nil]
  | negInt m => simp [numberText]
  | float x =>
    rcases hd.floatText_mark x with h | h
    · exact List.ne_nil_of_mem h
    · exact List.ne_nil_of_mem h

/-- A number is spelled with a decimal point or an exponent exactly when it is a float. -/
theorem mark_mem_numberText {d : Deps} (hd : d.LawfulText) (n : Number) :
    ('.' ∈ (numberText d n).toList ∨ 'e' ∈ (numberText d n).toList) ↔ ∃ x, n = .float x := by
  have hdot := not_mem_repr (c := '.') (by decide)
  have hexp := not_mem_repr (c := 'e') (by decide)
  cases n with
  | posInt n => simp only [numberText, hdot, hexp, or_self, reduceCtorEq, exists_false]
  | negInt m =>
    simp only [numberText, String.toList_append, List.mem_append, hdot, hexp, or_false]
    simp
  | float x => simpa [numberText] using hd.floatText_mark x

theorem numberText_injective {d : Deps} (hd : d.LawfulText) :
    Function.Injective (numberText d) := by
  intro m n h
  have hmark : (∃ x, m = .float x) ↔ ∃ x, n = .float x := by
    rw [← mark_mem_numberText hd, ← mark_mem_numberText hd, h]
  have hminus := not_mem_repr (c := '-') (by decide)
  cases m with
  | posInt a =>
    cases n with
    | posInt b =>
      have := Nat.repr_inj.mp h
      rw [UInt64.toNat_inj.mp this]
    | negInt b =>
      refine absurd ?_ (hminus a.toNat)
      rw [show Nat.repr a.toNat = "-" ++ Nat.repr (b.val + 1) from h]
      simp
    | float x => simp at hmark
  | negInt a =>
    cases n with
    | posInt b =>
      refine absurd ?_ (hminus b.toNat)
      rw [← show "-" ++ Nat.repr (a.val + 1) = Nat.repr b.toNat from h]
      simp
    | negInt b =>
      have htail : Nat.repr (a.val + 1) = Nat.repr (b.val + 1) := by
        have := congrArg String.toList h
        simp only [numberText, String.toList_append] at this
        exact String.toList_injective (List.append_cancel_left this)
      have := Nat.repr_inj.mp htail
      rw [Fin.ext (show a.val = b.val by omega)]
    | float x => simp at hmark
  | float x =>
    cases n with
    | posInt b => simp at hmark
    | negInt b => simp at hmark
    | float y => rw [hd.floatText_inj h]

/-- The bytes of number text are the characters of a number. -/
theorem mem_utf8_numberText {d : Deps} (hd : d.LawfulText) {n : Number} {b : UInt8}
    (h : b ∈ utf8 (numberText d n)) : ∃ c, NumberChar c ∧ b = UInt8.ofNat c.toNat := by
  obtain ⟨c, hc, hb⟩ := List.mem_flatMap.mp h
  have hnum := numberText_chars hd n c hc
  refine ⟨c, hnum, ?_⟩
  have hascii : c.val.toNat ≤ 0x7f := by
    rcases hnum with h | h
    · simp only [Char.isDigit, Bool.and_eq_true, decide_eq_true_eq] at h
      have h9 : c.val.toNat ≤ 57 := UInt32.le_iff_toNat_le.mp h.2
      omega
    · simp only [List.mem_cons, List.not_mem_nil, or_false] at h
      rcases h with rfl | rfl | rfl <;> decide
  rw [String.utf8EncodeChar] at hb
  simp only [hascii, ite_true, List.mem_singleton] at hb
  exact hb

/-! ## The compact writer -/

/-- The delimiters after a value inside a document: comma and the closing brackets. -/
def Delimiter (b : UInt8) : Prop := b = 0x2c ∨ b = 0x5d ∨ b = 0x7d

mutual

/-- The compact text of a value, members in the listed order. -/
def plainBytes (d : Deps) : Value → List UInt8
  | .null => utf8 "null"
  | .bool b => utf8 (if b then "true" else "false")
  | .number n => utf8 (numberText d n)
  | .string s => jsonString s
  | .array items => 0x5b :: (List.intercalate [0x2c] (plainItems d items) ++ [0x5d])
  | .object members => 0x7b :: (List.intercalate [0x2c] (plainMembers d members) ++ [0x7d])

/-- The items of an array as they are written. -/
def plainItems (d : Deps) : List Value → List (List UInt8)
  | [] => []
  | v :: vs => plainBytes d v :: plainItems d vs

/-- The members of an object as they are written. -/
def plainMembers (d : Deps) : List (String × Value) → List (List UInt8)
  | [] => []
  | m :: ms => plainMember d m :: plainMembers d ms

/-- A key, a colon and the value. -/
def plainMember (d : Deps) : String × Value → List UInt8
  | (k, v) => jsonString k ++ 0x3a :: plainBytes d v

end

theorem plainItems_eq_map (d : Deps) (items : List Value) :
    plainItems d items = items.map (plainBytes d) := by
  induction items with
  | nil => rfl
  | cons v items ih => simp [plainItems, ih]

theorem plainMembers_eq_map (d : Deps) (members : List (String × Value)) :
    plainMembers d members =
      members.map fun m => jsonString m.1 ++ 0x3a :: plainBytes d m.2 := by
  induction members with
  | nil => rfl
  | cons m members ih =>
    obtain ⟨k, v⟩ := m
    simp [plainMembers, plainMember, ih]

/-- The constructor of a value, as its first byte shows it. -/
def Value.tag : Value → ℕ
  | .null => 0
  | .bool _ => 1
  | .number _ => 2
  | .string _ => 3
  | .array _ => 4
  | .object _ => 5

/-- The kind of the value whose text starts with this byte. -/
def tagOfByte (b : UInt8) : ℕ :=
  if b = 0x6e then 0 else if b = 0x74 ∨ b = 0x66 then 1 else if b = 0x22 then 3
  else if b = 0x5b then 4 else if b = 0x7b then 5 else 2

theorem numberChar_byte {c : Char} (h : NumberChar c) :
    tagOfByte (UInt8.ofNat c.toNat) = 2 ∧ ¬ Delimiter (UInt8.ofNat c.toNat) := by
  have key : ∀ n < 58, 45 ≤ n → n ≠ 47 →
      tagOfByte (UInt8.ofNat n) = 2 ∧
        ¬ (UInt8.ofNat n = 0x2c ∨ UInt8.ofNat n = 0x5d ∨ UInt8.ofNat n = 0x7d) := by decide
  rcases h with h | h
  · simp only [Char.isDigit, Bool.and_eq_true, decide_eq_true_eq] at h
    have h0 : 48 ≤ c.toNat := UInt32.le_iff_toNat_le.mp h.1
    have h9 : c.toNat ≤ 57 := UInt32.le_iff_toNat_le.mp h.2
    exact key _ (by omega) (by omega) (by omega)
  · simp only [List.mem_cons, List.not_mem_nil, or_false] at h
    rcases h with rfl | rfl | rfl
    · exact key 45 (by decide) (by decide) (by decide)
    · exact key 46 (by decide) (by decide) (by decide)
    · exact ⟨by decide, by unfold Delimiter; decide⟩

/-- The first byte of a value's text tells its constructor and is no delimiter. -/
theorem plainBytes_head {d : Deps} (hd : d.LawfulText) (v : Value) :
    ∃ b t, plainBytes d v = b :: t ∧ tagOfByte b = v.tag ∧ ¬ Delimiter b := by
  unfold Delimiter
  cases v with
  | null => exact ⟨0x6e, _, rfl, by decide, by decide⟩
  | bool b =>
    cases b
    · exact ⟨0x66, _, rfl, by decide, by decide⟩
    · exact ⟨0x74, _, rfl, by decide, by decide⟩
  | number n =>
    have hne : utf8 (numberText d n) ≠ [] := by
      intro h
      refine numberText_ne_nil hd n (List.eq_nil_iff_forall_not_mem.mpr fun c hc => ?_)
      exact String.utf8EncodeChar_ne_nil (List.flatMap_eq_nil_iff.mp h c hc)
    obtain ⟨b, t, hb⟩ := List.exists_cons_of_ne_nil hne
    obtain ⟨c, hc, rfl⟩ := mem_utf8_numberText hd (show b ∈ utf8 (numberText d n) by simp [hb])
    exact ⟨_, t, hb, numberChar_byte hc⟩
  | string s => exact ⟨0x22, _, rfl, rfl, by decide⟩
  | array items => exact ⟨0x5b, _, rfl, rfl, by decide⟩
  | object members => exact ⟨0x7b, _, rfl, rfl, by decide⟩

theorem tag_eq_of_append_eq {d : Deps} (hd : d.LawfulText) {u v : Value} {x y : List UInt8}
    (h : plainBytes d u ++ x = plainBytes d v ++ y) : u.tag = v.tag := by
  obtain ⟨b, t, hb, htag, -⟩ := plainBytes_head hd u
  obtain ⟨b', t', hb', htag', -⟩ := plainBytes_head hd v
  rw [hb, hb'] at h
  rw [← htag, ← htag', (List.cons.inj h).1]

/-- The compact text of a value can be split off in front of a delimiter. The induction is over
    the value; the first byte selects the constructor of the other side. -/
theorem plainBytes_delimAt {d : Deps} (hd : d.LawfulText) (u : Value) :
    DelimAt Delimiter (plainBytes d) u := by
  induction u using Value.induction with
  | null =>
    intro v x y hx hy h
    have htag := tag_eq_of_append_eq hd h
    cases v with
    | null => exact ⟨rfl, List.append_cancel_left h⟩
    | _ => simp [Value.tag] at htag
  | bool a =>
    intro v x y hx hy h
    have htag := tag_eq_of_append_eq hd h
    cases v with
    | bool b =>
      cases a <;> cases b
      · exact ⟨rfl, List.append_cancel_left h⟩
      · exact absurd (List.cons.inj h).1 (by decide)
      · exact absurd (List.cons.inj h).1 (by decide)
      · exact ⟨rfl, List.append_cancel_left h⟩
    | _ => simp [Value.tag] at htag
  | number m =>
    intro v x y hx hy h
    have htag := tag_eq_of_append_eq hd h
    cases v with
    | number n =>
      have hfree : ∀ n, ∀ b ∈ utf8 (numberText d n), ¬ Delimiter b := by
        intro n b hb
        obtain ⟨c, hc, rfl⟩ := mem_utf8_numberText hd hb
        exact (numberChar_byte hc).2
      obtain ⟨rfl, rfl⟩ := delimAt_of_free (utf8_injective.comp (numberText_injective hd)) hfree
        m n x y hx hy h
      exact ⟨rfl, rfl⟩
    | _ => simp [Value.tag] at htag
  | string s =>
    intro v x y hx hy h
    have htag := tag_eq_of_append_eq hd h
    cases v with
    | string t =>
      obtain ⟨rfl, rfl⟩ := jsonString_prefixCode s t x y h
      exact ⟨rfl, rfl⟩
    | _ => simp [Value.tag] at htag
  | array items ih =>
    intro v x y hx hy h
    have htag := tag_eq_of_append_eq hd h
    cases v with
    | array items' =>
      simp only [plainBytes, plainItems_eq_map, List.cons_append, List.append_assoc,
        List.nil_append, List.cons.injEq, true_and] at h
      obtain ⟨rfl, rfl⟩ := intercalate_closed_inj (S := Delimiter) (.inl rfl) (.inr (.inl rfl))
        (by decide) (fun v => by
          obtain ⟨b, t, hb, -, hne⟩ := plainBytes_head hd v
          exact ⟨b, t, hb, fun h => hne (.inr (.inl h))⟩) items ih items' x y h
      exact ⟨rfl, rfl⟩
    | _ => simp [Value.tag] at htag
  | object members ih =>
    intro v x y hx hy h
    have htag := tag_eq_of_append_eq hd h
    cases v with
    | object members' =>
      simp only [plainBytes, plainMembers_eq_map, List.cons_append, List.append_assoc,
        List.nil_append, List.cons.injEq, true_and] at h
      obtain ⟨rfl, rfl⟩ := intercalate_closed_inj (S := Delimiter) (.inl rfl) (.inr (.inr rfl))
        (by decide) (fun m => ⟨0x22, _, rfl, by decide⟩) members
        (fun m hm => DelimAt.pair jsonString_prefixCode (ih m hm) 0x3a m.1) members' x y h
      exact ⟨rfl, rfl⟩
    | _ => simp [Value.tag] at htag

theorem plainBytes_injective {d : Deps} (hd : d.LawfulText) :
    Function.Injective (plainBytes d) := fun u v h =>
  (plainBytes_delimAt hd u v [] [] (ends_nil _) (ends_nil _) (by rw [h])).1

/-! ## Canonical bytes -/

mutual

/-- The value with the members of every object sorted by key. -/
def sortKeys : Value → Value
  | .array items => .array (sortKeysItems items)
  | .object members => .object (sortByKey (sortKeysMembers members))
  | v => v

/-- `sortKeys` over the items of an array. -/
def sortKeysItems : List Value → List Value
  | [] => []
  | v :: vs => sortKeys v :: sortKeysItems vs

/-- `sortKeys` over the values of an object, in the order they have. -/
def sortKeysMembers : List (String × Value) → List (String × Value)
  | [] => []
  | m :: ms => sortKeysMember m :: sortKeysMembers ms

/-- A member keeps its key. -/
def sortKeysMember : String × Value → String × Value
  | (k, v) => (k, sortKeys v)

end

theorem sortKeysItems_eq_map (items : List Value) :
    sortKeysItems items = items.map sortKeys := by
  induction items with
  | nil => rfl
  | cons v items ih => simp [sortKeysItems, ih]

theorem sortKeysMembers_eq_map (members : List (String × Value)) :
    sortKeysMembers members = members.map fun m => (m.1, sortKeys m.2) := by
  induction members with
  | nil => rfl
  | cons m members ih =>
    obtain ⟨k, v⟩ := m
    simp [sortKeysMembers, sortKeysMember, ih]

/-- Sorting by key commutes with a map of the values. -/
theorem sortByKey_map {α β : Type*} (f : String × α → β) (l : List (String × α)) :
    (sortByKey l).map (fun m => (m.1, f m)) = sortByKey (l.map fun m => (m.1, f m)) :=
  List.map_insertionSort _ _ _ _ (fun _ _ _ _ => Iff.rfl)

theorem flatten_separated (l : List (List (List UInt8))) :
    (separated l).flatten = List.intercalate [0x2c] (l.map List.flatten) := by
  unfold separated
  induction l with
  | nil => rfl
  | cons u l ih =>
    cases l with
    | nil => simp
    | cons v l =>
      rw [List.intercalate_cons_cons, List.map_cons, List.map_cons, List.intercalate_cons_cons,
        List.flatten_append, List.flatten_append, ih, List.map_cons]
      simp

theorem itemFragments_eq_map (d : Deps) (items : List Value) :
    itemFragments d items = items.map (canonicalFragments d) := by
  induction items with
  | nil => rfl
  | cons v items ih => simp [itemFragments, ih]

theorem membersFragments_eq_map (d : Deps) (members : List (String × Value)) :
    membersFragments d members = members.map fun m =>
      (m.1, [jsonString m.1, [0x3a]] ++ canonicalFragments d m.2) := by
  induction members with
  | nil => rfl
  | cons m members ih =>
    obtain ⟨k, v⟩ := m
    simp [membersFragments, memberFragments, ih]

/-- The canonical bytes are the compact text of the value with sorted keys. -/
theorem canonicalJsonBytes_eq_plain (d : Deps) (v : Value) :
    canonicalJsonBytes d v = plainBytes d (sortKeys v) := by
  unfold canonicalJsonBytes
  induction v using Value.induction with
  | null => simp [canonicalFragments, sortKeys, plainBytes]
  | bool b => simp [canonicalFragments, sortKeys, plainBytes]
  | number n => simp [canonicalFragments, sortKeys, plainBytes]
  | string s => simp [canonicalFragments, sortKeys, plainBytes]
  | array items ih =>
    have hmap : (items.map (canonicalFragments d)).map List.flatten =
        (items.map sortKeys).map (plainBytes d) := by
      simp only [List.map_map]
      exact List.map_congr_left fun v hv => ih v hv
    simp [canonicalFragments, sortKeys, plainBytes, itemFragments_eq_map, plainItems_eq_map,
      sortKeysItems_eq_map, flatten_separated, hmap]
  | object members ih =>
    have hmap : ((sortByKey (membersFragments d members)).map Prod.snd).map List.flatten =
        (sortByKey (sortKeysMembers members)).map fun m =>
          jsonString m.1 ++ 0x3a :: plainBytes d m.2 := by
      rw [membersFragments_eq_map, sortKeysMembers_eq_map, ← sortByKey_map, ← sortByKey_map]
      simp only [List.map_map]
      refine List.map_congr_left fun m hm => ?_
      have hmem : m ∈ members := (List.mem_insertionSort _).mp hm
      simp [← ih m hmem]
    simp [canonicalFragments, sortKeys, plainBytes, plainMembers_eq_map, flatten_separated, hmap]

/-- Equal canonical bytes mean equal values up to the order of object members. -/
theorem canonicalJsonBytes_inj {d : Deps} (hd : d.LawfulText) {u v : Value}
    (h : canonicalJsonBytes d u = canonicalJsonBytes d v) : sortKeys u = sortKeys v := by
  rw [canonicalJsonBytes_eq_plain, canonicalJsonBytes_eq_plain] at h
  exact plainBytes_injective hd h

theorem canonicalJsonBytes_ne_nil {d : Deps} (hd : d.LawfulText) (v : Value) :
    canonicalJsonBytes d v ≠ [] := by
  obtain ⟨b, t, hb, -, -⟩ := plainBytes_head hd (sortKeys v)
  rw [canonicalJsonBytes_eq_plain, hb]
  simp

/-- The streamed digest is SHA-256 of the canonical bytes. -/
theorem canonicalJsonDigest_eq (d : Deps) (v : Value) :
    canonicalJsonDigest d v = d.sha256 (canonicalJsonBytes d v) := by
  have key : ∀ (fragments : List (List UInt8)) (message : List UInt8),
      fragments.foldl (fun message fragment => message ++ fragment) message =
        message ++ fragments.flatten := by
    intro fragments
    induction fragments with
    | nil => simp
    | cons f fragments ih => intro message; simp [ih]
  rw [canonicalJsonDigest, canonicalJsonBytes, key, List.nil_append]

end BaselineOps.Domain
