import Mathlib.Data.List.Basic
import Mathlib.Data.Nat.Log
import Mathlib.Tactic.Ring

/-!
# Numbers in bytes and hexadecimal digits

* `toLeBytes w n`, `fromLeBytes`: the low `w` bytes of `n`, least significant first, and back;
  `toBeBytes`, `fromBeBytes` with the most significant first.
* `hexBytes`: two lowercase hexadecimal digits for each byte.
* `takeAvailable`: a read of at most `n` elements from an in-memory reader.
* `utf8Length`: the size of a text in bytes.
-/

namespace BaselineOps.Lib

/-! ## Little-endian integers -/

/-- The low `w` bytes of `n`, least significant byte first. -/
def toLeBytes : ℕ → ℕ → List UInt8
  | 0, _ => []
  | w + 1, n => UInt8.ofNat n :: toLeBytes w (n / 256)

/-- The number that a little-endian byte string stands for. -/
def fromLeBytes : List UInt8 → ℕ
  | [] => 0
  | b :: bs => b.toNat + 256 * fromLeBytes bs

@[simp] theorem length_toLeBytes (w n : ℕ) : (toLeBytes w n).length = w := by
  induction w generalizing n with
  | zero => rfl
  | succ w ih => simp [toLeBytes, ih]

theorem fromLeBytes_toLeBytes {w n : ℕ} (h : n < 256 ^ w) :
    fromLeBytes (toLeBytes w n) = n := by
  induction w generalizing n with
  | zero => simp at h; simp [toLeBytes, fromLeBytes, h]
  | succ w ih =>
    have hdiv : n / 256 < 256 ^ w := by
      rw [Nat.div_lt_iff_lt_mul (by norm_num)]; rw [pow_succ] at h; exact h
    rw [toLeBytes, fromLeBytes, ih hdiv]
    simp only [UInt8.toNat_ofNat']
    omega

theorem toLeBytes_fromLeBytes (bs : List UInt8) :
    toLeBytes bs.length (fromLeBytes bs) = bs := by
  induction bs with
  | nil => rfl
  | cons b bs ih =>
    have hb := b.toNat_lt
    have hhead : UInt8.ofNat (b.toNat + 256 * fromLeBytes bs) = b := by
      rw [← UInt8.toNat_inj, UInt8.toNat_ofNat']; omega
    have htail : (b.toNat + 256 * fromLeBytes bs) / 256 = fromLeBytes bs := by omega
    simp [toLeBytes, fromLeBytes, hhead, htail, ih]

theorem fromLeBytes_lt (bs : List UInt8) : fromLeBytes bs < 256 ^ bs.length := by
  induction bs with
  | nil => simp [fromLeBytes]
  | cons b bs ih =>
    have hb := b.toNat_lt
    simp only [fromLeBytes, List.length_cons, pow_succ]
    omega

/-! ## Big-endian integers -/

/-- The low `w` bytes of `n`, most significant byte first. -/
def toBeBytes (w n : ℕ) : List UInt8 := (toLeBytes w n).reverse

/-- The number that a big-endian byte string stands for. -/
def fromBeBytes (bs : List UInt8) : ℕ := fromLeBytes bs.reverse

@[simp] theorem length_toBeBytes (w n : ℕ) : (toBeBytes w n).length = w := by
  rw [toBeBytes, List.length_reverse, length_toLeBytes]

theorem fromBeBytes_toBeBytes {w n : ℕ} (h : n < 256 ^ w) : fromBeBytes (toBeBytes w n) = n := by
  rw [fromBeBytes, toBeBytes, List.reverse_reverse, fromLeBytes_toLeBytes h]

theorem toBeBytes_fromBeBytes (bs : List UInt8) : toBeBytes bs.length (fromBeBytes bs) = bs := by
  rw [toBeBytes, fromBeBytes, ← List.length_reverse, toLeBytes_fromLeBytes, List.reverse_reverse]

/-! ## Hexadecimal text -/

/-- The lowercase hexadecimal digit of a number below 16. -/
def hexDigit (n : ℕ) : Char := "0123456789abcdef".toList.getD n '0'

/-- Two lowercase hexadecimal digits. -/
def hexByte (b : UInt8) : List Char := [hexDigit (b.toNat / 16), hexDigit (b.toNat % 16)]

/-- The lowercase hexadecimal text of a byte string. -/
def hexBytes (bs : List UInt8) : List Char := bs.flatMap hexByte

theorem hexDigit_inj {m n : ℕ} (hm : m < 16) (hn : n < 16) (h : hexDigit m = hexDigit n) :
    m = n := by
  have key : ∀ a < 16, ∀ b < 16, hexDigit a = hexDigit b → a = b := by decide
  exact key m hm n hn h

theorem hexByte_inj {a b : UInt8} (h : hexByte a = hexByte b) : a = b := by
  have ha := a.toNat_lt
  have hb := b.toNat_lt
  simp only [hexByte, List.cons.injEq, and_true] at h
  have h1 := hexDigit_inj (by omega) (by omega) h.1
  have h2 := hexDigit_inj (by omega) (by omega) h.2
  rw [← UInt8.toNat_inj]
  omega

@[simp] theorem length_hexBytes (bs : List UInt8) : (hexBytes bs).length = 2 * bs.length := by
  induction bs with
  | nil => rfl
  | cons b bs ih =>
    rw [hexBytes, List.flatMap_cons, List.length_append, ← hexBytes, ih]
    simp [hexByte]; omega

theorem hexBytes_inj : ∀ {as bs : List UInt8}, hexBytes as = hexBytes bs → as = bs
  | [], [], _ => rfl
  | [], b :: bs, h => by simp [hexBytes, hexByte] at h
  | a :: as, [], h => by simp [hexBytes, hexByte] at h
  | a :: as, b :: bs, h => by
    have h' : hexByte a ++ hexBytes as = hexByte b ++ hexBytes bs := by
      simpa [hexBytes] using h
    obtain ⟨h1, h2⟩ := List.append_inj h' rfl
    rw [hexByte_inj h1, hexBytes_inj h2]

/-- Hexadecimal text consists of the sixteen digits. -/
theorem mem_hexBytes {c : Char} {bs : List UInt8} (h : c ∈ hexBytes bs) :
    c ∈ "0123456789abcdef".toList := by
  have key : ∀ n < 16, hexDigit n ∈ "0123456789abcdef".toList := by decide
  simp only [hexBytes, List.mem_flatMap, hexByte, List.mem_cons, List.not_mem_nil, or_false] at h
  obtain ⟨b, -, rfl | rfl⟩ := h
  · exact key _ (by have := b.toNat_lt; omega)
  · exact key _ (by omega)

/-! ## Reading from memory -/

/-- A read into a buffer of `n` elements from the in-memory reader `r`: what was read and what
    is left. It is short only at the end of the reader. -/
def takeAvailable {α : Type*} (n : ℕ) (r : List α) : List α × List α := (r.take n, r.drop n)

theorem takeAvailable_append {α : Type*} (a r : List α) :
    takeAvailable a.length (a ++ r) = (a, r) := by
  simp [takeAvailable]

/-! ## The size of a text -/

/-- The number of bytes of a text in UTF-8. -/
def utf8Length (text : List Char) : ℕ := (text.map Char.utf8Size).sum

theorem utf8Length_cons (c : Char) (text : List Char) : utf8Length (c :: text) = c.utf8Size + utf8Length text := rfl

theorem utf8Length_append (left right : List Char) :
    utf8Length (left ++ right) = utf8Length left + utf8Length right := by
  rw [utf8Length, List.map_append, List.sum_append]
  rfl

end BaselineOps.Lib
