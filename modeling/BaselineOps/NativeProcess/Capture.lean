import Mathlib
import BaselineOps.Lib.Bisect
import BaselineOps.Lib.Bytes
import BaselineOps.Lib.Utf16

/-!
# Bounded output capture

Model of `NativeProcessCapture` (`lib/platform/NativeProcess.ps1`, lines 96–122), with
`Encoding.UTF8.GetByteCount` as .NET documents it. Counters are numbers: the limit is at most 10485760
(`Invoke-NativeCommand`) and a chunk at most 4096 units (`Drain`), so that no `int` overflows.

* `capture_longest_iff`: the capture is the longest prefix of whole characters within the limit, unless
  a chunk ends inside a surrogate pair. Each half of such a pair costs three bytes, and a first half may be
  kept alone.
-/

namespace BaselineOps.NativeProcess

open BaselineOps.Lib

/-! ## The code -/

/-- `char.IsHighSurrogate`. -/
def isHigh (u : UInt16) : Bool := decide (0xd800 ≤ u.toNat ∧ u.toNat < 0xdc00)

/-- `char.IsLowSurrogate`. -/
def isLow (u : UInt16) : Bool := decide (0xdc00 ≤ u.toNat ∧ u.toNat ≤ 0xdfff)

/-- The UTF-8 bytes of a unit that is no half of a pair; U+FFFD stands for a lone surrogate. -/
def unitBytes (u : UInt16) : ℕ := if u.toNat < 0x80 then 1 else if u.toNat < 0x800 then 2 else 3

/-- `Encoding.UTF8.GetByteCount`. -/
def getByteCount : List UInt16 → ℕ
  | [] => 0
  | [u] => unitBytes u
  | u :: v :: rest =>
    if isHigh u && isLow v then 4 + getByteCount rest else unitBytes u + getByteCount (v :: rest)

/-- One of the two outputs: its text, its byte counter and its flag. -/
structure Channel where
  target : List UInt16 := []
  bytes : ℕ := 0
  truncated : Bool := false
  deriving DecidableEq

/-- Line 108: no cut between the halves of a pair of the chunk. -/
def keepPair (value : List UInt16) (low : ℕ) : ℕ :=
  if 0 < low ∧ low < value.length ∧ isHigh (value.getD (low - 1) 0) ∧ isLow (value.getD low 0) then
    low - 1
  else low

/-- `Append` (lines 101–111) on one output. -/
def Channel.append (max : ℕ) (channel : Channel) (value : List UInt16) : Channel :=
  if value = [] ∨ channel.truncated then channel
  else
    let bytes := getByteCount value
    if channel.bytes + bytes ≤ max then
      { channel with target := channel.target ++ value, bytes := channel.bytes + bytes }
    else
      let remain := max - channel.bytes
      let low := bisect (fun mid => getByteCount (value.take mid) ≤ remain) 0 value.length
      let low := keepPair value low
      let part := value.take low
      if 0 < low then
        { target := channel.target ++ part, bytes := channel.bytes + getByteCount part, truncated := true }
      else { channel with truncated := true }

/-- `NativeProcessCapture` (lines 96–100). -/
structure NativeProcessCapture where
  max : ℕ
  stdout : Channel := {}
  stderr : Channel := {}

/-- `Append` on the output that `isError` selects. -/
def NativeProcessCapture.append (capture : NativeProcessCapture) (isError : Bool)
    (value : List UInt16) : NativeProcessCapture :=
  if isError then { capture with stderr := capture.stderr.append capture.max value }
  else { capture with stdout := capture.stdout.append capture.max value }

/-- The output that `isError` selects. -/
def NativeProcessCapture.channel (capture : NativeProcessCapture) (isError : Bool) : Channel :=
  if isError then capture.stderr else capture.stdout

/-- The chunks of both readers (`Drain`, lines 112–117), in the order in which they arrive. -/
def NativeProcessCapture.drain (capture : NativeProcessCapture)
    (chunks : List (Bool × List UInt16)) : NativeProcessCapture :=
  chunks.foldl (fun capture chunk => capture.append chunk.1 chunk.2) capture

/-- The chunks of one output. -/
def chunksOf (isError : Bool) (chunks : List (Bool × List UInt16)) : List (List UInt16) :=
  (chunks.filter fun chunk => chunk.1 = isError).map Prod.snd

/-- An output depends on its own chunks only. -/
theorem drain_channel (capture : NativeProcessCapture) (chunks : List (Bool × List UInt16))
    (isError : Bool) :
    (capture.drain chunks).channel isError =
      (chunksOf isError chunks).foldl (Channel.append capture.max) (capture.channel isError) := by
  induction chunks generalizing capture with
  | nil => rfl
  | cons chunk chunks ih =>
    obtain ⟨target, value⟩ := chunk
    have hstep : capture.drain ((target, value) :: chunks) = (capture.append target value).drain chunks :=
      rfl
    rw [hstep, ih]
    cases target <;> cases isError <;> rfl

/-! ## Items -/

/-- The units of a chunk, the halves of a pair together. -/
def items : List UInt16 → List (List UInt16)
  | [] => []
  | [u] => [[u]]
  | u :: v :: rest => if isHigh u && isLow v then [u, v] :: items rest else [u] :: items (v :: rest)

/-- Items in order as long as they fit, and whether one did not. -/
def greedy : ℕ → List (List UInt16) → List UInt16 × Bool
  | _, [] => ([], false)
  | room, item :: rest =>
    if getByteCount item ≤ room then
      (item ++ (greedy (room - getByteCount item) rest).1, (greedy (room - getByteCount item) rest).2)
    else ([], true)

theorem flatten_items (value : List UInt16) : (items value).flatten = value := by
  fun_induction items value with
  | case1 => rfl
  | case2 u => rfl
  | case3 u v rest hpair ih => simp [ih]
  | case4 u v rest hpair ih => simp [ih]

theorem getByteCount_pair {u v : UInt16} (h : (isHigh u && isLow v) = true) (rest : List UInt16) :
    getByteCount (u :: v :: rest) = 4 + getByteCount rest := by
  rw [getByteCount, if_pos h]

/-- A unit that begins no pair counts on its own. -/
theorem getByteCount_cons {u : UInt16} {rest : List UInt16}
    (h : ∀ v ∈ rest.head?, (isHigh u && isLow v) = false) :
    getByteCount (u :: rest) = unitBytes u + getByteCount rest := by
  cases rest with
  | nil => rfl
  | cons v rest => rw [getByteCount, if_neg (by simp [h v rfl])]

theorem getByteCount_items (value : List UInt16) :
    getByteCount value = ((items value).map getByteCount).sum := by
  fun_induction items value with
  | case1 => rfl
  | case2 u => rfl
  | case3 u v rest hpair ih =>
    rw [getByteCount_pair hpair, ih, List.map_cons, List.sum_cons, getByteCount_pair hpair]
    rfl
  | case4 u v rest hpair ih =>
    rw [getByteCount_cons (by simpa using hpair), ih, List.map_cons, List.sum_cons]
    rfl

theorem greedy_append_fits {front rest : List (List UInt16)} {room : ℕ}
    (h : (front.map getByteCount).sum ≤ room) :
    greedy room (front ++ rest) =
      (front.flatten ++ (greedy (room - (front.map getByteCount).sum) rest).1,
        (greedy (room - (front.map getByteCount).sum) rest).2) := by
  induction front generalizing room with
  | nil => simp
  | cons item front ih =>
    rw [List.map_cons, List.sum_cons] at h
    rw [List.cons_append, greedy, if_pos (by omega), ih (by omega), List.map_cons, List.sum_cons,
      List.flatten_cons, List.append_assoc, Nat.sub_sub]

theorem greedy_append_stops {front rest : List (List UInt16)} {room : ℕ}
    (h : room < (front.map getByteCount).sum) :
    greedy room (front ++ rest) = greedy room front ∧ (greedy room front).2 = true := by
  induction front generalizing room with
  | nil => exact absurd h (Nat.not_lt_zero _)
  | cons item front ih =>
    rw [List.map_cons, List.sum_cons] at h
    rw [List.cons_append, greedy, greedy]
    split_ifs with hfits
    · obtain ⟨heq, hflag⟩ := @ih (room - getByteCount item) (by omega)
      exact ⟨by rw [heq], hflag⟩
    · exact ⟨rfl, rfl⟩

/-! ## The cut -/

theorem unitBytes_high {u : UInt16} (h : isHigh u = true) : unitBytes u = 3 := by
  have hrange := of_decide_eq_true h
  rw [unitBytes, if_neg (by omega), if_neg (by omega)]

theorem isHigh_of_isLow {u : UInt16} (h : isLow u = true) : isHigh u = false := by
  have hrange := of_decide_eq_true h
  rw [isHigh, decide_eq_false_iff_not]
  omega

theorem getByteCount_take_cons {u : UInt16} {rest : List UInt16}
    (h : ∀ v ∈ rest.head?, (isHigh u && isLow v) = false) (n : ℕ) :
    getByteCount ((u :: rest).take (n + 1)) = unitBytes u + getByteCount (rest.take n) := by
  rw [List.take_succ_cons]
  refine getByteCount_cons fun v hv => h v ?_
  cases rest with
  | nil => simp at hv
  | cons w rest =>
    cases n with
    | zero => simp at hv
    | succ n => simpa using hv

theorem keepPair_cons {u : UInt16} {rest : List UInt16}
    (h : ∀ v ∈ rest.head?, (isHigh u && isLow v) = false) (n : ℕ) :
    keepPair (u :: rest) (n + 1) = keepPair rest n + 1 := by
  unfold keepPair
  cases n with
  | zero =>
    have hfirst : ¬ (0 < 0 + 1 ∧ 0 + 1 < (u :: rest).length ∧
        isHigh ((u :: rest).getD (0 + 1 - 1) 0) = true ∧ isLow ((u :: rest).getD (0 + 1) 0) = true) := by
      rintro ⟨-, hlength, hu, hv⟩
      cases rest with
      | nil => simp at hlength
      | cons v rest =>
        have hpair := h v rfl
        simp only [Nat.zero_add, Nat.sub_self, List.getD_cons_zero, List.getD_cons_succ] at hu hv
        simp [hu, hv] at hpair
    rw [if_neg hfirst, if_neg (by omega)]
  | succ n =>
    simp only [Nat.add_sub_cancel, List.getD_cons_succ, List.length_cons, Nat.zero_lt_succ, true_and,
      Nat.add_lt_add_iff_right]
    split_ifs
    · rfl
    · rfl

/-- The number of units kept of a chunk that does not fit: the last one within the room. -/
def LastFitting (value : List UInt16) (room n : ℕ) : Prop :=
  n ≤ value.length ∧ getByteCount (value.take n) ≤ room ∧
    ∀ m, n < m → m ≤ value.length → room < getByteCount (value.take m)

/-- What is kept of a chunk are the items that fit. -/
theorem take_keepPair {value : List UInt16} {room n : ℕ} (h : LastFitting value room n) :
    value.take (keepPair value n) = (greedy room (items value)).1 := by
  fun_induction items value generalizing room n with
  | case1 => simp [greedy]
  | case2 u =>
    obtain ⟨hn, hfits, hlast⟩ := h
    have hone : getByteCount [u] = unitBytes u := rfl
    have hkeep : keepPair [u] n = n := if_neg (by rw [List.length_singleton]; omega)
    rw [hkeep, greedy]
    rw [List.length_singleton] at hn hlast
    split_ifs with hroom
    · have hn1 : n = 1 := by
        by_contra hne
        have hover := hlast 1 (by omega) le_rfl
        rw [List.take_of_length_le (by simp)] at hover
        omega
      rw [hn1]
      simp [greedy]
    · have hn0 : n = 0 := by
        by_contra hne
        rw [List.take_of_length_le (by rw [List.length_singleton]; omega)] at hfits
        exact hroom hfits
      rw [hn0]
      rfl
  | case3 u v rest hpair ih =>
    obtain ⟨hn, hfits, hlast⟩ := h
    obtain ⟨hu, hv⟩ := Bool.and_eq_true_iff.mp hpair
    have htwo : ∀ k, getByteCount ((u :: v :: rest).take (k + 2)) = 4 + getByteCount (rest.take k) :=
      fun k => getByteCount_pair hpair _
    have hitem : getByteCount [u, v] = 4 := getByteCount_pair hpair []
    rw [greedy, hitem]
    split_ifs with hroom
    · -- both halves are kept, and the cut lies behind them
      obtain ⟨k, rfl⟩ : ∃ k, n = k + 2 := by
        refine ⟨n - 2, ?_⟩
        by_contra hlt
        have hover := hlast 2 (by omega) (by simp)
        rw [htwo 0] at hover
        simp [getByteCount] at hover
        omega
      rw [htwo] at hfits
      have hrest : LastFitting rest (room - 4) k := by
        refine ⟨by simpa using hn, by omega, fun m hm hmlen => ?_⟩
        have hover := hlast (m + 2) (by omega) (by simpa using hmlen)
        rw [htwo] at hover
        omega
      have hkeep : keepPair (u :: v :: rest) (k + 2) = keepPair rest k + 2 := by
        unfold keepPair
        cases k with
        | zero =>
          have hlow := isHigh_of_isLow hv
          simp [hlow]
        | succ k =>
          simp only [List.getD_cons_succ, List.length_cons, Nat.add_sub_cancel, Nat.zero_lt_succ,
            true_and, Nat.add_lt_add_iff_right, show k + 1 + 2 - 1 = k + 2 by omega]
          split_ifs
          · rfl
          · rfl
      rw [hkeep, List.take_succ_cons, List.take_succ_cons, ih hrest]
      rfl
    · -- not even a first half is kept
      have hn1 : n ≤ 1 := by
        by_contra hgt
        obtain ⟨k, rfl⟩ : ∃ k, n = k + 2 := ⟨n - 2, by omega⟩
        rw [htwo] at hfits
        omega
      have hkeep : keepPair (u :: v :: rest) n = 0 := by
        interval_cases n
        · rfl
        · simp [keepPair, hu, hv]
      rw [hkeep]
      rfl
  | case4 u v rest hpair ih =>
    obtain ⟨hn, hfits, hlast⟩ := h
    have hhead : ∀ w ∈ (v :: rest).head?, (isHigh u && isLow w) = false := by simpa using hpair
    have hitem : getByteCount [u] = unitBytes u := rfl
    rw [greedy, hitem]
    split_ifs with hroom
    · obtain ⟨k, rfl⟩ : ∃ k, n = k + 1 := by
        refine ⟨n - 1, ?_⟩
        by_contra hlt
        have hover := hlast 1 (by omega) (by simp)
        rw [show 1 = 0 + 1 from rfl, getByteCount_take_cons hhead] at hover
        simp [getByteCount] at hover
        omega
      rw [getByteCount_take_cons hhead] at hfits
      have hrest : LastFitting (v :: rest) (room - unitBytes u) k := by
        refine ⟨by simpa using hn, by omega, fun m hm hmlen => ?_⟩
        have hover := hlast (m + 1) (by omega) (by simpa using hmlen)
        rw [getByteCount_take_cons hhead] at hover
        omega
      rw [keepPair_cons hhead, List.take_succ_cons, ih hrest]
      rfl
    · have hn0 : n = 0 := by
        by_contra hpos
        obtain ⟨k, rfl⟩ : ∃ k, n = k + 1 := ⟨n - 1, by omega⟩
        rw [getByteCount_take_cons hhead] at hfits
        omega
      rw [hn0]
      rfl

/-- A longer part of a chunk does not count less. -/
theorem getByteCount_take_mono {value : List UInt16} {m n : ℕ} (h : m ≤ n) :
    getByteCount (value.take m) ≤ getByteCount (value.take n) := by
  fun_induction items value generalizing m n with
  | case1 => simp
  | case2 u =>
    cases m with
    | zero => exact Nat.zero_le _
    | succ m =>
      cases n with
      | zero => omega
      | succ n => simp
  | case3 u v rest hpair ih =>
    have htwo : ∀ k, getByteCount ((u :: v :: rest).take (k + 2)) = 4 + getByteCount (rest.take k) :=
      fun k => getByteCount_pair hpair _
    have hone : getByteCount ((u :: v :: rest).take 1) = 3 :=
      unitBytes_high (Bool.and_eq_true_iff.mp hpair).1
    match m, n with
    | 0, _ => exact Nat.zero_le _
    | 1, 0 => omega
    | 1, 1 => exact le_rfl
    | 1, n + 2 =>
      rw [htwo, hone]
      omega
    | m + 2, 0 => omega
    | m + 2, 1 => omega
    | m + 2, n + 2 =>
      rw [htwo, htwo]
      exact Nat.add_le_add_left (ih (by omega)) 4
  | case4 u v rest hpair ih =>
    have hhead : ∀ w ∈ (v :: rest).head?, (isHigh u && isLow w) = false := by simpa using hpair
    match m, n with
    | 0, _ => exact Nat.zero_le _
    | m + 1, 0 => omega
    | m + 1, n + 1 =>
      rw [getByteCount_take_cons hhead, getByteCount_take_cons hhead]
      exact Nat.add_le_add_left (ih (by omega)) _

/-- The bisection finds the last part that fits. -/
theorem lastFitting_bisect (value : List UInt16) (room : ℕ) :
    LastFitting value room
      (bisect (fun mid => getByteCount (value.take mid) ≤ room) 0 value.length) := by
  have hmono : ∀ m n, m ≤ n → decide (getByteCount (value.take n) ≤ room) = true →
      decide (getByteCount (value.take m) ≤ room) = true := by
    intro m n hmn hn
    rw [decide_eq_true_iff] at hn ⊢
    exact (getByteCount_take_mono hmn).trans hn
  obtain ⟨hle, hpass, hlast⟩ := (bisect_eq_iff hmono (decide_eq_true (Nat.zero_le _))).mp
    (rfl : bisect (fun mid => decide (getByteCount (value.take mid) ≤ room)) 0 value.length = _)
  refine ⟨hle, of_decide_eq_true hpass, fun m hm hmlen => ?_⟩
  have hfail := hlast m hm hmlen
  rw [decide_eq_false_iff_not] at hfail
  omega

/-! ## Runs -/

/-- The counter of an output stays within the limit. -/
theorem append_bytes_le {max : ℕ} {channel : Channel} (h : channel.bytes ≤ max) (value : List UInt16) :
    (channel.append max value).bytes ≤ max := by
  unfold Channel.append
  simp only
  split_ifs with hskip hfits hlow
  · exact h
  · exact hfits
  · obtain ⟨-, hpart, -⟩ := lastFitting_bisect value (max - channel.bytes)
    have hkeep : keepPair value (bisect (fun mid => getByteCount (value.take mid) ≤
        max - channel.bytes) 0 value.length) ≤ bisect (fun mid => getByteCount (value.take mid) ≤
        max - channel.bytes) 0 value.length := by
      unfold keepPair
      split_ifs
      · exact Nat.sub_le _ _
      · exact le_rfl
    have hcount := @getByteCount_take_mono value _ _ hkeep
    simp only
    omega
  · exact h

/-- One chunk appends the items that fit. -/
theorem append_open {max : ℕ} {channel : Channel} (hopen : channel.truncated = false)
    (h : channel.bytes ≤ max) (value : List UInt16) :
    (channel.append max value).target =
        channel.target ++ (greedy (max - channel.bytes) (items value)).1 ∧
      (channel.append max value).truncated = (greedy (max - channel.bytes) (items value)).2 ∧
      (getByteCount value ≤ max - channel.bytes →
        (channel.append max value).bytes = channel.bytes + getByteCount value) := by
  have hgreedy := @greedy_append_fits (items value) [] (max - channel.bytes)
  rw [List.append_nil, ← getByteCount_items, flatten_items] at hgreedy
  unfold Channel.append
  by_cases hnil : value = []
  · subst hnil
    simp [hopen, greedy, items, getByteCount]
  · rw [if_neg (by simp [hnil, hopen])]
    simp only
    by_cases hfits : getByteCount value ≤ max - channel.bytes
    · rw [if_pos (by omega), hgreedy hfits]
      simp [greedy, hopen]
    · have hstop := (@greedy_append_stops (items value) [] (max - channel.bytes)
        (by rw [← getByteCount_items]; omega)).2
      have hcut := take_keepPair (lastFitting_bisect value (max - channel.bytes))
      rw [if_neg (by omega), hstop]
      split_ifs with hlow
      · exact ⟨by rw [hcut], rfl, fun hle => absurd hle hfits⟩
      · rw [Nat.eq_zero_of_not_pos hlow] at hcut
        rw [← hcut]
        exact ⟨by simp, rfl, fun hle => absurd hle hfits⟩

theorem foldl_append_truncated {max : ℕ} {channel : Channel} (h : channel.truncated = true)
    (chunks : List (List UInt16)) : chunks.foldl (Channel.append max) channel = channel := by
  induction chunks with
  | nil => rfl
  | cons value chunks ih =>
    have hskip : channel.append max value = channel := if_pos (.inr h)
    rw [List.foldl_cons, hskip, ih]

/-- A run keeps the items of its chunks that fit. -/
theorem foldl_append {max : ℕ} {channel : Channel} (hopen : channel.truncated = false)
    (h : channel.bytes ≤ max) (chunks : List (List UInt16)) :
    (chunks.foldl (Channel.append max) channel).target =
        channel.target ++ (greedy (max - channel.bytes) (chunks.flatMap items)).1 ∧
      (chunks.foldl (Channel.append max) channel).truncated =
        (greedy (max - channel.bytes) (chunks.flatMap items)).2 := by
  induction chunks generalizing channel with
  | nil => simp [greedy, hopen]
  | cons value chunks ih =>
    obtain ⟨htarget, hflag, hbytes⟩ := append_open hopen h value
    rw [List.foldl_cons, List.flatMap_cons]
    by_cases hfits : getByteCount value ≤ max - channel.bytes
    · have hitems := @greedy_append_fits (items value) [] (max - channel.bytes)
        (by rwa [← getByteCount_items])
      rw [List.append_nil, flatten_items] at hitems
      rw [hitems] at htarget hflag
      obtain ⟨htarget', hflag'⟩ := @ih (channel.append max value) (by simpa [greedy] using hflag)
        (append_bytes_le h value)
      rw [htarget', hflag', htarget, hbytes hfits,
        greedy_append_fits (by rwa [← getByteCount_items]), flatten_items, ← getByteCount_items,
        Nat.sub_sub]
      simp [greedy]
    · obtain ⟨hitems, hstop⟩ := @greedy_append_stops (items value) (chunks.flatMap items)
        (max - channel.bytes) (by rw [← getByteCount_items]; omega)
      rw [hstop] at hflag
      rw [foldl_append_truncated hflag, hitems]
      exact ⟨htarget, by rw [hflag, hstop]⟩

/-! ## Text in chunks -/

/-- The character is encoded as a surrogate pair. -/
def isPair (c : Char) : Bool := decide (0x10000 ≤ c.toNat)

/-- Where the chunks begin and the last one ends, counted from `offset`. -/
def boundariesFrom : ℕ → List (List UInt16) → List ℕ
  | offset, [] => [offset]
  | offset, value :: chunks => offset :: boundariesFrom (offset + value.length) chunks

/-- The items of a stream that is cut at some positions. -/
def itemsAt (cut : ℕ → Bool) : ℕ → List UInt16 → List (List UInt16)
  | _, [] => []
  | _, [u] => [[u]]
  | offset, u :: v :: rest =>
    if isHigh u && isLow v && !cut (offset + 1) then [u, v] :: itemsAt cut (offset + 2) rest
    else [u] :: itemsAt cut (offset + 1) (v :: rest)

/-- The items of a text that is cut at some positions. -/
def charItems (cut : ℕ → Bool) : ℕ → List Char → List (List UInt16)
  | _, [] => []
  | offset, c :: text =>
    (if isPair c && cut (offset + 1) then (Utf16.encodeChar c).map fun u => [u]
      else [Utf16.encodeChar c]) ++ charItems cut (offset + (Utf16.encodeChar c).length) text

theorem itemsAt_append {cut : ℕ → Bool} {offset : ℕ} {value rest : List UInt16}
    (hinside : ∀ n, offset < n → n < offset + value.length → cut n = false)
    (hend : cut (offset + value.length) = true) :
    itemsAt cut offset (value ++ rest) = items value ++ itemsAt cut (offset + value.length) rest := by
  fun_induction items value generalizing offset with
  | case1 => rfl
  | case2 u =>
    cases rest with
    | nil => rfl
    | cons v rest =>
      rw [List.length_singleton] at hend ⊢
      rw [List.singleton_append, itemsAt, if_neg (by simp [hend])]
      rfl
  | case3 u v value hpair ih =>
    have hcut : cut (offset + 1) = false := hinside _ (by omega) (by simp)
    have hlength : offset + (u :: v :: value).length = offset + 2 + value.length := by
      simp only [List.length_cons]
      omega
    rw [hlength] at hinside hend ⊢
    rw [List.cons_append, List.cons_append, itemsAt, if_pos (by simp [hpair, hcut]),
      ih (fun n hn hlt => hinside n (by omega) hlt) hend]
    rfl
  | case4 u v value hpair ih =>
    have hlength : offset + (u :: v :: value).length = offset + 1 + (v :: value).length := by
      simp only [List.length_cons]
      omega
    rw [hlength] at hinside hend ⊢
    rw [List.cons_append, List.cons_append, itemsAt, if_neg (by simp [hpair]), ← List.cons_append,
      ih (fun n hn hlt => hinside n (by omega) hlt) hend]
    rfl

theorem le_of_mem_boundariesFrom {offset n : ℕ} {chunks : List (List UInt16)}
    (h : n ∈ boundariesFrom offset chunks) : offset ≤ n := by
  induction chunks generalizing offset with
  | nil => exact (List.mem_singleton.mp h).ge
  | cons value chunks ih =>
    rcases List.mem_cons.mp h with rfl | h
    · exact le_rfl
    · have hle := ih h
      omega

theorem mem_boundariesFrom_self (offset : ℕ) (chunks : List (List UInt16)) :
    offset ∈ boundariesFrom offset chunks := by
  cases chunks with
  | nil => exact List.mem_singleton_self offset
  | cons value chunks => exact List.mem_cons_self

/-- The items of the chunks are those of the stream that is cut at their boundaries. -/
theorem flatMap_items {cut : ℕ → Bool} {offset : ℕ} {chunks : List (List UInt16)}
    (hcut : ∀ n, offset ≤ n → (cut n = true ↔ n ∈ boundariesFrom offset chunks)) :
    chunks.flatMap items = itemsAt cut offset chunks.flatten := by
  induction chunks generalizing offset with
  | nil => rfl
  | cons value chunks ih =>
    have hself := mem_boundariesFrom_self (offset + value.length) chunks
    have hinside : ∀ n, offset < n → n < offset + value.length → cut n = false := by
      intro n hlow hhigh
      rw [Bool.eq_false_iff, ne_eq, hcut n hlow.le]
      intro hmem
      rcases List.mem_cons.mp hmem with rfl | hmem
      · omega
      · have hle := le_of_mem_boundariesFrom hmem
        omega
    have hend : cut (offset + value.length) = true :=
      (hcut _ (by omega)).mpr (List.mem_cons_of_mem _ hself)
    have hrest : ∀ n, offset + value.length ≤ n →
        (cut n = true ↔ n ∈ boundariesFrom (offset + value.length) chunks) := by
      intro n hn
      rw [hcut n (by omega), boundariesFrom, List.mem_cons]
      constructor
      · rintro (rfl | hmem)
        · rwa [show n + value.length = n by omega] at hself ⊢
        · exact hmem
      · exact .inr
    rw [List.flatMap_cons, List.flatten_cons, itemsAt_append hinside hend, ih hrest]

/-- A character is one unit that is no surrogate, or a pair. -/
theorem encodeChar_cases (c : Char) :
    (isPair c = false ∧ ∃ u, Utf16.encodeChar c = [u] ∧ isHigh u = false ∧ isLow u = false ∧
      unitBytes u = c.utf8Size) ∨
    (isPair c = true ∧ c.utf8Size = 4 ∧
      ∃ u v, Utf16.encodeChar c = [u, v] ∧ isHigh u = true ∧ isLow v = true ∧ unitBytes v = 3) := by
  have hlt := Utf16.char_lt c
  have hsurrogate := Utf16.char_not_surrogate c
  have hsize : c.utf8Size = if c.toNat ≤ 0x7f then 1 else if c.toNat ≤ 0x7ff then 2 else
      if c.toNat ≤ 0xffff then 3 else 4 := by
    rw [Char.utf8Size]
    rfl
  unfold Utf16.encodeChar
  split_ifs with hbmp
  · refine .inl ⟨decide_eq_false (by omega), _, rfl, ?_, ?_, ?_⟩
    · rw [isHigh, decide_eq_false_iff_not, UInt16.toNat_ofNat', Nat.mod_eq_of_lt (by omega)]
      omega
    · rw [isLow, decide_eq_false_iff_not, UInt16.toNat_ofNat', Nat.mod_eq_of_lt (by omega)]
      omega
    · rw [unitBytes, UInt16.toNat_ofNat', Nat.mod_eq_of_lt (by omega), hsize]
      split_ifs <;> omega
  · refine .inr ⟨decide_eq_true (by omega), ?_, _, _, rfl, ?_, ?_, ?_⟩
    · rw [hsize]
      split_ifs <;> omega
    · rw [isHigh, decide_eq_true_iff, UInt16.toNat_ofNat', Nat.mod_eq_of_lt (by omega)]
      omega
    · rw [isLow, decide_eq_true_iff, UInt16.toNat_ofNat', Nat.mod_eq_of_lt (by omega)]
      omega
    · rw [unitBytes, UInt16.toNat_ofNat', Nat.mod_eq_of_lt (by omega)]
      split_ifs <;> omega

theorem encode_cons (c : Char) (text : List Char) :
    Utf16.encode (c :: text) = Utf16.encodeChar c ++ Utf16.encode text := List.flatMap_cons

/-- A unit that begins no pair is an item of its own. -/
theorem itemsAt_cons {cut : ℕ → Bool} {offset : ℕ} {u : UInt16} (h : isHigh u = false)
    (rest : List UInt16) : itemsAt cut offset (u :: rest) = [u] :: itemsAt cut (offset + 1) rest := by
  cases rest with
  | nil => rfl
  | cons v rest => rw [itemsAt, if_neg (by simp [h])]

theorem itemsAt_encode (cut : ℕ → Bool) (offset : ℕ) (text : List Char) :
    itemsAt cut offset (Utf16.encode text) = charItems cut offset text := by
  induction text generalizing offset with
  | nil => rfl
  | cons c text ih =>
    rw [encode_cons, charItems]
    rcases encodeChar_cases c with ⟨hpair, u, hc, hhigh, -, -⟩ | ⟨hpair, -, u, v, hc, hhigh, hlow, -⟩
    · rw [hc, hpair, List.singleton_append, itemsAt_cons hhigh, ih]
      rfl
    · rw [hc, hpair, Bool.true_and]
      cases hcut : cut (offset + 1) with
      | true =>
        have hsplit : itemsAt cut offset ([u, v] ++ Utf16.encode text) =
            [u] :: itemsAt cut (offset + 1) (v :: Utf16.encode text) := by
          rw [List.cons_append, List.cons_append, itemsAt, if_neg (by simp [hcut])]
          rfl
        rw [hsplit, itemsAt_cons (isHigh_of_isLow hlow), ih]
        rfl
      | false =>
        have hjoin : itemsAt cut offset ([u, v] ++ Utf16.encode text) =
            [u, v] :: itemsAt cut (offset + 2) (Utf16.encode text) := by
          rw [List.cons_append, List.cons_append, itemsAt, if_pos (by simp [hhigh, hlow, hcut])]
          rfl
        rw [hjoin, ih]
        rfl

/-! ## The longest prefix -/

/-- The longest prefix of whole characters of at most `max` bytes. -/
def longest : ℕ → List Char → List Char
  | _, [] => []
  | max, c :: text => if c.utf8Size ≤ max then c :: longest (max - c.utf8Size) text else []

/-- The pairs of a text that are cut. -/
def cutPairs (cut : ℕ → Bool) : ℕ → List Char → ℕ
  | _, [] => 0
  | offset, c :: text =>
    (if isPair c && cut (offset + 1) then 1 else 0) +
      cutPairs cut (offset + (Utf16.encodeChar c).length) text

/-- The character behind a prefix is a pair that is cut. -/
def NextCut (cut : ℕ → Bool) (offset : ℕ) (taken text : List Char) : Prop :=
  ∃ c rest, text = taken ++ c :: rest ∧ isPair c = true ∧
    cut (offset + (Utf16.encode taken).length + 1) = true

theorem nextCut_cons {cut : ℕ → Bool} {offset : ℕ} {c : Char} {taken text : List Char} :
    NextCut cut offset (c :: taken) (c :: text) ↔
      NextCut cut (offset + (Utf16.encodeChar c).length) taken text := by
  unfold NextCut
  refine exists_congr fun d => exists_congr fun rest => ?_
  rw [encode_cons, List.length_append, List.cons_append, List.cons.injEq, ← Nat.add_assoc]
  simp only [true_and]

theorem getByteCount_encodeChar (c : Char) : getByteCount (Utf16.encodeChar c) = c.utf8Size := by
  rcases encodeChar_cases c with ⟨-, u, hc, -, -, hsize⟩ | ⟨-, hsize, u, v, hc, hhigh, hlow, -⟩
  · rw [hc, ← hsize]
    rfl
  · rw [hc, hsize, getByteCount_pair (by simp [hhigh, hlow])]
    rfl

/-- Both halves of a pair that is cut cost three bytes. -/
theorem charItems_cut {cut : ℕ → Bool} {offset : ℕ} {c : Char}
    (h : (isPair c && cut (offset + 1)) = true) (text : List Char) :
    c.utf8Size = 4 ∧ ∃ u v, Utf16.encodeChar c = [u, v] ∧ getByteCount [u] = 3 ∧ getByteCount [v] = 3 ∧
      charItems cut offset (c :: text) = [u] :: [v] :: charItems cut (offset + 2) text := by
  have hpair := (Bool.and_eq_true_iff.mp h).1
  rcases encodeChar_cases c with ⟨hsingle, -⟩ | ⟨-, hsize, u, v, hc, hhigh, -, hv⟩
  · rw [hpair] at hsingle
    cases hsingle
  · refine ⟨hsize, u, v, hc, unitBytes_high hhigh, hv, ?_⟩
    rw [charItems, if_pos h, hc]
    rfl

/-- The items of a text within `room` bytes, when the prefix has `spent` bytes more than the items left
    to it, are the longest prefix exactly when its cut pairs fit and no half of the next character does. -/
theorem greedy_charItems (cut : ℕ → Bool) (offset room spent : ℕ) (text : List Char) :
    greedy room (charItems cut offset text) =
        (Utf16.encode (longest (room + spent) text), decide (longest (room + spent) text ≠ text)) ↔
      utf8Length (longest (room + spent) text) +
          2 * cutPairs cut offset (longest (room + spent) text) ≤ room ∧
        ¬ (NextCut cut offset (longest (room + spent) text) text ∧
          utf8Length (longest (room + spent) text) +
            2 * cutPairs cut offset (longest (room + spent) text) + 3 ≤ room) := by
  induction text generalizing offset room spent with
  | nil =>
    have hnext : ¬ NextCut cut offset [] [] := by rintro ⟨c, rest, h, -⟩; cases h
    simp [charItems, greedy, longest, Utf16.encode, utf8Length, cutPairs, hnext]
  | cons c text ih =>
    by_cases hfits : c.utf8Size ≤ room + spent
    · -- the prefix holds the character
      have hlongest : longest (room + spent) (c :: text) =
          c :: longest (room + spent - c.utf8Size) text := if_pos hfits
      rw [hlongest, nextCut_cons, encode_cons]
      have hproper : ∀ taken, decide (c :: taken ≠ c :: text) = decide (taken ≠ text) := fun taken => by
        simp
      rw [utf8Length_cons, hproper]
      cases hcut : isPair c && cut (offset + 1) with
      | false =>
        rw [charItems, hcut, if_neg Bool.false_ne_true, List.singleton_append, greedy,
          getByteCount_encodeChar, cutPairs, hcut, if_neg Bool.false_ne_true, Nat.zero_add]
        split_ifs with hroom
        · have htail := ih (offset + (Utf16.encodeChar c).length) (room - c.utf8Size) spent
          rw [show room - c.utf8Size + spent = room + spent - c.utf8Size by omega] at htail
          rw [Prod.mk.injEq, List.append_right_inj, ← Prod.mk.injEq, Prod.mk.eta, htail]
          refine and_congr (by omega) (not_congr (and_congr Iff.rfl (by omega)))
        · constructor
          · intro heq
            have hnil := (Prod.mk.inj heq).1.symm
            exact absurd (List.append_eq_nil_iff.mp hnil).1 (Utf16.encodeChar_ne_nil c)
          · rintro ⟨hle, -⟩
            omega
      | true =>
        obtain ⟨hsize, u, v, hc, hu, hv, hitems⟩ := charItems_cut hcut text
        rw [hitems, cutPairs, hcut, if_pos rfl, hc, hsize]
        simp only [greedy, hu, hv]
        by_cases hroom : 6 ≤ room
        · rw [if_pos (by omega), if_pos (by omega)]
          have htail := ih (offset + 2) (room - 6) (spent + 2)
          rw [show room - 6 + (spent + 2) = room + spent - 4 by omega] at htail
          simp only [Nat.sub_sub, List.length_cons, List.length_nil, Nat.zero_add, Nat.reduceAdd]
          have hpair : [u] ++ ([v] ++ (greedy (room - 6) (charItems cut (offset + 2) text)).1) =
              [u, v] ++ (greedy (room - 6) (charItems cut (offset + 2) text)).1 := rfl
          rw [hpair, Prod.mk.injEq, List.append_right_inj, ← Prod.mk.injEq,
            Prod.mk.eta, htail]
          refine and_congr (by omega) (not_congr (and_congr Iff.rfl (by omega)))
        · constructor
          · intro heq
            rw [if_neg (by omega : ¬ 3 ≤ room - 3)] at heq
            split_ifs at heq
            · have hlist := congrArg List.length (Prod.mk.inj heq).1
              simp at hlist
            · have hlist := congrArg List.length (Prod.mk.inj heq).1
              simp at hlist
          · rintro ⟨hle, -⟩
            omega
    · -- the prefix ends before the character
      have hlongest : longest (room + spent) (c :: text) = [] := if_neg hfits
      rw [hlongest]
      have hnext : NextCut cut offset [] (c :: text) ↔ (isPair c && cut (offset + 1)) = true := by
        unfold NextCut
        constructor
        · rintro ⟨d, rest, heq, hpair, hcut⟩
          obtain ⟨rfl, rfl⟩ := List.cons.inj heq
          simpa [Utf16.encode, hpair] using hcut
        · intro h
          obtain ⟨hpair, hcut⟩ := Bool.and_eq_true_iff.mp h
          exact ⟨c, text, rfl, hpair, by simpa [Utf16.encode] using hcut⟩
      rw [hnext]
      have hzero : utf8Length [] + 2 * cutPairs cut offset [] = 0 := rfl
      rw [hzero]
      cases hcut : isPair c && cut (offset + 1) with
      | false =>
        rw [charItems, hcut, if_neg Bool.false_ne_true, List.singleton_append, greedy,
          getByteCount_encodeChar, if_neg (by omega)]
        simp [Utf16.encode]
      | true =>
        obtain ⟨hsize, u, v, hc, hu, hv, hitems⟩ := charItems_cut hcut text
        rw [hitems, greedy, hu]
        split_ifs with hhalf
        · simp [Utf16.encode, hhalf]
        · simp [Utf16.encode]
          omega

/-! ## Captures -/

theorem longest_spec (max : ℕ) (text : List Char) :
    longest max text <+: text ∧ utf8Length (longest max text) ≤ max ∧
      ∀ other, other <+: text → utf8Length other ≤ max → other <+: longest max text := by
  induction text generalizing max with
  | nil => exact ⟨List.prefix_rfl, Nat.zero_le _, fun other h _ => h⟩
  | cons c text ih =>
    rw [longest]
    split_ifs with hfits
    · obtain ⟨hpre, hle, hmax⟩ := ih (max - c.utf8Size)
      refine ⟨List.prefix_cons_inj c |>.mpr hpre, by rw [utf8Length_cons]; omega, ?_⟩
      intro other hother hsize
      rcases List.prefix_cons_iff.mp hother with rfl | ⟨rest, rfl, hrest⟩
      · exact List.nil_prefix
      · rw [utf8Length_cons] at hsize
        exact (List.prefix_cons_inj c).mpr (hmax rest hrest (by omega))
    · refine ⟨List.nil_prefix, Nat.zero_le _, ?_⟩
      intro other hother hsize
      rcases List.prefix_cons_iff.mp hother with rfl | ⟨rest, rfl, hrest⟩
      · exact List.prefix_rfl
      · rw [utf8Length_cons] at hsize
        omega

/-- An output holds the longest prefix of whole characters within the limit, and its flag says whether
    something is left. -/
def Captures (max : ℕ) (text : List Char) (channel : Channel) : Prop :=
  ∃ taken rest, text = taken ++ rest ∧ channel.target = Utf16.encode taken ∧ utf8Length taken ≤ max ∧
    (channel.truncated = true ↔ rest ≠ []) ∧
    ∀ other, other <+: text → utf8Length other ≤ max → other <+: taken

theorem captures_iff {max : ℕ} {text : List Char} {channel : Channel} :
    Captures max text channel ↔ channel.target = Utf16.encode (longest max text) ∧
      channel.truncated = decide (longest max text ≠ text) := by
  obtain ⟨⟨left, hleft⟩, hle, hmax⟩ := longest_spec max text
  have hproper : ∀ taken rest : List Char, text = taken ++ rest → (rest ≠ [] ↔ taken ≠ text) := by
    rintro taken rest rfl
    simp
  constructor
  · rintro ⟨taken, rest, htext, htarget, hsize, hflag, hlast⟩
    have htaken : taken = longest max text :=
      (hmax taken ⟨rest, htext.symm⟩ hsize).eq_of_length_le
        (hlast _ ⟨left, hleft⟩ hle).length_le
    refine ⟨by rw [htarget, htaken], ?_⟩
    rw [Bool.eq_iff_iff, decide_eq_true_iff, hflag, hproper taken rest htext, htaken]
  · rintro ⟨htarget, hflag⟩
    refine ⟨_, left, hleft.symm, htarget, hle, ?_, hmax⟩
    rw [hflag, decide_eq_true_iff, hproper _ left hleft.symm]

/-- A chunk begins or the last one ends at the position. -/
def cutAt (chunks : List (List UInt16)) (n : ℕ) : Bool := decide (n ∈ boundariesFrom 0 chunks)

/-- The chunks of an output, as items that fit. -/
theorem drain_items (max : ℕ) (chunks : List (Bool × List UInt16)) (isError : Bool) :
    (((NativeProcessCapture.mk max {} {}).drain chunks).channel isError).target =
        (greedy max ((chunksOf isError chunks).flatMap items)).1 ∧
      (((NativeProcessCapture.mk max {} {}).drain chunks).channel isError).truncated =
        (greedy max ((chunksOf isError chunks).flatMap items)).2 := by
  have hfresh : (NativeProcessCapture.mk max {} {}).channel isError = {} := by
    cases isError
    · rfl
    · rfl
  rw [drain_channel, hfresh]
  exact @foldl_append max {} rfl (Nat.zero_le _) (chunksOf isError chunks)

/-- An output captures its text exactly when the prefix fits with two bytes more for each of its pairs
    that a chunk boundary cuts, and no half of the next character fits behind it. -/
theorem capture_longest_iff (max : ℕ) (text : List Char) (chunks : List (Bool × List UInt16))
    (isError : Bool) (h : (chunksOf isError chunks).flatten = Utf16.encode text) :
    Captures max text (((NativeProcessCapture.mk max {} {}).drain chunks).channel isError) ↔
      utf8Length (longest max text) +
          2 * cutPairs (cutAt (chunksOf isError chunks)) 0 (longest max text) ≤ max ∧
        ¬ (NextCut (cutAt (chunksOf isError chunks)) 0 (longest max text) text ∧
          utf8Length (longest max text) +
            2 * cutPairs (cutAt (chunksOf isError chunks)) 0 (longest max text) + 3 ≤ max) := by
  have hitems : (chunksOf isError chunks).flatMap items =
      charItems (cutAt (chunksOf isError chunks)) 0 text := by
    rw [← itemsAt_encode, ← h]
    exact flatMap_items fun n _ => decide_eq_true_iff
  obtain ⟨htarget, hflag⟩ := drain_items max chunks isError
  have hgreedy := greedy_charItems (cutAt (chunksOf isError chunks)) 0 max 0 text
  rw [Nat.add_zero] at hgreedy
  rw [captures_iff, htarget, hflag, hitems, ← hgreedy, Prod.ext_iff]

/-- A pair inside one chunk, with the other output in between. -/
theorem capture_longest_sample :
    Captures 5 ['a', '😀'] (((NativeProcessCapture.mk 5 {} {}).drain
      [(false, [0x61]), (true, [0x62]), (false, [0xd83d, 0xde00])]).channel false) := by
  refine (capture_longest_iff 5 ['a', '😀'] _ false (by decide +kernel)).mpr ⟨by decide +kernel, ?_⟩
  rintro ⟨-, hle⟩
  exact absurd hle (by decide +kernel)

/-! ### A pair at the end of a buffer -/

theorem longest_of_le {max : ℕ} {text : List Char} (h : utf8Length text ≤ max) : longest max text = text := by
  obtain ⟨hpre, -, hmax⟩ := longest_spec max text
  exact hpre.eq_of_length_le (hmax text List.prefix_rfl h).length_le

theorem items_letters (n : ℕ) (rest : List UInt16) :
    items (List.replicate n 0x61 ++ rest) = List.replicate n [0x61] ++ items rest := by
  induction n with
  | zero => rfl
  | succ n ih =>
    have hcons : ∀ tail : List UInt16, items (0x61 :: tail) = [0x61] :: items tail := by
      intro tail
      cases tail with
      | nil => rfl
      | cons v tail => exact if_neg (by rw [show isHigh 0x61 = false by decide]; simp)
    rw [List.replicate_succ, List.cons_append, hcons, ih, List.replicate_succ, List.cons_append]

theorem greedy_letters (n room : ℕ) (rest : List (List UInt16)) :
    greedy (n + room) (List.replicate n [0x61] ++ rest) =
      (List.replicate n 0x61 ++ (greedy room rest).1, (greedy room rest).2) := by
  have hsum : ((List.replicate n [(0x61 : UInt16)]).map getByteCount).sum = n := by
    rw [List.map_replicate, List.sum_replicate, show getByteCount [0x61] = 1 by decide]
    exact Nat.mul_one n
  have hflatten : (List.replicate n [(0x61 : UInt16)]).flatten = List.replicate n 0x61 := by
    rw [List.flatten_replicate_singleton]
  rw [greedy_append_fits (by rw [hsum]; omega), hsum, hflatten, Nat.add_sub_cancel_left]

theorem encode_letters (n : ℕ) (rest : List Char) :
    Utf16.encode (List.replicate n 'a' ++ rest) = List.replicate n 0x61 ++ Utf16.encode rest := by
  induction n with
  | zero => rfl
  | succ n ih =>
    rw [List.replicate_succ, List.cons_append, encode_cons, ih, show Utf16.encodeChar 'a' = [0x61] by decide]
    rfl

/-- A text of 4099 bytes whose last pair is cut by the buffer of 4096 units is flagged at that limit; with
    the pair in one chunk it is captured. -/
theorem capture_depends_on_chunks :
    let text := List.replicate 4095 'a' ++ ['😀']
    let units := List.replicate 4095 (0x61 : UInt16)
    ¬ Captures 4099 text (((NativeProcessCapture.mk 4099 {} {}).drain
      [(false, units ++ [0xd83d]), (false, [0xde00])]).channel false) ∧
    Captures 4099 text (((NativeProcessCapture.mk 4099 {} {}).drain
      [(false, units), (false, [0xd83d, 0xde00])]).channel false) := by
  intro text units
  have hsize : utf8Length text ≤ 4099 := by
    rw [utf8Length_append, utf8Length, List.map_replicate, List.sum_replicate]
    decide
  have hlongest : longest 4099 text = text := longest_of_le hsize
  have hwhole : decide (text ≠ text) = false := decide_eq_false (not_not.mpr rfl)
  constructor
  · have hitems : (chunksOf false [(false, units ++ [0xd83d]), (false, [0xde00])]).flatMap items =
        List.replicate 4095 [0x61] ++ [[0xd83d], [0xde00]] := by
      rw [show chunksOf false [(false, units ++ [0xd83d]), (false, [0xde00])] = [units ++ [0xd83d], [0xde00]]
        from rfl, List.flatMap_cons, items_letters, List.append_assoc]
      rfl
    rw [captures_iff, hlongest, (drain_items _ _ _).2, hitems, greedy_letters 4095 4]
    rintro ⟨-, hflag⟩
    rw [hwhole] at hflag
    exact absurd hflag (by decide +kernel)
  · have hitems : (chunksOf false [(false, units), (false, [0xd83d, 0xde00])]).flatMap items =
        List.replicate 4095 [0x61] ++ [[0xd83d, 0xde00]] := by
      have hunits : items units = List.replicate 4095 [0x61] := by
        have h := items_letters 4095 []
        rwa [List.append_nil, show items [] = [] from rfl, List.append_nil] at h
      have hpair : [[0xd83d, 0xde00]].flatMap items = [[0xd83d, 0xde00]] := by decide +kernel
      rw [show chunksOf false [(false, units), (false, [0xd83d, 0xde00])] = [units, [0xd83d, 0xde00]]
        from rfl, List.flatMap_cons, hunits, hpair]
    have hpair : greedy 4 [[0xd83d, 0xde00]] = (Utf16.encode ['😀'], false) := by decide +kernel
    rw [captures_iff, hlongest, (drain_items _ _ _).1, (drain_items _ _ _).2, hitems, greedy_letters 4095 4,
      encode_letters, hpair]
    exact ⟨rfl, hwhole.symm⟩

end BaselineOps.NativeProcess
