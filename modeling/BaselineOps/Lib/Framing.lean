import BaselineOps.Lib.Bytes

/-!
# Length-prefixed frames

A frame is a four-byte little-endian length followed by that many bytes. `frames_inj` recovers the
bodies from their concatenated frames; `torn_cases` says where a strict prefix of a frame can end.
-/

namespace BaselineOps.Lib

/-- The length of the body in four little-endian bytes, and the body. -/
def frame (body : List UInt8) : List UInt8 := toLeBytes 4 body.length ++ body

@[simp] theorem length_frame (body : List UInt8) : (frame body).length = 4 + body.length := by
  simp [frame]

/-- The concatenated frames of several bodies. -/
def frames (bodies : List (List UInt8)) : List UInt8 := bodies.flatMap frame

@[simp] theorem frames_nil : frames [] = [] := rfl

@[simp] theorem frames_cons (body : List UInt8) (bodies : List (List UInt8)) :
    frames (body :: bodies) = frame body ++ frames bodies := rfl

theorem frames_append (as bs : List (List UInt8)) :
    frames (as ++ bs) = frames as ++ frames bs := by
  simp [frames]

/-- The length field of a frame, read back. -/
theorem fromLeBytes_frame {body : List UInt8} (h : body.length < 2 ^ 32) :
    fromLeBytes (toLeBytes 4 body.length) = body.length :=
  fromLeBytes_toLeBytes (by norm_num; omega)

/-- The bodies can be read off their concatenated frames. -/
theorem frames_inj {as bs : List (List UInt8)} (ha : ∀ a ∈ as, a.length < 2 ^ 32)
    (hb : ∀ b ∈ bs, b.length < 2 ^ 32) (h : frames as = frames bs) : as = bs := by
  induction as generalizing bs with
  | nil =>
    cases bs with
    | nil => rfl
    | cons b bs =>
      have := congrArg List.length h
      simp only [frames_nil, frames_cons, List.length_append, length_frame, List.length_nil] at this
      omega
  | cons a as ih =>
    cases bs with
    | nil =>
      have := congrArg List.length h
      simp only [frames_nil, frames_cons, List.length_append, length_frame, List.length_nil] at this
      omega
    | cons b bs =>
      simp only [frames_cons, frame, List.append_assoc] at h
      obtain ⟨hlen, hrest⟩ := List.append_inj h (by simp)
      have hab : a.length = b.length := by
        rw [← fromLeBytes_frame (ha a (by simp)), hlen, fromLeBytes_frame (hb b (by simp))]
      obtain ⟨rfl, htail⟩ := List.append_inj hrest hab
      rw [ih (fun x hx => ha x (by simp [hx])) (fun x hx => hb x (by simp [hx])) htail]

/-- A strict prefix of a frame ends inside the length or inside the body. -/
theorem torn_cases {body t : List UInt8} (h : t <+: frame body) (hlt : t.length < 4 + body.length) :
    t.length < 4 ∨ ∃ part, t = toLeBytes 4 body.length ++ part ∧ part <+: body ∧
      part.length < body.length := by
  by_cases h4 : t.length < 4
  · exact .inl h4
  · right
    obtain ⟨rest, hrest⟩ := h
    have htake : t.take 4 = toLeBytes 4 body.length := by
      have := congrArg (List.take 4) hrest
      rw [List.take_append_of_le_length (by omega), frame, List.take_left' (by simp)] at this
      exact this
    refine ⟨t.drop 4, ?_, ?_, ?_⟩
    · rw [← htake, List.take_append_drop]
    · refine ⟨rest, ?_⟩
      have := congrArg (List.drop 4) hrest
      rw [List.drop_append_of_le_length (by omega), frame,
        List.drop_left' (by simp)] at this
      exact this
    · rw [List.length_drop]
      omega

end BaselineOps.Lib
