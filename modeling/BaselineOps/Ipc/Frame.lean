import Mathlib
import BaselineOps.Ipc.Message
import BaselineOps.Lib.Bytes

/-!
# Broker frames

Model of `baselineops-windows/src/ipc/frame.rs`: a value is sent as a four-byte big-endian length and
its JSON. `serde_json::to_vec` and `serde_json::from_slice` are parameters.

* `boundedBody_ok_iff`: which byte strings are frames.
* `FrameCodec.decode_encode`: a value comes back.
* `encode_prefix_free`: an encoded frame is no proper prefix of another.
-/

namespace BaselineOps.Windows

open BaselineOps.Domain BaselineOps.Lib

/-! ## The model -/

/-- `MAX_FRAME_BYTES` (`mod.rs`, line 33). -/
def maxFrameBytes : ℕ := 1024 * 1024

/-- `serde_json` at a type: `to_vec` and `from_slice`, with the texts of their errors. -/
structure JsonCodec (T : Type) where
  toVec : T → Except String (List UInt8)
  fromSlice : List UInt8 → Except String T

/-- `rejected` (lines 60–62). -/
def jsonRejected (operation error : String) : PlatformError :=
  .protocolRejected ("JSON " ++ operation ++ " failed: " ++ error)

/-- `FrameCodec::encode` (lines 18–32). -/
def FrameCodec.encode {T : Type} (json : JsonCodec T) (value : T) :
    Except PlatformError (List UInt8) := do
  let body ← (json.toVec value).mapError (jsonRejected "encode")
  rejectIf (body.length > maxFrameBytes) "frame exceeds maximum size"
  rejectIf (2 ^ 32 ≤ body.length) "frame length overflow"
  return toBeBytes 4 body.length ++ body

/-- `bounded_body` (lines 43–58). A length of four bytes always fits into a `usize`. -/
def boundedBody (frame : List UInt8) : Except PlatformError (List UInt8) := do
  rejectIf (frame.length < 4) "frame is missing a length prefix"
  let expected := fromBeBytes (frame.take 4)
  rejectIf (expected > maxFrameBytes ∨ frame.length ≠ expected + 4) "frame length does not match bytes"
  return frame.drop 4

/-- `FrameCodec::decode` (lines 38–40). -/
def FrameCodec.decode {T : Type} (json : JsonCodec T) (frame : List UInt8) : Except PlatformError T := do
  let body ← boundedBody frame
  (json.fromSlice body).mapError (jsonRejected "decode")

/-! ## Frames -/

/-- A frame is a length of at most `MAX_FRAME_BYTES` in four bytes and as many bytes. -/
theorem boundedBody_ok_iff {frame body : List UInt8} :
    boundedBody frame = .ok body ↔
      body.length ≤ maxFrameBytes ∧ frame = toBeBytes 4 body.length ++ body := by
  unfold boundedBody
  simp only [except_bind_ok_iff, rejectIf_ok_iff, not_or, not_not, not_lt, exists_const]
  constructor
  · rintro ⟨hlong, ⟨hbound, hlength⟩, hbody⟩
    obtain rfl := Except.ok.inj hbody
    have hexpected : fromBeBytes (frame.take 4) = (frame.drop 4).length := by
      rw [List.length_drop]
      omega
    have htake : (frame.take 4).length = 4 := List.length_take_of_le hlong
    refine ⟨hexpected ▸ hbound, ?_⟩
    have hfront := toBeBytes_fromBeBytes (frame.take 4)
    rw [htake, hexpected] at hfront
    rw [hfront, List.take_append_drop]
  · rintro ⟨hbound, rfl⟩
    have hfits : body.length < 256 ^ 4 := lt_of_le_of_lt hbound (by decide)
    have htake : (toBeBytes 4 body.length ++ body).take 4 = toBeBytes 4 body.length :=
      List.take_left' (length_toBeBytes 4 _)
    have hdrop : (toBeBytes 4 body.length ++ body).drop 4 = body :=
      List.drop_left' (length_toBeBytes 4 _)
    rw [htake, hdrop, fromBeBytes_toBeBytes hfits, List.length_append, length_toBeBytes]
    exact ⟨by omega, ⟨hbound, by omega⟩, rfl⟩

section Codec

variable {T : Type} {json : JsonCodec T}

theorem FrameCodec.encode_ok_iff {value : T} {frame : List UInt8} :
    FrameCodec.encode json value = .ok frame ↔ ∃ body, json.toVec value = .ok body ∧
      body.length ≤ maxFrameBytes ∧ frame = toBeBytes 4 body.length ++ body := by
  unfold FrameCodec.encode
  simp only [except_bind_ok_iff, except_mapError_ok_iff, rejectIf_ok_iff, not_lt, not_le,
    exists_const]
  constructor
  · rintro ⟨body, hvec, hbound, -, hframe⟩
    exact ⟨body, hvec, hbound, (Except.ok.inj hframe).symm⟩
  · rintro ⟨body, hvec, hbound, rfl⟩
    exact ⟨body, hvec, hbound, lt_of_le_of_lt hbound (by decide), rfl⟩

theorem FrameCodec.decode_ok_iff {frame : List UInt8} {value : T} :
    FrameCodec.decode json frame = .ok value ↔
      ∃ body, boundedBody frame = .ok body ∧ json.fromSlice body = .ok value := by
  unfold FrameCodec.decode
  simp only [except_bind_ok_iff, except_mapError_ok_iff]

/-- A value comes back from its frame. -/
theorem FrameCodec.decode_encode {value : T} {frame : List UInt8}
    (hjson : ∀ body, json.toVec value = .ok body → json.fromSlice body = .ok value)
    (h : FrameCodec.encode json value = .ok frame) : FrameCodec.decode json frame = .ok value := by
  obtain ⟨body, hvec, hbound, hframe⟩ := FrameCodec.encode_ok_iff.mp h
  exact FrameCodec.decode_ok_iff.mpr ⟨body, boundedBody_ok_iff.mpr ⟨hbound, hframe⟩, hjson body hvec⟩

/-- A frame in front of other bytes ends where its length says. -/
theorem boundedBody_append {frame other rest body body' : List UInt8}
    (h : boundedBody frame = .ok body) (h' : boundedBody other = .ok body')
    (happend : frame ++ rest = other) : rest = [] := by
  obtain ⟨hbound, rfl⟩ := boundedBody_ok_iff.mp h
  obtain ⟨hbound', rfl⟩ := boundedBody_ok_iff.mp h'
  rw [List.append_assoc] at happend
  obtain ⟨hlength, hrest⟩ := List.append_inj happend (by rw [length_toBeBytes, length_toBeBytes])
  have hfits : body.length < 256 ^ 4 := lt_of_le_of_lt hbound (by decide)
  have hfits' : body'.length < 256 ^ 4 := lt_of_le_of_lt hbound' (by decide)
  have hequal : body.length = body'.length := by
    rw [← fromBeBytes_toBeBytes hfits, hlength, fromBeBytes_toBeBytes hfits']
  have hsum := congrArg List.length hrest
  rw [List.length_append, hequal] at hsum
  exact List.eq_nil_of_length_eq_zero (by omega)

/-- No encoded frame is a proper prefix of another. -/
theorem encode_prefix_free {value value' : T} {frame frame' : List UInt8}
    (h : FrameCodec.encode json value = .ok frame) (h' : FrameCodec.encode json value' = .ok frame')
    (hfront : frame <+: frame') : frame = frame' := by
  obtain ⟨body, -, hbound, hframe⟩ := FrameCodec.encode_ok_iff.mp h
  obtain ⟨body', -, hbound', hframe'⟩ := FrameCodec.encode_ok_iff.mp h'
  obtain ⟨rest, happend⟩ := hfront
  have hrest := boundedBody_append (boundedBody_ok_iff.mpr ⟨hbound, hframe⟩)
    (boundedBody_ok_iff.mpr ⟨hbound', hframe'⟩) happend
  rw [hrest, List.append_nil] at happend
  exact happend

end Codec

end BaselineOps.Windows
