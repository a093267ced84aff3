import Centrald.Server.Limits
import Mathlib.Algebra.Group.Nat.Defs

/-!
# `Centrald.Proofs.ShellFrames`: the largest shell frame that is carried

A payload is bounded by the settings, and the messages that carry it by
the listeners. `shell_frames_fit_iff` compares the bounds. Around the
payload a message has at most 70 bytes: three headers of four bytes, the
longest form of a session identifier and a sequence number of ten bytes.
The client listener takes 256 KiB. The settings may allow 1 MiB, which
the frames of the broker are built for.
-/

set_option autoImplicit false

namespace Centrald.Proofs

open Durable Server

theorem fieldLen_le {n k : Nat} (h : n < 128 ^ (k + 1)) : fieldLen n ≤ k + 2 + n := by
  have hlog := Nat.log_lt_of_lt_pow' (Nat.succ_ne_zero k) h
  rw [fieldLen, encodedLenVarint]
  omega

theorem fieldLen_eq {n k : Nat} (h : 128 ^ k ≤ n) (h' : n < 128 ^ (k + 1)) :
    fieldLen n = k + 2 + n := by
  rw [fieldLen, encodedLenVarint, Nat.log_eq_of_pow_le_of_lt_pow h h']
  omega

theorem le_carriedLen (frame : ShellData) : frame.data.length ≤ frame.carriedLen := by
  by_cases hdata : frame.data = []
  · simp [hdata]
  · simp only [ShellData.carriedLen, ShellData.encodedLen, fieldLen, if_neg hdata]
    omega

/-- A message has at most 70 bytes around the payload. -/
theorem carriedLen_le {frame : ShellData} (hid : frame.sessionId.length ≤ 45)
    (hdata : frame.data.length ≤ 1048576) : frame.carriedLen ≤ frame.data.length + 70 := by
  have hidField : fieldLen frame.sessionId.length ≤ 47 :=
    (fieldLen_le (k := 0) (by omega)).trans (by omega)
  have hsequence : encodedLenVarint frame.sequence.toNat ≤ 10 :=
    Nat.log_lt_of_lt_pow' (by decide) (frame.sequence.toNat_lt.trans (by decide))
  have hdataField := fieldLen_le (n := frame.data.length) (k := 2) (by omega)
  have hbody : frame.encodedLen ≤ frame.data.length + 62 := by
    rw [ShellData.encodedLen]
    split_ifs <;> omega
  have hframe := fieldLen_le (n := frame.encodedLen) (k := 2) (by omega)
  have houter := fieldLen_le (n := fieldLen frame.encodedLen) (k := 2) (by omega)
  rw [ShellData.carriedLen]
  omega

/-- The longest identifier and sequence number take all 70 bytes. -/
theorem carriedLen_eq {id data : Bytes} (hid : id.length = 45) (hdata : data.length = 262075) :
    ShellData.carriedLen ⟨id, 18446744073709551615, data⟩ = 262145 := by
  have hid' : id ≠ [] := List.ne_nil_of_length_pos (by omega)
  have hdata' : data ≠ [] := List.ne_nil_of_length_pos (by omega)
  have hsequence : Nat.log 128 (18446744073709551615 : UInt64).toNat = 9 :=
    Nat.log_eq_of_pow_le_of_lt_pow (by decide) (by decide)
  have hbody : ShellData.encodedLen ⟨id, 18446744073709551615, data⟩ = 262137 := by
    rw [ShellData.encodedLen, if_neg hid', if_neg (show (18446744073709551615 : UInt64) ≠ 0 by
      decide), if_neg hdata', hid, hdata, encodedLenVarint, hsequence,
      fieldLen_eq (n := 45) (k := 0) (by decide) (by decide),
      fieldLen_eq (n := 262075) (k := 2) (by decide) (by decide)]
  rw [ShellData.carriedLen, hbody, fieldLen_eq (n := 262137) (k := 2) (by decide) (by decide),
    fieldLen_eq (n := 262141) (k := 2) (by decide) (by decide)]

/-- The frame fits the messages of both listeners and the broker's frame. -/
def FitsEveryHop (frame : ShellData) : Prop :=
  frame.carriedLen ≤ adminMaxMessageBytes ∧ frame.carriedLen ≤ clientMaxMessageBytes ∧
    sessionDataFrameLen frame.data ≤ maxSessionWireFrameBytes

/-- A payload that the settings allow fits every hop, in both directions
and under every sequence number, when they allow at most 262074 bytes. -/
theorem shell_frames_fit_iff (runtime : RuntimeSection) :
    (∀ frame : ShellData, frame.sessionId.length ∈ uuidTextLengths →
      frame.data.length ≤ runtime.maxShellFrameBytes → FitsEveryHop frame) ↔
    runtime.maxShellFrameBytes ≤ 262074 := by
  constructor
  · intro hfits
    refine not_lt.1 fun hlarge => ?_
    have hfit := hfits ⟨List.replicate 45 0, 18446744073709551615, List.replicate 262075 0⟩
      (by rw [List.length_replicate]; decide) (by rw [List.length_replicate]; exact hlarge)
    have hclient := hfit.2.1
    rw [carriedLen_eq List.length_replicate List.length_replicate] at hclient
    exact absurd hclient (by decide)
  · intro hsmall frame hid hdata
    have hlong : frame.sessionId.length ≤ 45 :=
      (show ∀ n ∈ uuidTextLengths, n ≤ 45 by decide) _ hid
    have hle := carriedLen_le hlong (by omega)
    refine ⟨hle.trans ?_, hle.trans ?_, ?_⟩
    · rw [adminMaxMessageBytes]
      omega
    · rw [clientMaxMessageBytes]
      omega
    · show 32 + (frame.data.length + 2) / 3 * 4 ≤ 1500000
      omega

/-- Settings that are accepted allow the first frame of a session to have
more than the client listener takes. -/
theorem large_shell_frame_refused : validateRuntime ⟨30, 90, 3600, 900, 1048576⟩ = .ok () ∧
    ∃ frame : ShellData, frame.sessionId.length = 36 ∧ frame.sequence = 1 ∧
      frame.data.length = 1048576 ∧ clientMaxMessageBytes < frame.carriedLen := by
  refine ⟨rfl, ⟨List.replicate 36 0, 1, List.replicate 1048576 0⟩, List.length_replicate, rfl,
    List.length_replicate, ?_⟩
  refine lt_of_lt_of_le ?_ (le_carriedLen _)
  rw [List.length_replicate]
  decide

end Centrald.Proofs
