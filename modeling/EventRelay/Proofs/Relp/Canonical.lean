import EventRelay.Proofs.Relp.Grammar

/-!
# Writing again what was read

A frame that was read can be written, however it was spelled: the reader gives out well-formed
frames only (`Spelled.wellFormed`). What is written is read as the same frame wherever it stands,
and it takes no more bytes than the reader took (`Spelled.length_encode_le`), since it has no
newline in front, no plus, no leading zero and no blank in front of no data (`reencoded_of_read`).
-/

namespace EventRelay.Relp

open Text

/-- A number takes no more bytes in its written form than in a header field that denotes it. -/
theorem Denotes.length_repr_le {field : Bytes} {n : Nat} (h : Denotes field n) :
    (Utf8.encode n.repr).length ≤ field.length := by
  obtain ⟨-, digits, hdecimal, hfield⟩ := h
  have hascii : ∀ c ∈ digits, c.toNat < 128 := by
    intro c hc
    have hcode : c.toNat ≤ 57 := (Char.isDigit_iff_toNat.1 (hdecimal.isDigit c hc)).2
    omega
  have hdigits : (Utf8.encode n.repr).length ≤ digits.length := by
    rw [Utf8.encode_repr, List.length_map]
    exact hdecimal.length_toDigits_le
  rcases hfield with rfl | rfl
  · rw [Utf8.encode_ofList_ascii hascii, List.length_map]
    exact hdigits
  · have hplus : ∀ c ∈ '+' :: digits, c.toNat < 128 :=
      List.forall_mem_cons.2 ⟨by decide, hascii⟩
    rw [Utf8.encode_ofList_ascii hplus, List.length_map, List.length_cons]
    exact Nat.le_succ_of_le hdigits

namespace Frame

section Spelled

variable {afterTxnr afterCommand : UInt8} {f : Frame} {bytes : Bytes}

theorem Spelled.wellFormed (h : Spelled afterTxnr afterCommand f bytes) : f.WellFormed := by
  obtain ⟨n, txnr, length, ending, -, -, hlt, hcommand, -, hroom, -⟩ := h
  exact ⟨hlt, hcommand, hroom⟩

/-- No spelling of a frame is shorter than the one that is written. -/
theorem Spelled.length_encode_le (h : Spelled afterTxnr afterCommand f bytes) :
    f.encode.length ≤ bytes.length := by
  obtain ⟨n, txnr, length, ending, rfl, htxnr, -, -, hlength, -, hending⟩ := h
  have hnumber := htxnr.length_repr_le
  have hsize := hlength.length_repr_le
  have hbody : f.body.length + 1 ≤ ending.length := by
    rcases hending with rfl | ⟨hnone, rfl⟩
    · unfold body
      split <;> simp
    · simp [body, hnone]
  simp only [encode, header, List.length_append, List.length_cons, List.length_nil,
    List.length_replicate]
  omega

end Spelled

/-- Whatever bytes a frame was read from, it is well-formed, the bytes that are written for it are
no more than those, and they are read as the same frame wherever they stand. -/
theorem reencoded_of_read {e : Ending} {s rest : Bytes} {f : Frame}
    (h : read e s = (.ok f, rest)) :
    ∃ taken, s = taken ++ rest ∧ f.WellFormed ∧ f.encode.length ≤ taken.length ∧
      ∀ (e' : Ending) (rest' : Bytes), read e' (f.encode ++ rest') = (.ok f, rest') := by
  obtain ⟨afterTxnr, afterCommand, taken, -, -, hspelled, hs⟩ := (read_eq_ok_iff e s rest f).1 h
  refine ⟨taken, hs, hspelled.wellFormed, hspelled.length_encode_le, ?_⟩
  intro e' rest'
  exact read_encode hspelled.wellFormed e' 0 rest'

/-- A frame in a long spelling, and the beginning of another one. -/
def lavish : Bytes := Utf8.encode "\n\n+007 rsp 000 \n8 rs"

theorem reencoded_of_read_lavish :
    read .closed lavish = (.ok ⟨7, "rsp", []⟩, Utf8.encode "8 rs") ∧
      ∃ taken, lavish = taken ++ Utf8.encode "8 rs" ∧ WellFormed ⟨7, "rsp", []⟩ ∧
        (encode ⟨7, "rsp", []⟩).length ≤ taken.length ∧
        ∀ (e' : Ending) (rest' : Bytes),
          read e' (encode ⟨7, "rsp", []⟩ ++ rest') = (.ok ⟨7, "rsp", []⟩, rest') := by
  have hread : read .closed lavish = (.ok ⟨7, "rsp", []⟩, Utf8.encode "8 rs") := by
    decide +kernel
  exact ⟨hread, reencoded_of_read hread⟩

end Frame

end EventRelay.Relp
