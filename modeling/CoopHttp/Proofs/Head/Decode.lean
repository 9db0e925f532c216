import CoopHttp.Proofs.Head.Fields
import CoopHttp.Proofs.Head.Grammar

/-!
# Decoding heads that are written

What a head is decoded to depends on the octets of the head alone; whatever follows it is left as it
is.
-/
namespace CoopHttp.RequestHead

theorem decode_bytes (t : HeadText) (rest : Bytes) :
    decode (t.bytes ++ rest) =
      if t.bytes.length ≤ maxHeadBytes then
        match readLine t.raw with
        | .error error => ⟨.error error, t.bytes ++ rest⟩
        | .ok (method, uri) => ⟨(readFields t.raw method uri).map some, rest⟩
      else ⟨.error (.tooLargeHeader t.bytes.length maxHeadBytes), t.bytes ++ rest⟩ := by
  have hhead : Grammar.head (t.bytes ++ rest) = .done t.raw rest :=
    Grammar.head_eq_done_iff.2 ⟨t, rfl, rfl⟩
  rw [decode, hhead]
  cases hline : readLine t.raw with
  | error error => simp [hline]
  | ok line => simp [hline]

/-- Of a head within the limit, nothing but the target and the framing is left to be refused. -/
theorem decode_of_spells {t : HeadText} {entries : List (FieldName × FieldValue)}
    (hlength : t.bytes.length ≤ maxHeadBytes) (hspells : List.Forall₂ FieldText.Spells t.fields entries)
    (rest : Bytes) :
    decode (t.bytes ++ rest) =
      match Uri.parse t.target with
      | .error _ => ⟨.error .invalidUri, t.bytes ++ rest⟩
      | .ok uri => ⟨(PayloadSize.ofFields (.ofList entries)).map fun size =>
          some (⟨⟨t.method, t.isToken_method⟩, uri, t.version, .ofList entries⟩, size), rest⟩ := by
  have hmethod : Method.ofBytes? t.method = some ⟨t.method, t.isToken_method⟩ :=
    dif_pos t.isToken_method
  rw [decode_bytes, if_pos hlength]
  simp only [readLine, HeadText.raw, hmethod]
  cases Uri.parse t.target with
  | error fault => rfl
  | ok uri =>
    simp only [readFields, Fields.ofLines_eq_ofList hspells, bind, Except.bind]
    cases PayloadSize.ofFields (.ofList entries) <;> rfl

/-- A head that is decoded is a head of the grammar, and it is decoded alike in front of anything. -/
theorem exists_of_decode {src rest : Bytes} {head : RequestHead × PayloadSize}
    (h : decode src = ⟨.ok (some head), rest⟩) :
    ∃ t : HeadText, src = t.bytes ++ rest ∧
      ∀ rest', decode (t.bytes ++ rest') = ⟨.ok (some head), rest'⟩ := by
  have hdone : ∃ raw rest', Grammar.head src = .done raw rest' := by
    rw [decode] at h
    split at h
    · simp at h
    · split_ifs at h <;> simp at h
    · exact ⟨_, _, by assumption⟩
  obtain ⟨raw, rest', hhead⟩ := hdone
  obtain ⟨t, -, rfl⟩ := Grammar.head_eq_done_iff.1 hhead
  rw [decode_bytes] at h
  split_ifs at h with hsize
  · cases hline : readLine t.raw with
    | error error => simp [hline] at h
    | ok line =>
      simp only [hline, Decoded.mk.injEq] at h
      obtain ⟨hfields, rfl⟩ := h
      refine ⟨t, rfl, fun rest' => ?_⟩
      rw [decode_bytes, if_pos hsize, hline]
      simp only [hfields]
  · simp at h

end CoopHttp.RequestHead
