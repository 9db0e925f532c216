import CoopHttp.Payload.Framing
import CoopHttp.Proofs.Head.Fields
import CoopHttp.Proofs.Numeral

/-!
# Payloads that are announced

The ways in which the fields of a head announce a payload, and what the reader of the framing makes
of them: one content length, one transfer encoding that is `chunked`, or neither.
-/
namespace CoopHttp

def HasOnly (entries : List (FieldName × FieldValue)) (name : FieldName) (value : FieldValue) :
    Prop :=
  entries.filter (·.1 = name) = [(name, value)]

def HasNone (entries : List (FieldName × FieldValue)) (name : FieldName) : Prop :=
  entries.filter (·.1 = name) = []

instance (entries : List (FieldName × FieldValue)) (name : FieldName) (value : FieldValue) :
    Decidable (HasOnly entries name value) :=
  inferInstanceAs (Decidable (_ = _))

instance (entries : List (FieldName × FieldValue)) (name : FieldName) :
    Decidable (HasNone entries name) :=
  inferInstanceAs (Decidable (_ = _))

inductive Announces (entries : List (FieldName × FieldValue)) : PayloadSize → Prop
  | nothing (hlength : HasNone entries .contentLength)
    (hcoding : HasNone entries .transferEncoding) : Announces entries .empty
  /-- A content length is a numeral; it may have leading zeros. -/
  | length {value : FieldValue} {n : ℕ} (hlength : HasOnly entries .contentLength value)
    (hcoding : HasNone entries .transferEncoding) (hne : value.bytes ≠ [])
    (hvalue : numeralValue? 10 decimalDigit? value.bytes = some n) (hlt : n < UInt64.size) :
    Announces entries (.ofLength n)
  /-- The word `chunked` may be in any case. -/
  | chunked {value : FieldValue} (hlength : HasNone entries .contentLength)
    (hcoding : HasOnly entries .transferEncoding value)
    (hvalue : Bytes.equalsIgnoringCase value.bytes (ascii "chunked") = true) :
    Announces entries .chunked

namespace Fields

theorem get?_ofList_of_hasNone {entries : List (FieldName × FieldValue)} {name : FieldName}
    (h : HasNone entries name) : (ofList entries).get? name = none := by
  rw [get?, getAll_ofList, h]
  rfl

theorem get?_ofList_of_hasOnly {entries : List (FieldName × FieldValue)} {name : FieldName}
    {value : FieldValue} (h : HasOnly entries name value) :
    (ofList entries).get? name = some value := by
  rw [get?, getAll_ofList, h]
  rfl

end Fields

/-! A declared length. -/

theorem isDigit_of_decimalDigit? {b : UInt8} {d : ℕ} (h : decimalDigit? b = some d) :
    Bytes.isDigit b = true := by
  by_contra hnot
  simp [decimalDigit?, hnot] at h

/-- A digit is an octet of ASCII, no white space and no plus sign. -/
theorem not_isSpace_of_isDigit {b : UInt8} (h : Bytes.isDigit b = true) :
    b < 128 ∧ Bytes.isSpace b = false ∧ b ≠ 43 := by
  have hall : ∀ k : Fin 256, Bytes.isDigit (UInt8.ofFin k) = true →
      UInt8.ofFin k < 128 ∧ Bytes.isSpace (UInt8.ofFin k) = false ∧ UInt8.ofFin k ≠ 43 := by
    decide +kernel
  exact hall b.toFin h

/-- A number below a bound is read off its digits. -/
theorem Decimal.natural?_eq {s : Bytes} {n bound : ℕ} (hne : s ≠ [])
    (h : numeralValue? 10 decimalDigit? s = some n) (hlt : n < bound) :
    Decimal.natural? bound s = some n := by
  have hplus : ∀ rest, s ≠ 43 :: rest := by
    rintro rest rfl
    obtain ⟨d, hd⟩ := exists_digit_of_numeralValue? h 43 (by simp)
    simp [decimalDigit?, Bytes.isDigit] at hd
  have hnumeral : Decimal.numeral? s = some n := by
    rw [Decimal.numeral?, if_neg hne, Decimal.digits?_eq, h]
  simp only [Decimal.natural?, hnumeral, Option.filter, hlt, decide_true, if_true]

theorem PayloadSize.ofDeclaredLength_eq {value : FieldValue} {n : ℕ} (hne : value.bytes ≠ [])
    (h : numeralValue? 10 decimalDigit? value.bytes = some n) (hlt : n < UInt64.size) :
    ofDeclaredLength value = .ok (ofLength n) := by
  have hdigit : ∀ b ∈ value.bytes, b < 128 ∧ Bytes.isSpace b = false := by
    intro b hb
    obtain ⟨d, hd⟩ := exists_digit_of_numeralValue? h b hb
    have hfacts := not_isSpace_of_isDigit (isDigit_of_decimalDigit? hd)
    exact ⟨hfacts.1, hfacts.2.1⟩
  have hvisible : value.visible? = some value.bytes := by
    rw [FieldValue.visible?, if_pos]
    simpa using fun b hb => (hdigit b hb).1
  have htrim : Bytes.trim value.bytes = value.bytes :=
    Bytes.trim_eq_self (fun b hb => (hdigit b (List.mem_of_head? hb)).2)
      (fun b hb => (hdigit b (List.mem_of_getLast? hb)).2)
  rw [ofDeclaredLength, hvisible]
  simp only [htrim, Decimal.natural?_eq hne h hlt]

/-! A coding. -/

theorem Bytes.splitOn_eq_singleton {separator : UInt8} {s : Bytes} (h : separator ∉ s) :
    Bytes.splitOn separator s = [s] := by
  induction s with
  | nil => rfl
  | cons b s ih =>
    have hb : b ≠ separator := fun heq => h (by simp [heq])
    have hs : separator ∉ s := fun hmem => h (by simp [hmem])
    simp [Bytes.splitOn, ih hs, hb]

theorem PayloadSize.endsInChunked_eq_true {value : Bytes}
    (h : Bytes.equalsIgnoringCase value (ascii "chunked") = true) : endsInChunked value = true := by
  have hlower : value.map Bytes.lower = ascii "chunked" := by
    rw [Bytes.equalsIgnoringCase, beq_iff_eq] at h
    rw [h]
    decide
  have hletter : ∀ b ∈ value, Bytes.isSpace b = false ∧ b ≠ 44 := by
    intro b hb
    have hmem : Bytes.lower b ∈ ascii "chunked" := by
      rw [← hlower]
      exact List.mem_map_of_mem hb
    have hall : ∀ k : Fin 256, Bytes.lower (UInt8.ofFin k) ∈ ascii "chunked" →
        Bytes.isSpace (UInt8.ofFin k) = false ∧ UInt8.ofFin k ≠ 44 := by
      decide +kernel
    exact hall b.toFin hmem
  have hsplit : Bytes.splitOn 44 value = [value] :=
    Bytes.splitOn_eq_singleton fun hmem => (hletter 44 hmem).2 rfl
  have htrim : Bytes.trim value = value :=
    Bytes.trim_eq_self (fun b hb => (hletter b (List.mem_of_head? hb)).1)
      (fun b hb => (hletter b (List.mem_of_getLast? hb)).1)
  simp [endsInChunked, Bytes.listMembers, hsplit, htrim, h]

/-- The framing of a payload is what the fields announce. -/
theorem PayloadSize.ofFields_ofList {entries : List (FieldName × FieldValue)} {size : PayloadSize}
    (h : Announces entries size) : ofFields (Fields.ofList entries) = .ok size := by
  cases h with
  | nothing hlength hcoding =>
    rw [ofFields, Fields.get?_ofList_of_hasNone hlength, Fields.get?_ofList_of_hasNone hcoding]
  | length hlength hcoding hne hvalue hlt =>
    rw [ofFields, Fields.get?_ofList_of_hasOnly hlength, Fields.get?_ofList_of_hasNone hcoding]
    exact ofDeclaredLength_eq hne hvalue hlt
  | chunked hlength hcoding hvalue =>
    rw [ofFields, Fields.get?_ofList_of_hasNone hlength, Fields.get?_ofList_of_hasOnly hcoding]
    simp [endsInChunked_eq_true hvalue]

end CoopHttp
