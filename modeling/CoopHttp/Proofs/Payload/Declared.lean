import CoopHttp.Proofs.Head.Padding
import CoopHttp.Proofs.Payload.Repeated

/-!
# Declared lengths

A content length is a numeral below 2^64 with blanks around it, and the size of the payload is its
value. The reader of numbers takes one thing more for a length, a numeral behind a plus sign;
everything else it refuses.
-/
namespace CoopHttp

/-- The text is a decimal numeral, digits only and at least one, of a number below the bound. -/
structure Decimal.IsNumeral (bound : ℕ) (text : Bytes) (n : ℕ) : Prop where
  ne_nil : text ≠ []
  value_eq : numeralValue? 10 decimalDigit? text = some n
  lt_bound : n < bound

namespace Decimal

theorem numeral?_filter_eq_some_iff {bound n : ℕ} {text : Bytes} :
    (numeral? text).filter (· < bound) = some n ↔ IsNumeral bound text n := by
  rw [Option.filter_eq_some_iff, numeral?, digits?_eq, decide_eq_true_eq]
  split_ifs with hnil
  · exact ⟨fun h => absurd h.1 (by simp), fun h => absurd hnil h.ne_nil⟩
  · exact ⟨fun h => ⟨hnil, h.1, h.2⟩, fun h => ⟨h.value_eq, h.lt_bound⟩⟩

theorem IsNumeral.isDigit {bound n : ℕ} {text : Bytes} (h : IsNumeral bound text n) :
    ∀ b ∈ text, Bytes.isDigit b = true := by
  intro b hb
  obtain ⟨d, hd⟩ := exists_digit_of_numeralValue? h.value_eq b hb
  exact isDigit_of_decimalDigit? hd

/-- The reader of numbers takes numerals below the bound, and numerals behind one plus sign. -/
theorem natural?_eq_some_iff {bound n : ℕ} {text : Bytes} :
    natural? bound text = some n ↔
      IsNumeral bound text n ∨ ∃ rest, text = 43 :: rest ∧ IsNumeral bound rest n := by
  by_cases hplus : ∃ rest, text = 43 :: rest
  · obtain ⟨rest, rfl⟩ := hplus
    have hsign : ¬ IsNumeral bound (43 :: rest) n := fun h =>
      absurd (h.isDigit 43 (by simp)) (by decide)
    rw [natural?, numeral?_filter_eq_some_iff]
    simp [hsign]
  · have hbody : natural? bound text = (numeral? text).filter (· < bound) := by
      unfold natural?
      split
      · exact absurd ⟨_, rfl⟩ hplus
      · rfl
    rw [hbody, numeral?_filter_eq_some_iff]
    exact ⟨.inl, fun h => h.resolve_right fun hrest => hplus (hrest.imp fun _ => And.left)⟩

end Decimal

namespace PayloadSize

/-- The value is a decimal numeral of this number, below 2^64, with blanks around it. -/
def Declares (value : FieldValue) (n : ℕ) : Prop :=
  ∃ text, value.bytes.Pads text ∧ Decimal.IsNumeral UInt64.size text n

/-- The value is such a numeral with a plus sign in front of it. -/
def DeclaresSigned (value : FieldValue) (n : ℕ) : Prop :=
  ∃ text, value.bytes.Pads (43 :: text) ∧ Decimal.IsNumeral UInt64.size text n

/-- The fields have a payload of declared length if their one content length is a numeral below 2^64
with blanks around it, and then it is as long as the numeral says; else they are refused. -/
structure LengthIsNumeral (fields : Fields) (value : FieldValue) : Prop where
  ok_iff : ∀ size, ofFields fields = .ok size ↔
    ∃ n, Declares value n ∧ size = if n = 0 then .empty else .length n
  refused : (¬ ∃ n, Declares value n) →
    ∃ fault, ofFields fields = .error (.invalidContentLength fault)

/-! What the reader makes of one value. -/

theorem visible?_eq_some_iff {value : FieldValue} {text : Bytes} :
    value.visible? = some text ↔ text = value.bytes ∧ ∀ b ∈ value.bytes, b < 128 := by
  rw [FieldValue.visible?]
  split_ifs with h
  · have hall : ∀ b ∈ value.bytes, b < 128 := by simpa using h
    exact ⟨fun heq => ⟨(Option.some.inj heq).symm, hall⟩, fun heq => by rw [heq.1]⟩
  · have hnot : ¬ ∀ b ∈ value.bytes, b < 128 := by simpa using h
    exact ⟨fun heq => (by cases heq), fun heq => absurd heq.2 hnot⟩

/-- A text of ASCII with blanks around it is ASCII. -/
theorem lt_of_pads {s text : Bytes} (h : s.Pads text) (htext : ∀ b ∈ text, b < 128) :
    ∀ b ∈ s, b < 128 := by
  have hblank : ∀ b : UInt8, Bytes.isBlank b = true → b < 128 := by
    intro b hb
    rw [Bytes.isBlank, Bool.or_eq_true, beq_iff_eq, beq_iff_eq] at hb
    obtain rfl | rfl := hb <;> decide
  obtain ⟨before, after, rfl, hbefore, hafter⟩ := h
  intro b hb
  simp only [List.mem_append] at hb
  obtain (hb | hb) | hb := hb
  · exact hblank b (hbefore b hb)
  · exact htext b hb
  · exact hblank b (hafter b hb)

/-- Text that the reader of numbers takes is ASCII, without white space. -/
theorem plain_of_natural? {bound n : ℕ} {text : Bytes} (h : Decimal.natural? bound text = some n) :
    ∀ b ∈ text, b < 128 ∧ Bytes.isSpace b = false := by
  obtain hnumeral | ⟨rest, rfl, hnumeral⟩ := Decimal.natural?_eq_some_iff.1 h
  · intro b hb
    have hfacts := not_isSpace_of_isDigit (hnumeral.isDigit b hb)
    exact ⟨hfacts.1, hfacts.2.1⟩
  · intro b hb
    obtain rfl | hb := List.mem_cons.1 hb
    · decide
    · have hfacts := not_isSpace_of_isDigit (hnumeral.isDigit b hb)
      exact ⟨hfacts.1, hfacts.2.1⟩

/-- The reader takes what has blanks around a text that the reader of numbers takes. -/
theorem ofDeclaredLength_eq_ok_iff {value : FieldValue} {size : PayloadSize} :
    ofDeclaredLength value = .ok size ↔ ∃ text n, value.bytes.Pads text ∧
      Decimal.natural? UInt64.size text = some n ∧ size = ofLength n := by
  have hvalue := List.all_eq_true.1 value.isValue_bytes
  constructor
  · intro h
    unfold ofDeclaredLength at h
    split at h
    · cases h
    · rename_i text hvisible
      obtain ⟨rfl, -⟩ := visible?_eq_some_iff.1 hvisible
      split at h
      · cases h
      · rename_i n hn
        cases h
        exact ⟨_, n, Bytes.pads_trim hvalue, hn, rfl⟩
  · rintro ⟨text, n, hpads, hn, rfl⟩
    have hplain := plain_of_natural? hn
    have hvisible : value.visible? = some value.bytes :=
      visible?_eq_some_iff.2 ⟨rfl, lt_of_pads hpads fun b hb => (hplain b hb).1⟩
    have htrim : Bytes.trim value.bytes = text :=
      Bytes.trim_of_pads hpads (Bytes.trimmed_of_forall fun b hb => (hplain b hb).2)
    rw [ofDeclaredLength, hvisible]
    simp only [htrim, hn]

/-- The reader takes numerals, and numerals behind a plus sign. -/
theorem ofDeclaredLength_eq_ok_iff_declares {value : FieldValue} {size : PayloadSize} :
    ofDeclaredLength value = .ok size ↔
      ∃ n, (Declares value n ∨ DeclaresSigned value n) ∧ size = ofLength n := by
  rw [ofDeclaredLength_eq_ok_iff]
  constructor
  · rintro ⟨text, n, hpads, hn, hsize⟩
    obtain hnumeral | ⟨rest, rfl, hnumeral⟩ := Decimal.natural?_eq_some_iff.1 hn
    · exact ⟨n, .inl ⟨text, hpads, hnumeral⟩, hsize⟩
    · exact ⟨n, .inr ⟨rest, hpads, hnumeral⟩, hsize⟩
  · rintro ⟨n, ⟨text, hpads, hnumeral⟩ | ⟨text, hpads, hnumeral⟩, hsize⟩
    · exact ⟨text, n, hpads, Decimal.natural?_eq_some_iff.2 (.inl hnumeral), hsize⟩
    · exact ⟨43 :: text, n, hpads,
        Decimal.natural?_eq_some_iff.2 (.inr ⟨text, rfl, hnumeral⟩), hsize⟩

/-- A numeral has no sign. -/
theorem not_declares_of_declaresSigned {value : FieldValue} {n m : ℕ} (h : DeclaresSigned value n) :
    ¬ Declares value m := by
  rintro ⟨text, hpads, hnumeral⟩
  obtain ⟨rest, hsigned, hrest⟩ := h
  have hplain := plain_of_natural? (Decimal.natural?_eq_some_iff.2 (.inl hnumeral))
  have hsign := plain_of_natural? (Decimal.natural?_eq_some_iff.2 (.inr ⟨rest, rfl, hrest⟩))
  have heq : text = 43 :: rest :=
    (Bytes.trim_of_pads hpads (Bytes.trimmed_of_forall fun b hb => (hplain b hb).2)).symm.trans
      (Bytes.trim_of_pads hsigned (Bytes.trimmed_of_forall fun b hb => (hsign b hb).2))
  exact absurd (hnumeral.isDigit 43 (by simp [heq])) (by decide)

/-- One content length is taken if it is a numeral below 2^64 or such a numeral behind a plus sign,
and refused else. It is taken as it should be just if it has no plus sign. -/
theorem lengthIsNumeral_iff {fields : Fields} {value : FieldValue}
    (hcoding : fields.getAll .transferEncoding = [])
    (hlength : fields.getAll .contentLength = [value]) :
    (∀ size, ofFields fields = .ok size ↔ ∃ n, (Declares value n ∨ DeclaresSigned value n) ∧
      size = if n = 0 then .empty else .length n) ∧
    ((¬ ∃ n, Declares value n ∨ DeclaresSigned value n) →
      ∃ fault, ofFields fields = .error (.invalidContentLength fault)) ∧
    (LengthIsNumeral fields value ↔ ¬ ∃ n, DeclaresSigned value n) := by
  have hread : ofFields fields = ofDeclaredLength value :=
    ofFields_eq_ofDeclaredLength hcoding (by rw [hlength]; rfl)
  have hok : ∀ size, ofFields fields = .ok size ↔ ∃ n,
      (Declares value n ∨ DeclaresSigned value n) ∧ size = if n = 0 then .empty else .length n := by
    intro size
    rw [hread]
    exact ofDeclaredLength_eq_ok_iff_declares
  have hrefused : (¬ ∃ n, Declares value n ∨ DeclaresSigned value n) →
      ∃ fault, ofFields fields = .error (.invalidContentLength fault) := by
    intro hnot
    obtain ⟨size, hsize⟩ | hfault := ofDeclaredLength_cases value
    · obtain ⟨n, hn, -⟩ := (hok size).1 (hread.trans hsize)
      exact absurd ⟨n, hn⟩ hnot
    · rwa [hread]
  refine ⟨hok, hrefused, fun h => ?_, fun hsigned => ⟨fun size => ?_, fun hnot => ?_⟩⟩
  · rintro ⟨n, hn⟩
    obtain ⟨m, hm, -⟩ := (h.ok_iff _).1 ((hok _).2 ⟨n, .inr hn, rfl⟩)
    exact not_declares_of_declaresSigned hn hm
  · rw [hok]
    simp only [not_exists] at hsigned
    simp only [hsigned, or_false]
  · exact hrefused fun ⟨n, hn⟩ => hn.elim (fun h => hnot ⟨n, h⟩) fun h => hsigned ⟨n, h⟩

/-- A length with leading zeros and with blanks around it. -/
def seven : FieldValue := ⟨ascii " 007\t", by decide⟩

theorem declares_seven : Declares seven 7 :=
  ⟨ascii "007", ⟨ascii " ", ascii "\t", by decide, List.all_eq_true.1 (by decide),
    List.all_eq_true.1 (by decide)⟩, by decide, by decide, by decide⟩

theorem lengthIsNumeral_seven :
    (Fields.ofList [(.contentLength, seven)]).getAll .transferEncoding = [] ∧
    (Fields.ofList [(.contentLength, seven)]).getAll .contentLength = [seven] ∧
    LengthIsNumeral (Fields.ofList [(.contentLength, seven)]) seven := by
  refine ⟨by decide, by decide, (lengthIsNumeral_iff (by decide) (by decide)).2.2.2 ?_⟩
  rintro ⟨n, hn⟩
  exact not_declares_of_declaresSigned hn declares_seven

def plusFive : FieldValue := ⟨ascii "+5", by decide⟩

/-- A request with such a length. -/
def signedLength : Bytes := ascii "POST / HTTP/1.1\r\nContent-Length: +5\r\n\r\n"

/-- A length with a plus sign is believed. -/
theorem signedLength_believed :
    ∃ head, (RequestHead.decode signedLength).result = .ok (some (head, .length 5)) ∧
      head.fields.getAll .transferEncoding = [] ∧ head.fields.getAll .contentLength = [plusFive] ∧
      ¬ LengthIsNumeral head.fields plusFive := by
  refine ⟨postHead [(.contentLength, plusFive)], by decide +kernel, by decide, by decide,
    fun h => ?_⟩
  have hbelieved : ofFields (postHead [(.contentLength, plusFive)]).fields = .ok (.length 5) := by
    decide
  obtain ⟨n, hn, -⟩ := (h.ok_iff _).1 hbelieved
  have hsigned : DeclaresSigned plusFive 5 :=
    ⟨ascii "5", Bytes.pads_self _, by decide, by decide, by decide⟩
  exact not_declares_of_declaresSigned hsigned hn

end PayloadSize

end CoopHttp
