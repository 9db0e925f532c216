import CoopHttp.Proofs.Payload.Framing

/-!
# Framing fields that are repeated

Several lines of one name mean what one line with all their values does: the transfer codings are those
of all lines, one behind the other, and lengths that differ leave no length to go by. The reader of the
framing looks at the first line of each name. It decides as it should just if that line stands for all.
-/
namespace CoopHttp

theorem Bytes.splitOn_ne_nil (separator : UInt8) (s : Bytes) : Bytes.splitOn separator s ≠ [] := by
  cases s with
  | nil => simp [Bytes.splitOn]
  | cons b s =>
    rw [Bytes.splitOn]
    split
    · simp
    · split_ifs <;> simp

namespace PayloadSize

/-- The codings that the lines of a field list, in order. -/
def codings (values : List FieldValue) : List Bytes :=
  values.flatMap fun value => Bytes.listMembers value.bytes

/-- The last coding of the lines is `chunked`, in any case. -/
def LastIsChunked (values : List FieldValue) : Prop :=
  ∃ coding ∈ (codings values).getLast?, Bytes.equalsIgnoringCase coding (ascii "chunked") = true

/-- Two lines of a field have different values. -/
def Differ (values : List FieldValue) : Prop := ∃ v ∈ values, ∃ w ∈ values, v ≠ w

structure DecidedByAll (fields : Fields) : Prop where
  chunked_iff : fields.getAll .contentLength = [] →
    (ofFields fields = .ok .chunked ↔ LastIsChunked (fields.getAll .transferEncoding))
  refused : fields.getAll .transferEncoding = [] → Differ (fields.getAll .contentLength) →
    ∃ fault, ofFields fields = .error (.invalidContentLength fault)

/-- The first line of a framing field stands for all of them: it ends in `chunked` if the last one does
and only then, and it is no length if there is another line that differs from it. -/
structure FirstForAll (fields : Fields) : Prop where
  coding : fields.getAll .contentLength = [] →
    ∀ first ∈ (fields.getAll .transferEncoding).head?,
      ∀ last ∈ (fields.getAll .transferEncoding).getLast?,
        endsInChunked first.bytes = endsInChunked last.bytes
  length : fields.getAll .transferEncoding = [] → Differ (fields.getAll .contentLength) →
    ∀ first ∈ (fields.getAll .contentLength).head?, ∀ size, ofDeclaredLength first ≠ .ok size

/-! The last coding. -/

theorem endsInChunked_iff (value : Bytes) :
    endsInChunked value = true ↔ ∃ coding ∈ (Bytes.listMembers value).getLast?,
      Bytes.equalsIgnoringCase coding (ascii "chunked") = true := by
  rw [endsInChunked]
  cases (Bytes.listMembers value).getLast? <;> simp

/-- The last coding stands in the last line. -/
theorem getLast?_codings (values : List FieldValue) (last : FieldValue) :
    (codings (values ++ [last])).getLast? = (Bytes.listMembers last.bytes).getLast? := by
  have hne : Bytes.listMembers last.bytes ≠ [] := by
    simp [Bytes.listMembers, Bytes.splitOn_ne_nil]
  rw [codings, List.flatMap_append, List.flatMap_singleton, List.getLast?_append,
    List.getLast?_eq_some_getLast hne, Option.some_or]

theorem lastIsChunked_iff (values : List FieldValue) :
    LastIsChunked values ↔ ∃ last ∈ values.getLast?, endsInChunked last.bytes = true := by
  induction values using List.reverseRecOn with
  | nil => simp [LastIsChunked, codings]
  | append_singleton values last =>
    rw [LastIsChunked, getLast?_codings, ← endsInChunked_iff]
    simp

/-! The first line. -/

/-- Without a content length, the first line of the transfer encoding decides. -/
theorem ofFields_eq_chunked_iff {fields : Fields} (h : fields.getAll .contentLength = []) :
    ofFields fields = .ok .chunked ↔
      ∃ first ∈ (fields.getAll .transferEncoding).head?, endsInChunked first.bytes = true := by
  rw [ofFields, Fields.get?, Fields.get?, h]
  cases (fields.getAll .transferEncoding).head? with
  | none => simp
  | some first => cases hchunked : endsInChunked first.bytes <;> simp [hchunked]

/-- Without a transfer encoding, the first line of the content length decides. -/
theorem ofFields_eq_ofDeclaredLength {fields : Fields} {first : FieldValue}
    (h : fields.getAll .transferEncoding = [])
    (hfirst : (fields.getAll .contentLength).head? = some first) :
    ofFields fields = ofDeclaredLength first := by
  rw [ofFields, Fields.get?, Fields.get?, h, hfirst]
  rfl

theorem ofDeclaredLength_cases (value : FieldValue) :
    (∃ size, ofDeclaredLength value = .ok size) ∨
      ∃ fault, ofDeclaredLength value = .error (.invalidContentLength fault) := by
  unfold ofDeclaredLength
  split
  · exact .inr ⟨_, rfl⟩
  · split
    · exact .inr ⟨_, rfl⟩
    · exact .inl ⟨_, rfl⟩

/-- The framing of a payload is refused for the content length only. -/
theorem ofFields_cases (fields : Fields) :
    (∃ size, ofFields fields = .ok size) ∨
      ∃ fault, ofFields fields = .error (.invalidContentLength fault) := by
  unfold ofFields
  split
  · exact .inl ⟨_, rfl⟩
  · exact .inl ⟨_, rfl⟩
  · exact ofDeclaredLength_cases _
  · exact .inr ⟨_, rfl⟩

theorem chunked_iff_iff {fields : Fields} (h : fields.getAll .contentLength = []) :
    (ofFields fields = .ok .chunked ↔ LastIsChunked (fields.getAll .transferEncoding)) ↔
      ∀ first ∈ (fields.getAll .transferEncoding).head?,
        ∀ last ∈ (fields.getAll .transferEncoding).getLast?,
          endsInChunked first.bytes = endsInChunked last.bytes := by
  rw [ofFields_eq_chunked_iff h, lastIsChunked_iff]
  cases hvalues : fields.getAll .transferEncoding with
  | nil => simp
  | cons first values =>
    rw [List.getLast?_eq_some_getLast (List.cons_ne_nil first values)]
    simp only [List.head?_cons, Option.mem_some_iff, exists_eq_left', forall_eq']
    exact Bool.eq_iff_iff.symm

theorem refused_iff {fields : Fields} (h : fields.getAll .transferEncoding = [])
    (hdiffer : Differ (fields.getAll .contentLength)) :
    (∃ fault, ofFields fields = .error (.invalidContentLength fault)) ↔
      ∀ first ∈ (fields.getAll .contentLength).head?,
        ∀ size, ofDeclaredLength first ≠ .ok size := by
  obtain ⟨v, hv, -⟩ := hdiffer
  obtain ⟨first, hfirst⟩ := Option.isSome_iff_exists.1
    (List.isSome_head?.2 (List.ne_nil_of_mem hv))
  rw [ofFields_eq_ofDeclaredLength h hfirst, hfirst]
  obtain ⟨size, hsize⟩ | ⟨fault, hfault⟩ := ofDeclaredLength_cases first
  · simp [hsize]
  · simp [hfault]

/-- The framing is decided by all lines of the framing fields if the first line stands for them, and
only then. -/
theorem decidedByAll_iff_firstForAll (fields : Fields) :
    DecidedByAll fields ↔ FirstForAll fields := by
  constructor
  · intro h
    exact ⟨fun hlength => (chunked_iff_iff hlength).1 (h.chunked_iff hlength),
      fun hcoding hdiffer => (refused_iff hcoding hdiffer).1 (h.refused hcoding hdiffer)⟩
  · intro h
    exact ⟨fun hlength => (chunked_iff_iff hlength).2 (h.coding hlength),
      fun hcoding hdiffer => (refused_iff hcoding hdiffer).2 (h.length hcoding hdiffer)⟩

/-- A request with a transfer encoding in two lines. -/
def twoCodings : Bytes :=
  ascii "POST / HTTP/1.1\r\nTransfer-Encoding: gzip\r\nTransfer-Encoding: chunked\r\n\r\n"

def twoLengths : Bytes :=
  ascii "POST / HTTP/1.1\r\nContent-Length: 5\r\nContent-Length: 6\r\n\r\n"

theorem isToken_post : isToken (ascii "POST") = true := by decide

/-- The head of a request to `/` with these fields. -/
def postHead (entries : List (FieldName × FieldValue)) : RequestHead :=
  ⟨⟨ascii "POST", isToken_post⟩, ⟨none, [], ascii "/", none⟩, .http11, .ofList entries⟩

/-- The values of two lines that differ. -/
def fiveAndSix : List FieldValue := [⟨ascii "5", by decide⟩, ⟨ascii "6", by decide⟩]

/-- Chunks that the second line announces are not read, and one of two lengths is believed. -/
theorem repeated_misread :
    (∃ head, (RequestHead.decode twoCodings).result = .ok (some (head, .empty)) ∧
      ¬ DecidedByAll head.fields) ∧
    ∃ head, (RequestHead.decode twoLengths).result = .ok (some (head, .length 5)) ∧
      ¬ DecidedByAll head.fields := by
  constructor
  · refine ⟨postHead [(.transferEncoding, .gzip), (.transferEncoding, .chunked)],
      by decide +kernel, fun hall => ?_⟩
    have hlast : LastIsChunked [.gzip, .chunked] :=
      (lastIsChunked_iff _).2 ⟨.chunked, rfl, by decide⟩
    exact absurd ((hall.chunked_iff rfl).2 hlast) (by decide)
  · refine ⟨postHead (fiveAndSix.map fun value => (.contentLength, value)), by decide +kernel,
      fun hall => ?_⟩
    have hdiffer : Differ fiveAndSix :=
      ⟨_, List.mem_cons_self, _, List.mem_cons_of_mem _ (List.mem_singleton_self _), by decide⟩
    obtain ⟨fault, hfault⟩ := hall.refused rfl hdiffer
    have hbelieved : ofFields (postHead (fiveAndSix.map fun value => (.contentLength, value))).fields =
        .ok (.length 5) := by decide
    cases hbelieved.symm.trans hfault

end PayloadSize

end CoopHttp
