import CoopHttp.Proofs.Chunked.Fragmentation
import CoopHttp.Proofs.Frame.Payload
import CoopHttp.Proofs.Head.Padding

/-!
# Trailer sections

The decoder of chunks hands over the lines in front of an empty one, whatever they hold; the reader of
field lines stops at an empty line. The two agree on what a line is. So a trailer section is read to
its end, every line of it as one field, or it is refused for a line that is no field line, or because
it has too many of them; no line is dropped.
-/
namespace CoopHttp

namespace Grammar

/-! A line that has arrived is never waited for. -/

/-- A word ends in front of the line feed at the latest. -/
theorem exists_span_of_lf {p : UInt8 → Bool} (hp : p Bytes.lf = false) {s : Bytes}
    (hs : Bytes.lf ∈ s) : ∃ word b rest, s.span p = (word, b :: rest) ∧ Bytes.lf ∈ b :: rest := by
  have hrest : Bytes.lf ∈ s.dropWhile p := by
    rw [← List.takeWhile_append_dropWhile (p := p) (l := s), List.mem_append] at hs
    refine hs.resolve_left fun hmem => ?_
    rw [List.mem_takeWhile_imp hmem] at hp
    cases hp
  obtain ⟨b, rest, hcons⟩ := List.exists_cons_of_ne_nil (List.ne_nil_of_mem hrest)
  refine ⟨s.takeWhile p, b, rest, ?_, hcons ▸ hrest⟩
  rw [List.span_eq_takeWhile_dropWhile, hcons]

theorem fieldName_of_lf {s : Bytes} (hs : Bytes.lf ∈ s) :
    fieldName s = .bad (.invalidHeader .invalidName) ∨
      ∃ word rest, fieldName s = .done word rest ∧ Bytes.lf ∈ rest := by
  obtain ⟨word, b, rest, hspan, hmem⟩ := exists_span_of_lf (p := isWordByte) (by decide) hs
  simp only [fieldName, hspan]
  split_ifs with h
  · obtain ⟨rfl, -⟩ := h
    exact .inr ⟨word, rest, rfl, (List.mem_cons.1 hmem).resolve_left (by decide)⟩
  · exact .inl rfl

theorem lineBreak_of_lf (fault : HeadFault) {s : Bytes} (hs : Bytes.lf ∈ s) :
    lineBreak fault s = .bad (.invalidHeader fault) ∨ ∃ rest, lineBreak fault s = .done () rest := by
  cases s with
  | nil => cases hs
  | cons b s =>
    rw [lineBreak]
    split_ifs with hlf hcr
    · exact .inr ⟨s, rfl⟩
    · -- Behind the CR there is more, for the line feed is still to come.
      cases s with
      | nil => exact absurd (List.mem_singleton.1 hs).symm hlf
      | cons c s =>
        rw [lineFeed]
        split_ifs
        · exact .inr ⟨s, rfl⟩
        · exact .inl rfl
    · exact .inl rfl

theorem fieldValue_of_lf {s : Bytes} (hs : Bytes.lf ∈ s) :
    fieldValue s = .bad (.invalidHeader .invalidValue) ∨
      ∃ value rest, fieldValue s = .done value rest := by
  obtain ⟨before, b, line, hbefore, hline⟩ := exists_span_of_lf (p := Bytes.isBlank) (by decide) hs
  obtain ⟨word, c, rest, hspan, hrest⟩ := exists_span_of_lf (p := isTextByte) (by decide) hline
  rw [List.span_eq_takeWhile_dropWhile, Prod.mk.injEq] at hbefore
  simp only [fieldValue, hbefore.2, hspan]
  obtain hbad | ⟨later, hdone⟩ := lineBreak_of_lf .invalidValue hrest
  · rw [hbad]
    exact .inl rfl
  · rw [hdone]
    exact .inr ⟨_, later, rfl⟩

/-- A line that has arrived is a field line, or it is refused for its name or its value. -/
theorem fieldLine_of_lf {s : Bytes} (hs : Bytes.lf ∈ s) :
    (∃ fault ∈ [HeadFault.invalidName, .invalidValue],
      fieldLine s = .bad (.invalidHeader fault)) ∨
      ∃ (f : FieldText) (rest : Bytes), s = f.bytes ++ rest ∧ fieldLine s = .done f.line rest := by
  obtain hname | ⟨name, mid, hname, hmid⟩ := fieldName_of_lf hs
  · exact .inl ⟨.invalidName, by simp, by rw [fieldLine, hname]; rfl⟩
  · obtain hvalue | ⟨value, rest, hvalue⟩ := fieldValue_of_lf hmid
    · exact .inl ⟨.invalidValue, by simp, by rw [fieldLine, hname, Scan.bind, hvalue]; rfl⟩
    · have hdone : fieldLine s = .done ⟨name, value⟩ rest := by
        rw [fieldLine, hname, Scan.bind, hvalue]
        rfl
      obtain ⟨f, hf, hbytes⟩ := fieldLine_eq_done_iff.1 hdone
      exact .inr ⟨f, rest, hbytes, hf ▸ hdone⟩

end Grammar

/-! A trailer line as a field line. -/

namespace TrailerLine

def IsField (l : TrailerLine) : Prop := ∃ f : FieldText, f.bytes = l.bytes

/-- The line holds the field: what stands in front of its first colon is the name, in any case, and
what stands behind it is the value with white space around it. -/
def Holds (l : TrailerLine) (entry : FieldName × FieldValue) : Prop :=
  ∃ name rest, l.bytes = name ++ 58 :: rest ∧ 58 ∉ name ∧
    name.map Bytes.lower = entry.1.bytes ∧ Bytes.trim rest = entry.2.bytes

/-- A trailer line that begins like a line break is none. -/
theorem lineBreak_bytes (l : TrailerLine) {b : UInt8} {front : Bytes} (hfront : l.front = b :: front)
    (hb : isBreakByte b = true) (fault : HeadFault) (rest : Bytes) :
    Grammar.lineBreak fault (l.bytes ++ rest) = .bad (.invalidHeader fault) := by
  have hlf : Bytes.lf ∉ b :: front := hfront ▸ l.lf_notMem
  have hcr : b = Bytes.cr := by
    rw [isBreakByte, Bool.or_eq_true, beq_iff_eq, beq_iff_eq] at hb
    exact hb.resolve_right fun heq => hlf (heq ▸ List.mem_cons_self)
  cases front with
  | nil => exact absurd (hfront.trans (by rw [hcr])) l.ne_cr
  | cons c front =>
    have hc : c ≠ Bytes.lf := fun heq => hlf (by simp [heq])
    rw [bytes, hfront, hcr]
    simp [Grammar.lineBreak, Grammar.lineFeed, hc]

/-- A field line at the front of a trailer line is that line. -/
theorem eq_of_append_eq {l : TrailerLine} {f : FieldText} {s rest : Bytes}
    (h : l.bytes ++ s = f.bytes ++ rest) : f.bytes = l.bytes ∧ rest = s := by
  have hlf : Bytes.lf ∉ f.front ++ f.ending.lead := by
    intro hmem
    obtain hmem | hmem := List.mem_append.1 hmem
    · exact absurd (f.not_break_of_mem_front _ hmem) (by decide)
    · exact f.ending.lf_notMem_lead hmem
  have hbytes : f.bytes = f.front ++ f.ending.lead ++ [Bytes.lf] := by
    rw [FieldText.bytes, LineBreak.bytes_eq, List.append_assoc]
  rw [hbytes, bytes, ← List.append_cons, ← List.append_cons] at h
  obtain ⟨hfront, hrest⟩ := Bytes.line_inj l.lf_notMem hlf h
  exact ⟨by rw [hbytes, bytes, hfront], hrest.symm⟩

theorem holds_of_spells {l : TrailerLine} {f : FieldText} {entry : FieldName × FieldValue}
    (hbytes : f.bytes = l.bytes) (h : f.Spells entry) : l.Holds entry := by
  have hname : 58 ∉ f.name := fun hmem =>
    absurd (((isToken_iff f.name).1 f.isToken_name).2 _ hmem) (by decide)
  have hending : ∀ b ∈ f.ending.bytes, Bytes.isSpace b = true :=
    List.all_eq_true.1 (by cases f.ending <;> decide)
  refine ⟨f.name, f.before ++ (f.value ++ (f.after ++ f.ending.bytes)), ?_, hname, h.1, ?_⟩
  · rw [← hbytes]
    simp [FieldText.bytes, FieldText.front]
  · rw [Bytes.trim_append (fun b hb => Bytes.isSpace_of_isBlank (f.isBlank_before b hb)) f.trimmed_value,
      h.2]
    intro b hb
    obtain hb | hb := List.mem_append.1 hb
    · exact Bytes.isSpace_of_isBlank (f.isBlank_after b hb)
    · exact hending b hb

end TrailerLine

/-! Reading the lines of a trailer section. -/

theorem trailerBytes_cons (l : TrailerLine) (lines : List TrailerLine) :
    trailerBytes (l :: lines) = l.bytes ++ trailerBytes lines := rfl

/-- The faults that a trailer section is refused for. -/
def trailerFaults : List HeadFault := [.invalidName, .invalidValue, .invalidNewLine]

/-- A trailer section is read to the empty line behind it, each line as one field line, unless it is
refused. -/
theorem Grammar.fieldLines_trailerBytes (room : ℕ) (lines : List TrailerLine) :
    (∃ fault ∈ trailerFaults,
      fieldLines room (trailerBytes lines ++ Bytes.crlf) = .bad (.invalidHeader fault)) ∨
    fieldLines room (trailerBytes lines ++ Bytes.crlf) = .bad (.tooManyHeaders maxFields) ∨
    ∃ fields : List FieldText, fields.map FieldText.bytes = lines.map TrailerLine.bytes ∧
      fields.length ≤ room := by
  induction lines generalizing room with
  | nil => exact .inr (.inr ⟨[], rfl, Nat.zero_le _⟩)
  | cons l lines ih =>
    obtain ⟨b, front, hfront⟩ := List.exists_cons_of_ne_nil l.ne_nil
    rw [trailerBytes_cons, List.append_assoc]
    have hcons : l.bytes ++ (trailerBytes lines ++ Bytes.crlf) =
        b :: (front ++ [Bytes.lf] ++ (trailerBytes lines ++ Bytes.crlf)) := by
      rw [TrailerLine.bytes, hfront]
      rfl
    cases hb : isBreakByte b with
    | true =>
      refine .inl ⟨.invalidNewLine, by simp [trailerFaults], ?_⟩
      have hbad := l.lineBreak_bytes hfront hb .invalidNewLine (trailerBytes lines ++ Bytes.crlf)
      rw [hcons] at hbad ⊢
      rw [fieldLines_of_break hb, hbad]
      rfl
    | false =>
      have hlf : Bytes.lf ∈ l.bytes ++ (trailerBytes lines ++ Bytes.crlf) := by
        simp [TrailerLine.bytes]
      rw [hcons, fieldLines_of_not_break hb, ← hcons]
      obtain ⟨fault, hfault, hbad⟩ | ⟨f, rest, hbytes, hdone⟩ := fieldLine_of_lf hlf
      · rw [hbad]
        refine .inl ⟨fault, ?_, rfl⟩
        simp only [trailerFaults, List.mem_cons] at hfault ⊢
        tauto
      · obtain ⟨hline, rfl⟩ := TrailerLine.eq_of_append_eq hbytes
        rw [hdone]
        cases room with
        | zero => exact .inr (.inl rfl)
        | succ room =>
          obtain ⟨fault, hfault, hbad⟩ | hmany | ⟨fields, hfields, hroom⟩ := ih room
          · exact .inl ⟨fault, hfault, by simp only [Scan.bind, hbad]; rfl⟩
          · exact .inr (.inl (by simp only [Scan.bind, hmany]; rfl))
          · exact .inr (.inr ⟨f :: fields, by simp [hline, hfields], Nat.succ_le_succ hroom⟩)

/-- What a trailer section of some lines is read as: it is refused for a line that is no field line, or
for too many lines, or every line of it is read as the field that it holds. -/
inductive ReadAs (lines : List TrailerLine) : Except ParseError Fields → Prop
  | faulty {fault : HeadFault} (h : fault ∈ trailerFaults) :
    ReadAs lines (.error (.invalidHeader fault))
  | tooMany : ReadAs lines (.error (.tooManyHeaders 64))
  | read {entries : List (FieldName × FieldValue)} {fields : Fields} (hcount : lines.length ≤ 64)
    (h : List.Forall₂ TrailerLine.Holds lines entries) (hfields : fields.entries = Fields.grouped entries) :
    ReadAs lines (.ok fields)

namespace FrameReader

/-- Lines that are field lines, and not too many of them, are all read. -/
theorem readTrailers_of_fields {lines : List TrailerLine} {fields : List FieldText}
    (hbytes : fields.map FieldText.bytes = lines.map TrailerLine.bytes) (hcount : fields.length ≤ 64)
    (hlength : (trailerBytes lines).length ≤ ChunkedDecoder.maxTrailer) :
    ∃ entries, List.Forall₂ TrailerLine.Holds lines entries ∧
      readTrailers (trailerBytes lines) = .ok (Fields.ofList entries) := by
  have hsection : fieldBytes fields = trailerBytes lines := by rw [fieldBytes, hbytes, trailerBytes]
  have hshort : (fieldBytes fields).length ≤ maxFieldName :=
    hsection ▸ hlength.trans (by decide)
  obtain ⟨entries, hspells⟩ := exists_forall₂_spells hshort
  refine ⟨entries, ?_, hsection ▸ readTrailers_eq hcount hspells⟩
  clear hsection hshort hcount hlength
  induction hspells generalizing lines with
  | nil => rw [List.map_eq_nil_iff.1 hbytes.symm]; exact .nil
  | cons hspells _ ih =>
    obtain ⟨l, lines, rfl, hl, hlines⟩ := List.map_eq_cons_iff.1 hbytes.symm
    exact .cons (TrailerLine.holds_of_spells hl.symm hspells) (ih hlines.symm)

/-- The lines of a trailer section all come back, or it is refused. -/
theorem readAs_readTrailers {lines : List TrailerLine}
    (hlength : (trailerBytes lines).length ≤ ChunkedDecoder.maxTrailer) :
    ReadAs lines (readTrailers (trailerBytes lines)) := by
  obtain ⟨fault, hfault, hbad⟩ | hmany | ⟨fields, hbytes, hcount⟩ :=
    Grammar.fieldLines_trailerBytes Grammar.maxFields lines
  · rw [readTrailers, hbad]
    exact .faulty hfault
  · rw [readTrailers, hmany]
    exact .tooMany
  · obtain ⟨entries, hholds, hread⟩ := readTrailers_of_fields hbytes hcount hlength
    have hlines : lines.length = fields.length := by simpa using (congrArg List.length hbytes).symm
    rw [hread]
    exact .read (hlines ▸ hcount) hholds (Fields.entries_ofList entries)

theorem exists_fields_iff {lines : List TrailerLine} :
    (∃ fields : List FieldText, fields.map FieldText.bytes = lines.map TrailerLine.bytes) ↔
      ∀ l ∈ lines, l.IsField := by
  constructor
  · rintro ⟨fields, hbytes⟩ l hl
    have hmem : l.bytes ∈ fields.map FieldText.bytes := hbytes ▸ List.mem_map_of_mem hl
    obtain ⟨f, -, hf⟩ := List.mem_map.1 hmem
    exact ⟨f, hf⟩
  · intro h
    induction lines with
    | nil => exact ⟨[], rfl⟩
    | cons l lines ih =>
      obtain ⟨f, hf⟩ := h l (by simp)
      obtain ⟨fields, hfields⟩ := ih fun l hl => h l (by simp [hl])
      exact ⟨f :: fields, by simp [hf, hfields]⟩

/-- A trailer section is accepted just if its lines are field lines and not too many. -/
theorem exists_readTrailers_eq_ok_iff {lines : List TrailerLine}
    (hlength : (trailerBytes lines).length ≤ ChunkedDecoder.maxTrailer) :
    (∃ fields, readTrailers (trailerBytes lines) = .ok fields) ↔
      lines.length ≤ 64 ∧ ∀ l ∈ lines, l.IsField := by
  rw [← exists_fields_iff]
  constructor
  · rintro ⟨fields, hread⟩
    obtain ⟨fault, -, hbad⟩ | hmany | ⟨texts, hbytes, hcount⟩ :=
      Grammar.fieldLines_trailerBytes Grammar.maxFields lines
    · rw [readTrailers, hbad] at hread
      cases hread
    · rw [readTrailers, hmany] at hread
      cases hread
    · have hlines : texts.length = lines.length := by simpa using congrArg List.length hbytes
      exact ⟨hlines ▸ hcount, texts, hbytes⟩
  · rintro ⟨hcount, texts, hbytes⟩
    have hlines : texts.length = lines.length := by simpa using congrArg List.length hbytes
    obtain ⟨entries, -, hread⟩ := readTrailers_of_fields hbytes (hlines ▸ hcount) hlength
    exact ⟨_, hread⟩

end FrameReader

/-- What a decoder hands over as the trailer section of a payload is lines that are not empty. -/
theorem ChunkedDecoder.exists_lines_of_complete {segments : List Bytes} {data trailer rest : Bytes}
    (h : verdict segments = .complete data trailer rest) :
    ∃ lines : List TrailerLine, trailer = trailerBytes lines ∧ trailer.length ≤ maxTrailer := by
  obtain heq | ⟨hrefused, -⟩ := verdict_flatten segments
  · rw [heq, verdict, verdictFrom_singleton, List.nil_append, Halt.verdict] at h
    split at h
    · rename_i hended
      obtain ⟨-, rfl, -⟩ := h
      obtain ⟨t, -, -, htrailer⟩ := exists_of_ended rfl hended
      exact ⟨t.lines, htrailer, htrailer ▸ t.length_lines_le⟩
    · cases h
    · cases h
  · rw [hrefused] at h
    cases h

namespace FrameReader

/-- However a chunked payload arrives, no line of its trailer section is dropped: the section is lines
that are not empty, each of which is read as one field, in order; or the section is refused, just if
some line is no field line or there are more than 64 of them. -/
theorem readAs_of_complete {segments : List Bytes} {data trailer rest : Bytes}
    (h : ChunkedDecoder.verdict segments = .complete data trailer rest) :
    ∃ lines : List TrailerLine, trailer = trailerBytes lines ∧ ReadAs lines (readTrailers trailer) ∧
      ((∃ fields, readTrailers trailer = .ok fields) ↔
        lines.length ≤ 64 ∧ ∀ l ∈ lines, l.IsField) := by
  obtain ⟨lines, rfl, hlength⟩ := ChunkedDecoder.exists_lines_of_complete h
  exact ⟨lines, rfl, readAs_readTrailers hlength, exists_readTrailers_eq_ok_iff hlength⟩

/-- A payload without data whose trailer lines have mixed line breaks and a name that comes twice. -/
def mixedTrailer : ChunkedText where
  chunks := []
  last := ChunkedDecoder.zeroLine
  lines := [⟨ascii "X-A: 1\r", by decide, by decide, by decide⟩,
    ⟨ascii "x-b:\r", by decide, by decide, by decide⟩,
    ⟨ascii "x-a:\t2 ", by decide, by decide, by decide⟩]
  ending := .crlf
  size_last := ChunkedDecoder.size_zeroLine
  length_lines_le := by decide

theorem readAs_mixedTrailer :
    ChunkedDecoder.verdict [ascii "0\nX-A: 1\r", ascii "\nx-b:\r\nx-a:\t2 \n\r", ascii "\nGET"] =
      .complete [] mixedTrailer.trailer (ascii "GET") ∧
    ∃ lines : List TrailerLine, mixedTrailer.trailer = trailerBytes lines ∧
      ReadAs lines (readTrailers mixedTrailer.trailer) ∧
      ((∃ fields, readTrailers mixedTrailer.trailer = .ok fields) ↔
        lines.length ≤ 64 ∧ ∀ l ∈ lines, l.IsField) := by
  have hverdict : ChunkedDecoder.verdict
      [ascii "0\nX-A: 1\r", ascii "\nx-b:\r\nx-a:\t2 \n\r", ascii "\nGET"] =
        .complete [] mixedTrailer.trailer (ascii "GET") :=
    ChunkedDecoder.verdict_of_flatten_eq (t := mixedTrailer) (by decide +kernel) (by decide)
  exact ⟨hverdict, readAs_of_complete hverdict⟩

end FrameReader

end CoopHttp
