import CoopHttp.Proofs.Frame.Terminator
import CoopHttp.Proofs.Head.Response
import CoopHttp.Proofs.Numeral

/-!
# Response heads read back

A response head is a list of lines, none of them empty and none with a line break inside, and the
empty line behind them. So nothing in it looks like the end of the head, whatever follows, and a reader
that cuts it into lines and knows nothing else of the writer finds in them what was written.
-/
namespace CoopHttp

/-! Lines. -/

/-- A line that is not empty and has no octet of a line break inside. -/
structure IsLine (line : Bytes) : Prop where
  ne_nil : line ≠ []
  not_break : ∀ b ∈ line, isBreakByte b = false

namespace Bytes

/-- Lines, each in front of its line break, and the empty line behind them. -/
def ofLines (lines : List Bytes) : Bytes := lines.flatMap (· ++ crlf) ++ crlf

/-- The lines in front of the first empty one, and what stands behind that. Of the first line `line`
has been read already. -/
def linesFrom? (line : Bytes) : Bytes → Option (List Bytes × Bytes)
  | b :: c :: rest =>
    if b = cr ∧ c = lf then
      if line = [] then some ([], rest)
      else (linesFrom? [] rest).map fun (lines, rest) => (line :: lines, rest)
    else linesFrom? (line ++ [b]) (c :: rest)
  | _ => none

theorem linesFrom?_crlf (line rest : Bytes) :
    linesFrom? line (crlf ++ rest) =
      if line = [] then some ([], rest)
      else (linesFrom? [] rest).map fun (lines, rest) => (line :: lines, rest) := by
  simp [linesFrom?, crlf]

/-- Octets of no line break go to the line that is being read. -/
theorem linesFrom?_append {s : Bytes} (h : ∀ b ∈ s, isBreakByte b = false) (line rest : Bytes) :
    linesFrom? line (s ++ (crlf ++ rest)) = linesFrom? (line ++ s) (crlf ++ rest) := by
  induction s generalizing line with
  | nil => simp
  | cons b s ih =>
    have hcr : b ≠ cr := fun heq => isBreakByte_eq_false_iff.1 (h b (by simp)) (.inr heq)
    obtain ⟨c, later, hlater⟩ : ∃ c later, s ++ (crlf ++ rest) = c :: later :=
      List.exists_cons_of_ne_nil (by simp [crlf])
    have hnext := ih (fun c hc => h c (by simp [hc])) (line ++ [b])
    rw [List.cons_append, hlater, linesFrom?, if_neg (fun hbreak => hcr hbreak.1), ← hlater, hnext,
      List.append_assoc, List.singleton_append]

/-- Lines are found again, in front of anything. -/
theorem linesFrom?_ofLines {lines : List Bytes} (h : ∀ line ∈ lines, IsLine line) (rest : Bytes) :
    linesFrom? [] (ofLines lines ++ rest) = some (lines, rest) := by
  induction lines with
  | nil => exact (linesFrom?_crlf [] rest).trans (if_pos rfl)
  | cons line lines ih =>
    have hline := h line (by simp)
    have hcons : ofLines (line :: lines) ++ rest = line ++ (crlf ++ (ofLines lines ++ rest)) := by
      simp [ofLines]
    rw [hcons, linesFrom?_append hline.not_break, List.nil_append, linesFrom?_crlf,
      if_neg hline.ne_nil, ih fun l hl => h l (by simp [hl])]
    rfl

/-- What stands in front of the first separator, and what stands behind it. -/
def cutAt? (separator : UInt8) (s : Bytes) : Option (Bytes × Bytes) :=
  match s.span (· != separator) with
  | (_, []) => none
  | (word, _ :: rest) => some (word, rest)

theorem cutAt?_append {separator : UInt8} {word : Bytes} (h : separator ∉ word) (rest : Bytes) :
    cutAt? separator (word ++ separator :: rest) = some (word, rest) := by
  have hspan : (word ++ separator :: rest).span (· != separator) = (word, separator :: rest) := by
    rw [Grammar.span_eq_iff (by simp)]
    refine ⟨fun b hb => ?_, rfl⟩
    simpa using fun heq : b = separator => h (heq ▸ hb)
  rw [cutAt?, hspan]

end Bytes

namespace Terminator

theorem passes_lines {lines : List Bytes} (h : ∀ line ∈ lines, IsLine line) :
    (behind .crlf).Passes (lines.flatMap (· ++ Bytes.crlf)) (behind .crlf) := by
  induction lines with
  | nil => exact passes_nil _
  | cons line lines ih =>
    have hline := h line (by simp)
    rw [List.flatMap_cons]
    exact (passes_line hline.ne_nil hline.not_break .crlf _).trans
      (ih fun l hl => h l (by simp [hl]))

/-- The matcher finds the end of lines at the empty line behind them, and nowhere before. -/
theorem run_ofLines {lines : List Bytes} (hne : lines ≠ []) (h : ∀ line ∈ lines, IsLine line)
    (rest : Bytes) :
    start.run (Bytes.ofLines lines ++ rest) = (start, (Bytes.ofLines lines).length, some 4) := by
  obtain ⟨line, lines, rfl⟩ := List.exists_cons_of_ne_nil hne
  have hline := h line (by simp)
  have hpasses : start.Passes ((line :: lines).flatMap (· ++ Bytes.crlf)) (behind .crlf) := by
    rw [List.flatMap_cons]
    exact (passes_line hline.ne_nil hline.not_break .crlf start).trans
      (passes_lines fun l hl => h l (by simp [hl]))
  have hclosing : (behind .crlf).run (Bytes.crlf ++ rest) = (start, 2, some 4) := rfl
  rw [Bytes.ofLines, List.append_assoc, hpasses.run_append, hclosing, List.length_append]
  rfl

end Terminator

namespace FieldName

theorem isTokenByte_of_mem (name : FieldName) : ∀ b ∈ name.bytes, isTokenByte b = true := by
  have hname := name.isFieldName_bytes
  simp only [isFieldName, Bool.and_eq_true] at hname
  exact ((isToken_iff _).1 hname.1.1).2

/-- A name is read as itself. -/
theorem ofBytes?_bytes (name : FieldName) : ofBytes? name.bytes = some name := by
  have hname := name.isFieldName_bytes
  have hlower : name.bytes.map Bytes.lower = name.bytes := by
    simp only [isFieldName, Bool.and_eq_true, beq_iff_eq] at hname
    exact hname.1.2
  have hfield : isFieldName (name.bytes.map Bytes.lower) = true := by
    rw [hlower]
    exact hname
  rw [ofBytes?, dif_pos hfield, Option.some.injEq, FieldName.mk.injEq]
  exact hlower

end FieldName

/-! What the lines of a head say. -/

/-- The version a status line begins with. -/
def Version.ofText? (text : Bytes) : Option Version :=
  if text = ascii "HTTP/1.0" then some .http10
  else if text = ascii "HTTP/1.1" then some .http11
  else none

namespace ResponseHead

/-- Reads a status line: a version, a code of three digits, and a reason phrase, which may be any. -/
def readStatusLine? (line : Bytes) : Option (Version × Status) := do
  let (version, line) ← Bytes.cutAt? Bytes.space line
  let (code, _) ← Bytes.cutAt? Bytes.space line
  let version ← Version.ofText? version
  let code ← if code.length = 3 then Decimal.numeral? code else none
  let status ← Status.ofCode? code
  return (version, status)

/-- Reads a field line: a name, a colon and a space, and the value, which is all that follows. -/
def readField? (line : Bytes) : Option (FieldName × FieldValue) := do
  let (name, line) ← Bytes.cutAt? 58 line
  let name ← FieldName.ofBytes? name
  let value ← match line with
    | 32 :: value => FieldValue.ofBytes? value
    | _ => none
  return (name, value)

/-- Reads a head line by line, and gives what follows it. -/
def read? (s : Bytes) : Option (ResponseHead × Bytes) :=
  match Bytes.linesFrom? [] s with
  | some (statusLine :: fieldLines, rest) => do
    let (version, status) ← readStatusLine? statusLine
    let entries ← fieldLines.mapM readField?
    return (⟨status, version, ⟨entries⟩⟩, rest)
  | _ => none

/-- The status line in front of its line break. -/
def statusText (version : Bytes) (status : Status) : Bytes :=
  version ++ Bytes.space :: (Decimal.write status.code ++ Bytes.space :: ascii status.reason)

/-- A field line in front of its line break. -/
def fieldText (entry : FieldName × FieldValue) : Bytes :=
  entry.1.bytes ++ 58 :: Bytes.space :: entry.2.bytes

def lines (version : Bytes) (head : ResponseHead) (size : PayloadSize) : List Bytes :=
  statusText version head.status :: (frame head.fields size).entries.map fieldText

variable {head : ResponseHead} {size : PayloadSize} {version : Bytes}

theorem encode_eq_ofLines (h : versionText? head.version = some version) :
    head.encode size = .ok (Bytes.ofLines (lines version head size)) := by
  have hspace : ascii " " = [Bytes.space] := rfl
  have hcolon : ascii ": " = [58, Bytes.space] := rfl
  rw [encode, h]
  simp [Bytes.ofLines, lines, statusLine, statusText, fieldLine, fieldText, List.flatMap_map,
    hspace, hcolon]

/-! No line has a line break inside. -/

theorem not_break_of_isDigit {b : UInt8} (h : Bytes.isDigit b = true) : isBreakByte b = false :=
  isBreakByte_eq_false_of_isValueByte (isValueByte_of_isDigit h)

/-- Reason phrases are of ordinary characters. -/
theorem not_break_of_mem_reason (status : Status) :
    ∀ b ∈ ascii status.reason, isBreakByte b = false := by
  have hphrase : (ascii status.reason).any isBreakByte = false := by
    unfold Status.reason Status.phrase?
    split <;> decide +kernel
  intro b hb
  simpa using List.any_eq_false.1 hphrase b hb

theorem readable_of_versionText? {v : Version} (h : versionText? v = some version) :
    Version.ofText? version = some v ∧ Bytes.space ∉ version ∧
      ∀ b ∈ version, isBreakByte b = false := by
  cases v with
  | http10 | http11 =>
    cases h
    decide +kernel
  | http09 | http2 | http3 => cases h

theorem isLine_statusText (h : versionText? head.version = some version) :
    IsLine (statusText version head.status) := by
  refine ⟨by simp [statusText], fun b hb => ?_⟩
  simp only [statusText, List.mem_append, List.mem_cons] at hb
  obtain hb | rfl | hb | rfl | hb := hb
  · exact (readable_of_versionText? h).2.2 b hb
  · rfl
  · exact not_break_of_isDigit (List.all_eq_true.1 (Decimal.write_all_isDigit _) b hb)
  · rfl
  · exact not_break_of_mem_reason head.status b hb

theorem isLine_fieldText (entry : FieldName × FieldValue) : IsLine (fieldText entry) := by
  refine ⟨by simp [fieldText], fun b hb => ?_⟩
  simp only [fieldText, List.mem_append, List.mem_cons] at hb
  obtain hb | rfl | rfl | hb := hb
  · exact isBreakByte_eq_false_of_isTokenByte (entry.1.isTokenByte_of_mem b hb)
  · rfl
  · rfl
  · exact isBreakByte_eq_false_of_isValueByte (List.all_eq_true.1 entry.2.isValue_bytes b hb)

theorem isLine_of_mem_lines (h : versionText? head.version = some version) :
    ∀ line ∈ lines version head size, IsLine line := by
  intro line hline
  obtain rfl | hline := List.mem_cons.1 hline
  · exact isLine_statusText h
  · obtain ⟨entry, -, rfl⟩ := List.mem_map.1 hline
    exact isLine_fieldText entry

/-! Every line is read back. -/

theorem readStatusLine?_statusText (h : versionText? head.version = some version) :
    readStatusLine? (statusText version head.status) = some (head.version, head.status) := by
  obtain ⟨hversion, hspace, -⟩ := readable_of_versionText? h
  have hdigits : Bytes.space ∉ Decimal.write head.status.code := fun hmem =>
    absurd (List.all_eq_true.1 (Decimal.write_all_isDigit _) _ hmem) (by decide)
  have hstatus : Status.ofCode? head.status.code = some head.status :=
    dif_pos head.status.three_digits
  have hlength := Decimal.length_write head.status.three_digits.1 head.status.three_digits.2
  simp [readStatusLine?, statusText, Bytes.cutAt?_append hspace, Bytes.cutAt?_append hdigits,
    hversion, hlength, Decimal.numeral?_write, hstatus]

theorem readField?_fieldText (entry : FieldName × FieldValue) :
    readField? (fieldText entry) = some entry := by
  have hcolon : (58 : UInt8) ∉ entry.1.bytes := fun hmem =>
    absurd (entry.1.isTokenByte_of_mem 58 hmem) (by decide)
  have hvalue : FieldValue.ofBytes? entry.2.bytes = some entry.2 := dif_pos entry.2.isValue_bytes
  simp [readField?, fieldText, Bytes.cutAt?_append hcolon, FieldName.ofBytes?_bytes, hvalue]

theorem mapM_readField? (entries : List (FieldName × FieldValue)) :
    (entries.map fieldText).mapM readField? = some entries := by
  induction entries with
  | nil => rfl
  | cons entry entries ih => simp [List.mapM_cons, readField?_fieldText, ih]

theorem read?_ofLines (h : versionText? head.version = some version) (rest : Bytes) :
    read? (Bytes.ofLines (lines version head size) ++ rest) =
      some ({ head with fields := frame head.fields size }, rest) := by
  rw [read?, Bytes.linesFrom?_ofLines (isLine_of_mem_lines h), lines]
  simp only [readStatusLine?_statusText h, mapM_readField?]
  rfl

/-- The length of a body is put in, whether the body is empty or not. -/
theorem frame_ofLength (fields : Fields) (n : ℕ) :
    frame fields (.ofLength n) = fields.insert .contentLength (.ofNat n) := by
  rw [PayloadSize.ofLength]
  split_ifs with hzero
  · rw [hzero]
    rfl
  · rfl

theorem exists_encode (h : head.version = .http10 ∨ head.version = .http11) (size : PayloadSize) :
    ∃ bytes, head.encode size = .ok bytes := by
  obtain hversion | hversion := h <;> exact ⟨_, by rw [encode, hversion]; rfl⟩

theorem encode_eq_error (h : ¬ (head.version = .http10 ∨ head.version = .http11)) :
    head.encode size = .error (.io .unsupported) := by
  rw [encode]
  cases hversion : head.version with
  | http10 | http11 => simp [hversion] at h
  | http09 | http2 | http3 => rfl

/-- A head that is written is found again in front of anything, as the matcher sees it and as a reader
of lines does. -/
theorem found_of_encode {bytes : Bytes} (h : head.encode size = .ok bytes) (rest : Bytes) :
    Terminator.start.run (bytes ++ rest) = (.start, bytes.length, some 4) ∧
      read? (bytes ++ rest) = some ({ head with fields := frame head.fields size }, rest) := by
  rcases hversion : versionText? head.version with _ | version
  · rw [encode, hversion] at h
    cases h
  · rw [encode_eq_ofLines hversion] at h
    cases h
    exact ⟨Terminator.run_ofLines (by simp [lines]) (isLine_of_mem_lines hversion) rest,
      read?_ofLines hversion rest⟩

end ResponseHead

namespace Response

/-- A response of version 1.0 or 1.1 is written behind what the buffer holds. The matcher finds the end
of its head where the body begins, and a reader of lines finds the version, the status and all fields
in their order, with the length of the body as the only content length. A response of any other version
leaves the buffer as it was. -/
theorem reads_back_of_write (response : Response) :
    if response.head.version = .http10 ∨ response.head.version = .http11 then
      ∃ h, (∀ buffer, response.write buffer = (buffer ++ h ++ response.body, .ok ())) ∧
        ∀ rest, Terminator.start.run (h ++ rest) = (.start, h.length, some 4) ∧
          ResponseHead.read? (h ++ rest) = some (⟨response.head.status, response.head.version,
            ⟨response.head.fields.entries.takeWhile (·.1 ≠ .contentLength) ++
              (.contentLength, .ofNat response.body.length) ::
                (response.head.fields.entries.dropWhile (·.1 ≠ .contentLength)).filter
                  (·.1 ≠ .contentLength)⟩⟩, rest)
    else ∀ buffer, response.write buffer = (buffer, .error (.io .unsupported)) := by
  rw [← Fields.insertEntry_eq]
  split_ifs with hversion
  · obtain ⟨h, hencode⟩ := ResponseHead.exists_encode hversion (.ofLength response.body.length)
    refine ⟨h, fun buffer => ?_, fun rest => ?_⟩
    · rw [write_eq, encode, hencode]
      simp [Except.map]
    · have hfound := ResponseHead.found_of_encode hencode rest
      rw [ResponseHead.frame_ofLength] at hfound
      exact hfound
  · intro buffer
    rw [write_eq, encode, ResponseHead.encode_eq_error hversion]
    rfl

end Response

end CoopHttp
