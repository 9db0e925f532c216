import CoopHttp.Proofs.Head.Padding
import CoopHttp.Proofs.Head.Slices
import CoopHttp.Proofs.Payload.Repeated

/-!
# Heads that the grammar accepts

The grammar of heads lets through octets, which are then converted to a version, a method, a target
and fields. What is a word of the grammar is a version, a method, a field name or a field value of a
head within the limit; so only the target can still be refused, and after it what the fields declare
of the payload. Every field line gives one field.
-/
namespace CoopHttp

/-- The line holds the field: its name in any case, and as the value what stands behind the colon,
without the white space around it. -/
def FieldText.Holds (f : FieldText) (entry : FieldName × FieldValue) : Prop :=
  f.name.map Bytes.lower = entry.1.bytes ∧
    Bytes.trim (f.before ++ (f.value ++ f.after)) = entry.2.bytes

theorem FieldText.holds_iff_spells {f : FieldText} {entry : FieldName × FieldValue} :
    f.Holds entry ↔ f.Spells entry := by
  have htrim : Bytes.trim (f.before ++ (f.value ++ f.after)) = f.value :=
    Bytes.trim_append (fun b hb => Bytes.isSpace_of_isBlank (f.isBlank_before b hb)) f.trimmed_value
      fun b hb => Bytes.isSpace_of_isBlank (f.isBlank_after b hb)
  rw [Holds, Spells, htrim]

/-- The section holds one field for each line, those of one name in the order of the lines. -/
def Fields.Holds (fields : Fields) (lines : List FieldText) : Prop :=
  ∃ entries, List.Forall₂ FieldText.Holds lines entries ∧ fields.entries.Perm entries ∧
    ∀ name, fields.getAll name = (entries.filter (·.1 = name)).map (·.2)

theorem Fields.holds_ofList {lines : List FieldText} {entries : List (FieldName × FieldValue)}
    (h : List.Forall₂ FieldText.Spells lines entries) : (ofList entries).Holds lines :=
  ⟨entries, h.imp fun _ _ => FieldText.holds_iff_spells.2, perm_entries_ofList entries,
    getAll_ofList entries⟩

namespace RequestHead

/-- What becomes of a head whose lines hold the fields. It is refused for its target, if that is no
target; else for the framing of its payload, if the fields declare none; else it is what is written
in it, and it is never refused for anything else. -/
structure Converted (t : HeadText) (fields : Fields)
    (result : Except ParseError (Option (RequestHead × PayloadSize))) : Prop where
  settled : result = .error .invalidUri ∨ (∃ fault, result = .error (.invalidContentLength fault)) ∨
    ∃ head size, result = .ok (some (head, size))
  invalidUri_iff : result = .error .invalidUri ↔ ∃ fault, Uri.parse t.target = .error fault
  invalidContentLength_iff : ∀ fault, result = .error (.invalidContentLength fault) ↔
    (∃ uri, Uri.parse t.target = .ok uri) ∧
      PayloadSize.ofFields fields = .error (.invalidContentLength fault)
  ok_iff : ∀ head size, result = .ok (some (head, size)) ↔
    head.method.bytes = t.method ∧ Uri.parse t.target = .ok head.uri ∧ head.version = t.version ∧
      head.fields = fields ∧ PayloadSize.ofFields fields = .ok size

theorem converted_of_error {t : HeadText} {fault : UriFault} (h : Uri.parse t.target = .error fault)
    (fields : Fields) : Converted t fields (.error .invalidUri) := by
  constructor
  case settled => exact .inl rfl
  case invalidUri_iff => simp [h]
  case invalidContentLength_iff => simp [h]
  case ok_iff => simp [h]

theorem converted_of_ok {t : HeadText} {uri : Uri} (h : Uri.parse t.target = .ok uri)
    (fields : Fields) :
    Converted t fields ((PayloadSize.ofFields fields).map fun size =>
      some (⟨⟨t.method, t.isToken_method⟩, uri, t.version, fields⟩, size)) := by
  obtain ⟨size, hsize⟩ | ⟨fault, hfault⟩ := PayloadSize.ofFields_cases fields
  · rw [hsize, Except.map]
    constructor
    case settled => exact .inr (.inr ⟨_, _, rfl⟩)
    case invalidUri_iff => simp [h]
    case invalidContentLength_iff => simp [hsize]
    case ok_iff =>
      rintro ⟨⟨method, hmethod⟩, uri', version, fields'⟩ size'
      simp only [Except.ok.injEq, Option.some.injEq, Prod.mk.injEq, RequestHead.mk.injEq,
        Method.mk.injEq, h, hsize]
      tauto
  · rw [hfault, Except.map]
    constructor
    case settled => exact .inr (.inl ⟨_, rfl⟩)
    case invalidUri_iff => simp [h]
    case invalidContentLength_iff => simp [h, hfault]
    case ok_iff => simp [hfault]

/-- A head that the grammar accepts, of a length within the limit, is converted. Only its target can
be refused, and then what its fields declare of the payload; else every line of it is one field. It
comes to this by slices and extents as well, where the version, the method and the target are taken
as the parser hands them over. -/
theorem converted_of_head {src rest : Bytes} {raw : Grammar.RawHead}
    (hhead : Grammar.head src = .done raw rest) (hsize : src.length - rest.length ≤ maxHeadBytes) :
    ∃ (t : HeadText) (fields : Fields), t.raw = raw ∧ src = t.bytes ++ rest ∧
      fields.Holds t.fields ∧ slicedDecode src = .ok (decode src) ∧
        Converted t fields (decode src).result := by
  obtain ⟨t, rfl, rfl⟩ := Grammar.head_eq_done_iff.1 hhead
  have hlength : t.bytes.length ≤ maxHeadBytes := by simpa using hsize
  have hshort : (fieldBytes t.fields).length ≤ maxFieldName := by
    have hle : (fieldBytes t.fields).length ≤ t.bytes.length := by
      simp only [HeadText.bytes, List.length_append]
      omega
    exact hle.trans (hlength.trans (by decide))
  obtain ⟨entries, hspells⟩ := exists_forall₂_spells hshort
  refine ⟨t, .ofList entries, rfl, rfl, Fields.holds_ofList hspells, slicedDecode_eq _, ?_⟩
  rw [decode_of_spells hlength hspells]
  cases htarget : Uri.parse t.target with
  | error fault => exact converted_of_error htarget _
  | ok uri => exact converted_of_ok htarget _

/-- A head behind an empty line, with mixed line breaks, a name that comes twice, a value with an
octet above ASCII and a value of blanks only. -/
def mixedHead : Bytes :=
  ascii "\r\nPUT /a HTTP/1.0\nHost: a\r\nhost:\t b\u00e9 \r\nX-Empty: \t\n\r\nbody"

theorem exists_converted_mixedHead :
    let raw : Grammar.RawHead := ⟨ascii "PUT", ascii "/a", .http10,
      [⟨ascii "Host", ascii "a"⟩, ⟨ascii "host", ascii "b\u00e9"⟩, ⟨ascii "X-Empty", []⟩]⟩
    Grammar.head mixedHead = .done raw (ascii "body") ∧
      mixedHead.length - (ascii "body").length ≤ maxHeadBytes ∧
      ∃ (t : HeadText) (fields : Fields), t.raw = raw ∧ mixedHead = t.bytes ++ ascii "body" ∧
        fields.Holds t.fields ∧ slicedDecode mixedHead = .ok (decode mixedHead) ∧
          Converted t fields (decode mixedHead).result := by
  intro raw
  have hhead : Grammar.head mixedHead = .done raw (ascii "body") := by decide +kernel
  have hsize : mixedHead.length - (ascii "body").length ≤ maxHeadBytes := by decide +kernel
  exact ⟨hhead, hsize, converted_of_head hhead hsize⟩

end RequestHead

end CoopHttp
