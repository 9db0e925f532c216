import CoopHttp.Proofs.Head.Decode
import CoopHttp.Proofs.Payload.Checked

/-!
# Heads decoded by extents

The parser of heads hands over slices of the buffer. Where names and values stand is written down,
then the head is cut off, and the fields are cut out of it by what was written down. Here a head is
decoded in this way, with every conversion at its place and every cut checked. No cut fails, each
takes the name or the value that it is for, and the outcome is that of `decode`.
-/
namespace CoopHttp

structure Extent where
  start : ℕ
  stop : ℕ

/-- Octets of a buffer, with the position of the first of them. -/
structure Slice where
  start : ℕ
  bytes : Bytes

/-- Cuts out what stands between two positions. -/
def Bytes.sliceAt (s : Bytes) (e : Extent) : Checked Bytes :=
  if e.start ≤ e.stop ∧ e.stop ≤ s.length then .ok ((s.take e.stop).drop e.start)
  else .error .beyondBuffer

namespace Slice

variable {p : Slice} {s : Bytes}

def extent (p : Slice) : Extent := ⟨p.start, p.start + p.bytes.length⟩

/-- A slice without the white space at either end. -/
def trim (p : Slice) : Slice :=
  ⟨p.start + (p.bytes.takeWhile Bytes.isSpace).length, Bytes.trim p.bytes⟩

/-- The octets are those of the buffer at the position. -/
def StandsIn (p : Slice) (s : Bytes) : Prop :=
  ∃ before after, s = before ++ (p.bytes ++ after) ∧ before.length = p.start

theorem StandsIn.append (h : p.StandsIn s) (t : Bytes) : p.StandsIn (s ++ t) := by
  obtain ⟨before, after, rfl, hstart⟩ := h
  exact ⟨before, after ++ t, by simp, hstart⟩

theorem StandsIn.trim (h : p.StandsIn s) : p.trim.StandsIn s := by
  obtain ⟨before, after, rfl, hstart⟩ := h
  obtain ⟨blanks, hend, -⟩ :=
    Bytes.exists_of_trimEndWhile Bytes.isSpace (p.bytes.dropWhile Bytes.isSpace)
  have hsplit : p.bytes =
      p.bytes.takeWhile Bytes.isSpace ++ (Bytes.trim p.bytes ++ blanks) := by
    rw [Bytes.trim, Bytes.trimEnd, ← hend, List.takeWhile_append_dropWhile]
  refine ⟨before ++ p.bytes.takeWhile Bytes.isSpace, blanks ++ after, ?_, ?_⟩
  · conv_lhs => rw [hsplit]
    simp [Slice.trim]
  · rw [List.length_append, hstart, Slice.trim]

/-- A slice of a buffer is cut out of it by its extent. -/
theorem StandsIn.sliceAt (h : p.StandsIn s) : s.sliceAt p.extent = .ok p.bytes := by
  obtain ⟨before, after, rfl, hstart⟩ := h
  have hstop : p.start + p.bytes.length = (before ++ p.bytes).length := by
    rw [List.length_append, hstart]
  rw [Bytes.sliceAt, if_pos, extent, hstop, ← List.append_assoc, List.take_left, ← hstart,
    List.drop_left]
  simp only [extent, List.length_append, hstart]
  omega

end Slice

/-! A parser that hands over slices. -/

namespace Grammar

/-- Two readers come to the same, up to what they hand over. -/
inductive Scan.Agree {α β : Type} (R : α → β → Bytes → Prop) : Scan α → Scan β → Prop
  | done {a : α} {b : β} {rest : Bytes} (h : R a b rest) : Agree R (.done a rest) (.done b rest)
  | more : Agree R .more .more
  | bad (error : ParseError) : Agree R (.bad error) (.bad error)

namespace Scan

variable {α β γ δ : Type} {R : α → β → Bytes → Prop} {S : γ → δ → Bytes → Prop}

theorem agree_self (x : Scan α) : Agree (fun a b rest => a = b ∧ x = .done a rest) x x := by
  cases x with
  | done a rest => exact .done ⟨rfl, rfl⟩
  | more => exact .more
  | bad error => exact .bad error

theorem Agree.bind {x : Scan α} {y : Scan β} (h : Agree R x y) {f : α → Bytes → Scan γ}
    {g : β → Bytes → Scan δ} (hnext : ∀ a b rest, R a b rest → Agree S (f a rest) (g b rest)) :
    Agree S (x.bind f) (y.bind g) := by
  cases h with
  | done h => exact hnext _ _ _ h
  | more => exact .more
  | bad error => exact .bad error

theorem Agree.map {x : Scan α} {y : Scan β} (h : Agree R x y) {f : α → γ} {g : β → δ}
    (hnext : ∀ a b rest, R a b rest → S (f a) (g b) rest) : Agree S (x.map f) (y.map g) :=
  h.bind fun a b rest hr => .done (hnext a b rest hr)

/-- The same reader first, then two that agree. -/
theorem Agree.behind (x : Scan α) {f : α → Bytes → Scan γ} {g : α → Bytes → Scan δ}
    (hnext : ∀ a rest, x = .done a rest → Agree S (f a rest) (g a rest)) :
    Agree S (x.bind f) (x.bind g) := by
  refine (agree_self x).bind ?_
  rintro a _ rest ⟨rfl, hdone⟩
  exact hnext a rest hdone

end Scan

structure SlicedLine where
  name : Slice
  value : Slice

namespace SlicedLine

def line (l : SlicedLine) : FieldLine := ⟨l.name.bytes, l.value.bytes⟩

/-- Both slices are of the buffer. -/
def StandsIn (l : SlicedLine) (s : Bytes) : Prop := l.name.StandsIn s ∧ l.value.StandsIn s

theorem StandsIn.append {l : SlicedLine} {s : Bytes} (h : l.StandsIn s) (t : Bytes) :
    l.StandsIn (s ++ t) :=
  ⟨h.1.append t, h.2.append t⟩

end SlicedLine

/-- `fieldLine`, in a buffer of `n` octets of which `s` are left. -/
def slicedLine (n : ℕ) (s : Bytes) : Scan SlicedLine :=
  (fieldName s).bind fun name rest => (fieldValue rest).map fun value =>
    ⟨⟨n - s.length, name⟩, ⟨n - (rest.dropWhile Bytes.isBlank).length, value⟩⟩

/-- `fieldLines`, in a buffer of `n` octets of which `s` are left. -/
def slicedLines (n room : ℕ) (s : Bytes) : Scan (List SlicedLine) :=
  match s with
  | [] => .more
  | b :: _ =>
    if b = Bytes.lf ∨ b = Bytes.cr then (lineBreak .invalidNewLine s).map fun _ => []
    else (slicedLine n s).bind fun line rest =>
      match room with
      | 0 => .bad (.tooManyHeaders maxFields)
      | room + 1 => (slicedLines n room rest).map (line :: ·)

/-- A head as the parser hands it over; what it has not come to is missing. -/
structure SlicedHead where
  method : Option Bytes
  target : Option Bytes
  /-- What stands behind the dot of the version, as a number. -/
  version : Option UInt8
  lines : List SlicedLine

/-- The parser hands over all of the head, and the slices are of what it has read for it. -/
structure SlicedHead.Tells (src : Bytes) (sliced : SlicedHead) (raw : RawHead) (rest : Bytes) :
    Prop where
  eq : sliced = ⟨some raw.method, some raw.target, some (raw.version.digit - 48), sliced.lines⟩
  lines_eq : sliced.lines.map SlicedLine.line = raw.lines
  standsIn : ∃ text, src = text ++ rest ∧ ∀ l ∈ sliced.lines, l.StandsIn text

/-- `head`, by slices. -/
def slicedHead (src : Bytes) : Scan SlicedHead :=
  (skipEmptyLines src).bind fun _ s =>
  (Grammar.method s).bind fun method s =>
  (Grammar.target s).bind fun target s =>
  (Grammar.version s).bind fun version s =>
  (lineBreak .invalidNewLine s).bind fun _ s =>
  (slicedLines src.length maxFields s).map fun lines =>
    ⟨some method, some target, some (version.digit - 48), lines⟩

/-- What is read as a value stands behind the blanks. -/
theorem exists_dropWhile_of_fieldValue {s value rest : Bytes}
    (h : fieldValue s = .done value rest) :
    ∃ after, s.dropWhile Bytes.isBlank = value ++ (after ++ rest) := by
  simp only [fieldValue, List.span_eq_takeWhile_dropWhile] at h
  generalize s.dropWhile Bytes.isBlank = line at h ⊢
  obtain ⟨⟨⟩, hbreak, rfl⟩ := Scan.map_eq_done_iff.1 h
  obtain ⟨e, hrest⟩ := lineBreak_eq_done_iff.1 hbreak
  obtain ⟨after, hword, -⟩ :=
    Bytes.exists_of_trimEndWhile Bytes.isBlank (line.takeWhile isTextByte)
  refine ⟨after ++ e.bytes, ?_⟩
  rw [List.append_assoc, ← hrest, ← List.append_assoc, ← hword, List.takeWhile_append_dropWhile]

/-- The slices of a line are of what has been read with it. -/
theorem agree_slicedLine (before s : Bytes) :
    Scan.Agree (fun sliced line rest => sliced.line = line ∧
        ∃ text, s = text ++ rest ∧ sliced.StandsIn (before ++ text))
      (slicedLine (before ++ s).length s) (fieldLine s) := by
  refine .behind (fieldName s) fun name mid hname => (Scan.agree_self (fieldValue mid)).map ?_
  rintro value _ rest ⟨rfl, hvalue⟩
  obtain ⟨-, rfl⟩ := fieldName_eq_done_iff.1 hname
  obtain ⟨after, hdrop⟩ := exists_dropWhile_of_fieldValue hvalue
  have hmid : mid = mid.takeWhile Bytes.isBlank ++ (value ++ (after ++ rest)) := by
    rw [← hdrop, List.takeWhile_append_dropWhile]
  generalize mid.takeWhile Bytes.isBlank = blanks at hmid
  rw [hdrop, hmid]
  refine ⟨rfl, name ++ 58 :: (blanks ++ (value ++ after)), by simp, ⟨before, _, rfl, ?_⟩,
    before ++ (name ++ 58 :: blanks), after, by simp, ?_⟩
  · rw [List.length_append, Nat.add_sub_cancel]
  · simp only [List.length_append, List.length_cons]
    omega

theorem agree_slicedLines (room : ℕ) (before s : Bytes) :
    Scan.Agree (fun sliced lines rest => sliced.map SlicedLine.line = lines ∧
        ∃ text, s = text ++ rest ∧ ∀ l ∈ sliced, l.StandsIn (before ++ text))
      (slicedLines (before ++ s).length room s) (fieldLines room s) := by
  match s with
  | [] =>
    unfold slicedLines fieldLines
    exact .more
  | b :: s =>
    unfold slicedLines fieldLines
    split_ifs with hbreak
    · refine (Scan.agree_self _).map ?_
      rintro _ _ rest ⟨-, hdone⟩
      obtain ⟨e, hs⟩ := lineBreak_eq_done_iff.1 hdone
      exact ⟨rfl, e.bytes, hs, by simp⟩
    · refine (agree_slicedLine before (b :: s)).bind ?_
      rintro sliced _ mid ⟨rfl, text, hs, hline⟩
      cases room with
      | zero => exact .bad _
      | succ room =>
        rw [hs, ← List.append_assoc]
        refine (agree_slicedLines room (before ++ text) mid).map ?_
        rintro later _ rest ⟨rfl, text', rfl, hlater⟩
        -- The first line stands in what has been read with the later ones, too.
        have hfirst : sliced.StandsIn (before ++ text ++ text') := hline.append text'
        rw [List.append_assoc] at hfirst hlater
        exact ⟨rfl, text ++ text', by simp, List.forall_mem_cons.2 ⟨hfirst, hlater⟩⟩
termination_by room

/-- The parser by slices comes to what the parser comes to. -/
theorem agree_slicedHead (src : Bytes) :
    Scan.Agree (SlicedHead.Tells src) (slicedHead src) (head src) := by
  refine .behind _ fun _ s1 hskip => .behind _ fun word s2 hmethod =>
    .behind _ fun target s3 htarget => .behind _ fun version s4 hversion =>
      .behind _ fun _ s5 hbreak => ?_
  obtain ⟨skipped, rfl, -⟩ := skipEmptyLines_eq_done_iff.1 hskip
  obtain ⟨-, rfl⟩ := method_eq_done_iff.1 hmethod
  obtain ⟨-, -, -, rfl⟩ := target_eq_done_iff.1 htarget
  obtain ⟨-, rfl⟩ := version_eq_done_iff.1 hversion
  obtain ⟨ending, rfl⟩ := lineBreak_eq_done_iff.1 hbreak
  have hsrc : ∃ before, breakBytes skipped ++ (word ++ Bytes.space :: (target ++ Bytes.space ::
      (ascii "HTTP/1." ++ version.digit :: (ending.bytes ++ s5)))) = before ++ s5 :=
    ⟨breakBytes skipped ++ (word ++ Bytes.space :: (target ++ Bytes.space ::
      (ascii "HTTP/1." ++ version.digit :: ending.bytes))), by simp⟩
  obtain ⟨before, hsrc⟩ := hsrc
  rw [hsrc]
  refine (agree_slicedLines maxFields before s5).map ?_
  rintro sliced _ rest ⟨rfl, text, rfl, hlines⟩
  exact ⟨rfl, rfl, before ++ text, by simp, hlines⟩

end Grammar

/-! Extents that are written down, and fields that are cut out by them. -/

structure FieldExtents where
  name : Extent
  value : Extent

namespace FieldExtents

/-- No place in particular. -/
def blank : FieldExtents := ⟨⟨0, 0⟩, ⟨0, 0⟩⟩

/-- Where the name and the value of a line stand, white space around the value left out. An empty
value is at no place in particular. -/
def ofLine (l : Grammar.SlicedLine) : FieldExtents :=
  ⟨l.name.extent, if l.value.trim.bytes = [] then ⟨0, 0⟩ else l.value.trim.extent⟩

/-- Writes the extents of lines into slots, as long as there are slots. -/
def record : List Grammar.SlicedLine → List FieldExtents → List FieldExtents
  | line :: lines, _ :: slots => ofLine line :: record lines slots
  | _, slots => slots

/-- The first `n` slots, if there are as many. -/
def firstOf (slots : List FieldExtents) (n : ℕ) : Checked (List FieldExtents) :=
  if n ≤ slots.length then .ok (slots.take n) else .error .beyondBuffer

theorem firstOf_record {lines : List Grammar.SlicedLine} {slots : List FieldExtents}
    (h : lines.length ≤ slots.length) :
    firstOf (record lines slots) lines.length = .ok (lines.map ofLine) := by
  have hrecord : lines.length ≤ (record lines slots).length ∧
      (record lines slots).take lines.length = lines.map ofLine := by
    induction lines generalizing slots with
    | nil => simp
    | cons line lines ih =>
      cases slots with
      | nil => simp at h
      | cons slot slots => simpa [record] using ih (Nat.le_of_succ_le_succ h)
  rw [firstOf, if_pos hrecord.1, hrecord.2]

variable {l : Grammar.SlicedLine} {head : Bytes}

theorem sliceAt_name (h : l.StandsIn head) : head.sliceAt (ofLine l).name = .ok l.name.bytes :=
  h.1.sliceAt

theorem sliceAt_value (h : l.StandsIn head) :
    head.sliceAt (ofLine l).value = .ok (Bytes.trim l.value.bytes) := by
  have hbytes : l.value.trim.bytes = Bytes.trim l.value.bytes := rfl
  rw [ofLine, hbytes]
  split_ifs with hnil
  · rw [hnil, Bytes.sliceAt, if_pos ⟨le_rfl, Nat.zero_le _⟩]
    rfl
  · exact h.2.trim.sliceAt

end FieldExtents

/-- Cuts fields out of a head, checks them one by one and appends them. -/
def Fields.ofExtents (head : Bytes) (fields : Fields) :
    List FieldExtents → Checked (Except ParseError Fields)
  | [] => .ok (.ok fields)
  | extents :: later => do
    let name ← head.sliceAt extents.name
    match FieldName.ofBytes? name with
    | none => return .error (.invalidHeader .refusedName)
    | some name =>
      let value ← head.sliceAt extents.value
      match FieldValue.ofBytes? value with
      | none => return .error (.invalidHeader .refusedValue)
      | some value => ofExtents head (fields.append name value) later

/-- Fields that are cut out of a head are those of its lines. -/
theorem Fields.ofExtents_eq {head : Bytes} {lines : List Grammar.SlicedLine}
    (h : ∀ l ∈ lines, l.StandsIn head) :
    ofExtents head empty (lines.map FieldExtents.ofLine) =
      .ok (ofLines (lines.map Grammar.SlicedLine.line)) := by
  unfold ofLines
  generalize empty = start
  induction lines generalizing start with
  | nil => rfl
  | cons l lines ih =>
    have hline := h l (by simp)
    rw [List.map_cons, List.map_cons, ofExtents, FieldExtents.sliceAt_name hline, List.foldlM_cons,
      Grammar.SlicedLine.line]
    dsimp only [bind, Except.bind]
    cases FieldName.ofBytes? l.name.bytes with
    | none => rfl
    | some name =>
      dsimp only
      rw [FieldExtents.sliceAt_value hline]
      dsimp only
      cases FieldValue.ofBytes? (Bytes.trim l.value.bytes) with
      | none => rfl
      | some value => exact ih (fun l hl => h l (by simp [hl])) _

namespace RequestHead

def versionOf : Option UInt8 → Except ParseError Version
  | some 0 => .ok .http10
  | some 1 => .ok .http11
  | number => .error (.invalidVersion number)

/-- The version, the method and the target that the parser has handed over. -/
def readSliced (sliced : Grammar.SlicedHead) : Except ParseError (Version × Method × Uri) := do
  let version ← versionOf sliced.version
  let method ← sliced.method.elim (.error .invalidMethod) .ok
  let method ← (Method.ofBytes? method).elim (.error .invalidMethod) .ok
  let target ← sliced.target.elim (.error .invalidUri) .ok
  let uri ← (Uri.parse target).mapError fun _ => .invalidUri
  return (version, method, uri)

/-- `decode`, by slices and extents. -/
def slicedDecode (src : Bytes) : Checked Decoded :=
  match Grammar.slicedHead src with
  | .bad error => .ok ⟨.error error, src⟩
  | .more =>
    if src.length ≤ maxHeadBytes then .ok ⟨.ok none, src⟩
    else .ok ⟨.error (.tooLargeHeader src.length maxHeadBytes), src⟩
  | .done sliced rest =>
    let size := src.length - rest.length
    if size ≤ maxHeadBytes then
      let slots := FieldExtents.record sliced.lines (List.replicate Grammar.maxFields .blank)
      match readSliced sliced with
      | .error error => .ok ⟨.error error, src⟩
      | .ok (version, method, uri) => do
        let (head, rest) ← src.cutAt size
        let extents ← FieldExtents.firstOf slots sliced.lines.length
        let fields ← Fields.ofExtents head .empty extents
        let result := do
          let fields ← fields
          let size ← PayloadSize.ofFields fields
          return some (⟨method, uri, version, fields⟩, size)
        return ⟨result, rest⟩
    else .ok ⟨.error (.tooLargeHeader size maxHeadBytes), src⟩

theorem versionOf_digit (t : HeadText) :
    versionOf (some (t.version.digit - 48)) = .ok t.version := by
  obtain hv | hv := t.version_eq
  · rw [hv]
    rfl
  · rw [hv]
    rfl

/-- Nothing is missing in what the parser hands over, and the version is one of the two. -/
theorem readSliced_eq {t : HeadText} {src rest : Bytes} {sliced : Grammar.SlicedHead}
    (h : sliced.Tells src t.raw rest) :
    readSliced sliced = (readLine t.raw).map fun line => (t.version, line) := by
  rw [h.eq]
  simp only [readSliced, versionOf_digit, readLine, HeadText.raw, bind, Except.bind, Option.elim]
  cases Method.ofBytes? t.method with
  | none => rfl
  | some method => cases Uri.parse t.target <;> rfl

/-- A head that has arrived is decoded by slices to what it is decoded to. -/
theorem slicedDecode_of_done {t : HeadText} {sliced : Grammar.SlicedHead} {rest : Bytes}
    (hsliced : Grammar.slicedHead (t.bytes ++ rest) = .done sliced rest)
    (h : sliced.Tells (t.bytes ++ rest) t.raw rest) :
    slicedDecode (t.bytes ++ rest) = .ok (decode (t.bytes ++ rest)) := by
  obtain ⟨text, htext, hstands⟩ := h.standsIn
  obtain rfl : t.bytes = text := List.append_cancel_right htext
  have hsize : (t.bytes ++ rest).length - rest.length = t.bytes.length := by simp
  have hcut : (t.bytes ++ rest).cutAt t.bytes.length = .ok (t.bytes, rest) := by
    rw [Bytes.cutAt_of_le (by simp), List.take_left, List.drop_left]
  have hroom : sliced.lines.length ≤
      (List.replicate Grammar.maxFields FieldExtents.blank).length := by
    have hlength := congrArg List.length h.lines_eq
    simp only [List.length_map, HeadText.raw] at hlength
    rw [hlength, List.length_replicate]
    exact t.length_fields_le
  rw [slicedDecode, hsliced, decode_bytes]
  dsimp only
  rw [hsize, readSliced_eq h]
  split_ifs with hle
  · cases readLine t.raw with
    | error error => rfl
    | ok line =>
      dsimp only [Except.map, bind, Except.bind]
      rw [hcut]
      dsimp only
      rw [FieldExtents.firstOf_record hroom]
      dsimp only
      rw [Fields.ofExtents_eq hstands, h.lines_eq]
      dsimp only [readFields, bind, Except.bind]
      cases Fields.ofLines t.raw.lines with
      | error error => rfl
      | ok fields =>
        dsimp only
        cases PayloadSize.ofFields fields <;> rfl
  · rfl

/-- No cut of a head fails, and decoding by slices comes to what decoding comes to. -/
theorem slicedDecode_eq (src : Bytes) : slicedDecode src = .ok (decode src) := by
  have hagree := Grammar.agree_slicedHead src
  generalize hsliced : Grammar.slicedHead src = sliced at hagree
  generalize hhead : Grammar.head src = scan at hagree
  cases hagree with
  | bad error => simp only [slicedDecode, hsliced, decode, hhead]
  | more =>
    simp only [slicedDecode, hsliced, decode, hhead]
    split_ifs <;> rfl
  | done h =>
    obtain ⟨t, rfl, rfl⟩ := Grammar.head_eq_done_iff.1 hhead
    exact slicedDecode_of_done hsliced h

end RequestHead

end CoopHttp
