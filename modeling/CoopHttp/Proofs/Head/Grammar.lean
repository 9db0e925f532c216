import CoopHttp.Proofs.Head.Text
import Mathlib.Data.List.TakeDrop
import Mathlib.Data.List.TakeWhile

/-!
# The reader of heads and the grammar

The reader accepts what the grammar writes, finds in it what was written and leaves what follows;
and whatever it accepts was written by the grammar. Each part of the reader has one lemma that says
both: it is done with a part and a rest exactly if the octets are some spelling of the part, in front
of the rest.
-/
namespace CoopHttp.Grammar

namespace Scan

variable {α β : Type}

theorem bind_eq_done_iff {scan : Scan α} {next : α → Bytes → Scan β} {b : β} {rest : Bytes} :
    scan.bind next = .done b rest ↔ ∃ a mid, scan = .done a mid ∧ next a mid = .done b rest := by
  cases scan with
  | done a mid => simp [Scan.bind]
  | more => simp [Scan.bind]
  | bad error => simp [Scan.bind]

theorem map_eq_done_iff {scan : Scan α} {f : α → β} {b : β} {rest : Bytes} :
    scan.map f = .done b rest ↔ ∃ a, scan = .done a rest ∧ f a = b := by
  rw [Scan.map, bind_eq_done_iff]
  constructor
  · rintro ⟨a, mid, hscan, hdone⟩
    cases hdone
    exact ⟨a, hscan, rfl⟩
  · rintro ⟨a, hscan, rfl⟩
    exact ⟨a, rest, hscan, rfl⟩

end Scan

/-! Words, which end at a separator. -/

theorem isWordByte_space : isWordByte Bytes.space = false := by decide

theorem isWordByte_colon : isWordByte 58 = false := by decide

theorem isTargetByte_space : isTargetByte Bytes.space = false := by decide

theorem isToken_iff_isWordByte (s : Bytes) :
    isToken s = true ↔ s ≠ [] ∧ ∀ b ∈ s, isWordByte b = true := by
  simp only [isToken_iff, isWordByte_eq]

/-- Octets that satisfy `p`, in front of one that does not. -/
theorem span_eq_iff {p : UInt8 → Bool} {separator : UInt8} (hp : p separator = false)
    {s word rest : Bytes} :
    s.span p = (word, separator :: rest) ↔
      (∀ b ∈ word, p b = true) ∧ s = word ++ separator :: rest := by
  rw [List.span_eq_takeWhile_dropWhile, Prod.mk.injEq]
  constructor
  · rintro ⟨hword, hrest⟩
    constructor
    · rw [← hword]
      exact fun b hb => List.mem_takeWhile_imp hb
    · rw [← hword, ← hrest, List.takeWhile_append_dropWhile]
  · rintro ⟨hword, rfl⟩
    rw [List.takeWhile_append_of_pos hword, List.dropWhile_append_of_pos hword]
    simp [hp]

/-- Octets that are fixed in advance. -/
theorem expected_eq_done_iff {fault : HeadFault} {es s rest : Bytes} :
    expected fault es s = .done () rest ↔ s = es ++ rest := by
  induction es generalizing s with
  | nil => simp [expected]
  | cons e es ih =>
    cases s with
    | nil => simp [expected]
    | cons b s =>
      by_cases heq : e = b
      · simp [expected, heq, ih]
      · simp [expected, heq, Ne.symm heq]

/-! The parts of a head, one by one. -/

theorem lineBreak_eq_done_iff {fault : HeadFault} {s rest : Bytes} :
    lineBreak fault s = .done () rest ↔ ∃ e : LineBreak, s = e.bytes ++ rest := by
  constructor
  · intro h
    unfold lineBreak lineFeed at h
    split at h
    · simp at h
    · split_ifs at h with hlf hcr
      · cases h
        exact ⟨.lf, by rw [hlf]; rfl⟩
      · split at h
        · simp at h
        · split_ifs at h with hlf
          cases h
          exact ⟨.crlf, by rw [hcr, hlf]; rfl⟩
  · rintro ⟨e, rfl⟩
    cases e with
    | lf => rfl
    | crlf => rfl

theorem skipEmptyLines_of_not_break {s : Bytes} (hne : s ≠ [])
    (hhead : ∀ b ∈ s.head?, isBreakByte b = false) : skipEmptyLines s = .done () s := by
  cases s with
  | nil => exact absurd rfl hne
  | cons b s =>
    have hb : isBreakByte b = false := hhead b rfl
    simp only [isBreakByte, Bool.or_eq_false_iff, beq_eq_false_iff_ne] at hb
    unfold skipEmptyLines
    rw [if_neg hb.2, if_neg hb.1]

theorem skipEmptyLines_lineBreak (e : LineBreak) (s : Bytes) :
    skipEmptyLines (e.bytes ++ s) = skipEmptyLines s := by
  cases e with
  | lf =>
    conv_lhs => unfold skipEmptyLines
    simp [LineBreak.bytes]
  | crlf =>
    conv_lhs => unfold skipEmptyLines
    simp [LineBreak.bytes, Bytes.crlf]

theorem skipEmptyLines_eq_done_iff {s rest : Bytes} :
    skipEmptyLines s = .done () rest ↔ ∃ breaks : List LineBreak, s = breakBytes breaks ++ rest ∧
      rest ≠ [] ∧ ∀ b ∈ rest.head?, isBreakByte b = false := by
  constructor
  · intro h
    fun_induction skipEmptyLines s with
    | case1 => simp at h
    | case2 s ih =>
      obtain ⟨breaks, rfl, hrest⟩ := ih h
      exact ⟨.lf :: breaks, rfl, hrest⟩
    | case3 => simp at h
    | case4 s hlf ih =>
      obtain ⟨breaks, rfl, hrest⟩ := ih h
      exact ⟨.crlf :: breaks, rfl, hrest⟩
    | case5 => simp at h
    | case6 b s hlf hcr =>
      cases h
      exact ⟨[], rfl, by simp, by simp [isBreakByte, hlf, hcr]⟩
  · rintro ⟨breaks, rfl, hne, hhead⟩
    induction breaks with
    | nil => exact skipEmptyLines_of_not_break hne hhead
    | cons e breaks ih =>
      have hcons : breakBytes (e :: breaks) = e.bytes ++ breakBytes breaks := rfl
      rw [hcons, List.append_assoc, skipEmptyLines_lineBreak, ih]

theorem method_eq_done_iff {s word rest : Bytes} :
    method s = .done word rest ↔ isToken word = true ∧ s = word ++ Bytes.space :: rest := by
  rw [isToken_iff_isWordByte, and_assoc, ← span_eq_iff isWordByte_space, method]
  rcases s.span isWordByte with ⟨word', _ | ⟨b, rest'⟩⟩
  · simp
  · simp only [Prod.mk.injEq, List.cons.injEq]
    split_ifs with h <;> grind

theorem target_eq_done_iff {s word rest : Bytes} :
    target s = .done word rest ↔ word ≠ [] ∧ Utf8.isValid word = true ∧
      (∀ b ∈ word, isTargetByte b = true) ∧ s = word ++ Bytes.space :: rest := by
  rw [← span_eq_iff isTargetByte_space, target]
  rcases s.span isTargetByte with ⟨word', _ | ⟨b, rest'⟩⟩
  · simp
  · simp only [Prod.mk.injEq, List.cons.injEq]
    split_ifs with h <;> grind

theorem version_eq_done_iff {s rest : Bytes} {v : Version} :
    version s = .done v rest ↔
      (v = .http10 ∨ v = .http11) ∧ s = ascii "HTTP/1." ++ v.digit :: rest := by
  rw [version, Scan.bind_eq_done_iff]
  constructor
  · rintro ⟨_, mid, hexpected, h⟩
    rw [expected_eq_done_iff.1 hexpected]
    cases mid with
    | nil => simp at h
    | cons b mid =>
      simp only at h
      split_ifs at h with h0 h1
      · cases h
        exact ⟨.inl rfl, by rw [h0]; rfl⟩
      · cases h
        exact ⟨.inr rfl, by rw [h1]; rfl⟩
  · rintro ⟨rfl | rfl, rfl⟩
    · exact ⟨(), _, expected_eq_done_iff.2 rfl, rfl⟩
    · exact ⟨(), _, expected_eq_done_iff.2 rfl, rfl⟩

theorem fieldName_eq_done_iff {s word rest : Bytes} :
    fieldName s = .done word rest ↔ isToken word = true ∧ s = word ++ 58 :: rest := by
  rw [isToken_iff_isWordByte, and_assoc, ← span_eq_iff isWordByte_colon, fieldName]
  rcases s.span isWordByte with ⟨word', _ | ⟨b, rest'⟩⟩
  · simp
  · simp only [Prod.mk.injEq, List.cons.injEq]
    split_ifs with h <;> grind

theorem isBlank_eq_false_of_isBreakByte {b : UInt8} (h : isBreakByte b = true) :
    Bytes.isBlank b = false ∧ isTextByte b = false := by
  simp only [isBreakByte, Bool.or_eq_true, beq_iff_eq] at h
  obtain rfl | rfl := h
  · decide
  · decide

theorem exists_bytes_eq_cons (e : LineBreak) :
    ∃ b s, e.bytes = b :: s ∧ isBreakByte b = true := by
  cases e with
  | lf => exact ⟨Bytes.lf, [], rfl, rfl⟩
  | crlf => exact ⟨Bytes.cr, [Bytes.lf], rfl, rfl⟩

/-- A token begins with an octet of a token. -/
theorem exists_of_isToken {s : Bytes} (h : isToken s = true) :
    ∃ b s', s = b :: s' ∧ isBreakByte b = false := by
  obtain ⟨hne, hall⟩ := (isToken_iff s).1 h
  obtain ⟨b, s', rfl⟩ := List.exists_cons_of_ne_nil hne
  exact ⟨b, s', rfl, isBreakByte_eq_false_of_isTokenByte (hall b (by simp))⟩

/-- A value is read without the blanks around it. -/
theorem fieldValue_append (f : FieldText) (rest : Bytes) :
    fieldValue (f.before ++ (f.value ++ f.after) ++ f.ending.bytes ++ rest) =
      .done f.value rest := by
  obtain ⟨b, tail, hending, hbreak⟩ := exists_bytes_eq_cons f.ending
  obtain ⟨hblank, hvalue⟩ := isBlank_eq_false_of_isBreakByte hbreak
  have hword : ∃ word, ((f.before ++ (f.value ++ f.after) ++ f.ending.bytes ++ rest).dropWhile
      Bytes.isBlank).span isTextByte = (word, f.ending.bytes ++ rest) ∧
        Bytes.trimEndWhile Bytes.isBlank word = f.value := by
    rw [hending, List.append_assoc, List.append_assoc, List.cons_append,
      List.dropWhile_append_of_pos f.isBlank_before]
    by_cases hnil : f.value = []
    · refine ⟨[], ?_, by rw [hnil]; rfl⟩
      rw [hnil, List.nil_append, List.dropWhile_append_of_pos f.isBlank_after,
        List.dropWhile_cons_of_neg (by simp [hblank]), span_eq_iff hvalue]
      simp
    · refine ⟨f.value ++ f.after, ?_, Bytes.trimEndWhile_append f.isBlank_after f.getLast_value⟩
      have hstop : ((f.value ++ f.after) ++ b :: (tail ++ rest)).dropWhile Bytes.isBlank =
          (f.value ++ f.after) ++ b :: (tail ++ rest) := by
        obtain ⟨c, value, hcons⟩ := List.exists_cons_of_ne_nil hnil
        have hc : Bytes.isBlank c = false := f.head_value c (by rw [hcons]; rfl)
        rw [hcons, List.cons_append, List.cons_append, List.dropWhile_cons_of_neg (by simp [hc])]
      rw [hstop, span_eq_iff hvalue]
      refine ⟨fun c hc => ?_, rfl⟩
      rw [isTextByte_eq]
      obtain hc | hc := List.mem_append.1 hc
      · exact f.isValueByte_value c hc
      · exact isValueByte_of_isBlank (f.isBlank_after c hc)
  obtain ⟨word, hspan, htrim⟩ := hword
  simp only [fieldValue, hspan]
  exact Scan.map_eq_done_iff.2 ⟨(), lineBreak_eq_done_iff.2 ⟨f.ending, rfl⟩, htrim⟩

/-- What is read as a value stands in blanks and in front of a line break. -/
theorem exists_of_fieldValue {s value rest : Bytes} (h : fieldValue s = .done value rest) :
    ∃ (before after : Bytes) (e : LineBreak), s = before ++ (value ++ after) ++ e.bytes ++ rest ∧
      (∀ b ∈ before, Bytes.isBlank b = true) ∧ (∀ b ∈ value, isValueByte b = true) ∧
      (∀ b ∈ value.head?, Bytes.isBlank b = false) ∧
      (∀ b ∈ value.getLast?, Bytes.isBlank b = false) ∧ ∀ b ∈ after, Bytes.isBlank b = true := by
  have hs : s = s.takeWhile Bytes.isBlank ++ s.dropWhile Bytes.isBlank :=
    List.takeWhile_append_dropWhile.symm
  have hfirst := List.head?_dropWhile_not Bytes.isBlank s
  simp only [fieldValue, List.span_eq_takeWhile_dropWhile] at h
  generalize s.dropWhile Bytes.isBlank = line at hs hfirst h
  obtain ⟨⟨⟩, hbreak, rfl⟩ := Scan.map_eq_done_iff.1 h
  obtain ⟨e, hrest⟩ := lineBreak_eq_done_iff.1 hbreak
  have hline : line = line.takeWhile isTextByte ++ line.dropWhile isTextByte :=
    List.takeWhile_append_dropWhile.symm
  have hvalue : ∀ b ∈ line.takeWhile isTextByte, isValueByte b = true :=
    fun b hb => isTextByte_eq b ▸ List.mem_takeWhile_imp hb
  generalize line.takeWhile isTextByte = word at hline hvalue
  obtain ⟨after, hword, hafter⟩ := Bytes.exists_of_trimEndWhile Bytes.isBlank word
  have hlast := Bytes.getLast?_trimEndWhile Bytes.isBlank word
  generalize Bytes.trimEndWhile Bytes.isBlank word = value at hword hlast
  refine ⟨s.takeWhile Bytes.isBlank, after, e, ?_, fun _ => List.mem_takeWhile_imp, ?_, ?_, hlast,
    hafter⟩
  · rw [List.append_assoc, ← hrest, ← hword, List.append_assoc, ← hline]
    exact hs
  · intro b hb
    exact hvalue b (by simp [hword, hb])
  · intro b hb
    have hhead : line.head? = some b := by
      rw [hline, hword, List.append_assoc, List.head?_append, Option.mem_def.1 hb]
      rfl
    rw [hhead] at hfirst
    exact hfirst

theorem fieldLine_eq_done_iff {s rest : Bytes} {line : FieldLine} :
    fieldLine s = .done line rest ↔ ∃ f : FieldText, f.line = line ∧ s = f.bytes ++ rest := by
  rw [fieldLine, Scan.bind_eq_done_iff]
  constructor
  · rintro ⟨name, mid, hname, hread⟩
    obtain ⟨value, hvalue, rfl⟩ := Scan.map_eq_done_iff.1 hread
    obtain ⟨htoken, rfl⟩ := fieldName_eq_done_iff.1 hname
    obtain ⟨before, after, e, rfl, hbefore, hbytes, hhead, hlast, hafter⟩ :=
      exists_of_fieldValue hvalue
    refine ⟨⟨name, before, value, after, e, htoken, hbefore, hbytes, hhead, hlast, hafter⟩, rfl, ?_⟩
    simp [FieldText.bytes, FieldText.front]
  · rintro ⟨f, rfl, rfl⟩
    have hname : fieldName (f.bytes ++ rest) = .done f.name
        (f.before ++ (f.value ++ f.after) ++ f.ending.bytes ++ rest) := by
      rw [fieldName_eq_done_iff]
      exact ⟨f.isToken_name, by simp [FieldText.bytes, FieldText.front]⟩
    exact ⟨f.name, _, hname, Scan.map_eq_done_iff.2 ⟨f.value, fieldValue_append f rest, rfl⟩⟩

theorem fieldLines_closing (room : ℕ) (closing : LineBreak) (rest : Bytes) :
    fieldLines room (closing.bytes ++ rest) = .done [] rest := by
  cases closing with
  | lf =>
    unfold fieldLines
    rfl
  | crlf =>
    unfold fieldLines
    rfl

theorem fieldLines_of_break {room : ℕ} {b : UInt8} {s : Bytes} (hb : isBreakByte b = true) :
    fieldLines room (b :: s) = (lineBreak .invalidNewLine (b :: s)).map fun _ => [] := by
  have hor : b = Bytes.lf ∨ b = Bytes.cr := by
    by_contra hnot
    simp [isBreakByte_eq_false_iff.2 hnot] at hb
  unfold fieldLines
  rw [if_pos hor]

/-- A line that is not empty is read as a field line, if there is room. -/
theorem fieldLines_of_not_break {room : ℕ} {b : UInt8} {s : Bytes} (hb : isBreakByte b = false) :
    fieldLines room (b :: s) = (fieldLine (b :: s)).bind fun line rest =>
      match room with
      | 0 => .bad (.tooManyHeaders maxFields)
      | room + 1 => (fieldLines room rest).map (line :: ·) := by
  conv_lhs => unfold fieldLines
  exact if_neg (isBreakByte_eq_false_iff.1 hb)

theorem exists_of_fieldLines {room : ℕ} {s rest : Bytes} {lines : List FieldLine}
    (h : fieldLines room s = .done lines rest) :
    ∃ (fields : List FieldText) (closing : LineBreak), fields.map FieldText.line = lines ∧
      fields.length ≤ room ∧ s = fieldBytes fields ++ (closing.bytes ++ rest) := by
  match s with
  | [] => simp [fieldLines] at h
  | b :: s =>
    cases hb : isBreakByte b with
    | true =>
      rw [fieldLines_of_break hb] at h
      obtain ⟨⟨⟩, hbreak, rfl⟩ := Scan.map_eq_done_iff.1 h
      obtain ⟨e, hs⟩ := lineBreak_eq_done_iff.1 hbreak
      exact ⟨[], e, rfl, Nat.zero_le _, hs⟩
    | false =>
      rw [fieldLines_of_not_break hb] at h
      obtain ⟨line, mid, hline, hlater⟩ := Scan.bind_eq_done_iff.1 h
      obtain ⟨f, rfl, hs⟩ := fieldLine_eq_done_iff.1 hline
      cases room with
      | zero => simp at hlater
      | succ room =>
        obtain ⟨lines, hlines, rfl⟩ := Scan.map_eq_done_iff.1 hlater
        obtain ⟨fields, closing, rfl, hroom, rfl⟩ := exists_of_fieldLines hlines
        refine ⟨f :: fields, closing, rfl, Nat.succ_le_succ hroom, ?_⟩
        rw [hs]
        simp [fieldBytes]
termination_by room

theorem fieldLines_eq_done_iff {room : ℕ} {s rest : Bytes} {lines : List FieldLine} :
    fieldLines room s = .done lines rest ↔ ∃ (fields : List FieldText) (closing : LineBreak),
      fields.map FieldText.line = lines ∧ fields.length ≤ room ∧
        s = fieldBytes fields ++ (closing.bytes ++ rest) := by
  constructor
  · exact exists_of_fieldLines
  · rintro ⟨fields, closing, rfl, hroom, rfl⟩
    induction fields generalizing room with
    | nil => exact fieldLines_closing room closing rest
    | cons f fields ih =>
      cases room with
      | zero => simp at hroom
      | succ room =>
        obtain ⟨b, s, hname, hb⟩ := exists_of_isToken f.isToken_name
        have hcons : fieldBytes (f :: fields) ++ (closing.bytes ++ rest) =
            f.bytes ++ (fieldBytes fields ++ (closing.bytes ++ rest)) := by
          simp [fieldBytes]
        have hfirst : ∃ s', f.bytes ++ (fieldBytes fields ++ (closing.bytes ++ rest)) = b :: s' := by
          simp [FieldText.bytes, FieldText.front, hname]
        obtain ⟨s', hfirst⟩ := hfirst
        have hline : fieldLine (b :: s') =
            .done f.line (fieldBytes fields ++ (closing.bytes ++ rest)) :=
          fieldLine_eq_done_iff.2 ⟨f, rfl, hfirst.symm⟩
        have hlater := ih (Nat.le_of_succ_le_succ hroom)
        rw [hcons, hfirst, fieldLines_of_not_break hb, hline]
        exact Scan.map_eq_done_iff.2 ⟨_, hlater, rfl⟩

theorem head_eq_done_iff {s rest : Bytes} {raw : RawHead} :
    head s = .done raw rest ↔ ∃ t : HeadText, t.raw = raw ∧ s = t.bytes ++ rest := by
  constructor
  · intro h
    obtain ⟨⟨⟩, s1, hskip, h⟩ := Scan.bind_eq_done_iff.1 h
    obtain ⟨word, s2, hmethod, h⟩ := Scan.bind_eq_done_iff.1 h
    obtain ⟨target, s3, htarget, h⟩ := Scan.bind_eq_done_iff.1 h
    obtain ⟨version, s4, hversion, h⟩ := Scan.bind_eq_done_iff.1 h
    obtain ⟨⟨⟩, s5, hbreak, h⟩ := Scan.bind_eq_done_iff.1 h
    obtain ⟨lines, hlines, rfl⟩ := Scan.map_eq_done_iff.1 h
    obtain ⟨skipped, rfl, -, -⟩ := skipEmptyLines_eq_done_iff.1 hskip
    obtain ⟨htoken, rfl⟩ := method_eq_done_iff.1 hmethod
    obtain ⟨hne, hvalid, hbytes, rfl⟩ := target_eq_done_iff.1 htarget
    obtain ⟨hnumber, rfl⟩ := version_eq_done_iff.1 hversion
    obtain ⟨ending, rfl⟩ := lineBreak_eq_done_iff.1 hbreak
    obtain ⟨fields, closing, rfl, hroom, rfl⟩ := fieldLines_eq_done_iff.1 hlines
    refine ⟨⟨skipped, word, target, version, ending, fields, closing, htoken, hne, hbytes, hvalid,
      hnumber, hroom⟩, rfl, ?_⟩
    simp [HeadText.bytes, HeadText.requestLine]
  · rintro ⟨t, rfl, rfl⟩
    have hskip : skipEmptyLines (t.bytes ++ rest) = .done () (t.requestLine ++
        (t.ending.bytes ++ (fieldBytes t.fields ++ (t.closing.bytes ++ rest)))) := by
      obtain ⟨b, s, hmethod, hb⟩ := exists_of_isToken t.isToken_method
      rw [skipEmptyLines_eq_done_iff]
      refine ⟨t.skipped, by simp [HeadText.bytes], ?_, ?_⟩
      · simp [HeadText.requestLine, hmethod]
      · simp [HeadText.requestLine, hmethod, hb]
    have hmethod (s : Bytes) : method (t.method ++ Bytes.space :: s) = .done t.method s :=
      method_eq_done_iff.2 ⟨t.isToken_method, rfl⟩
    have htarget (s : Bytes) : target (t.target ++ Bytes.space :: s) = .done t.target s :=
      target_eq_done_iff.2 ⟨t.target_ne_nil, t.isValid_target, t.isTargetByte_target, rfl⟩
    have hversion (s : Bytes) :
        version (ascii "HTTP/1." ++ t.version.digit :: s) = .done t.version s :=
      version_eq_done_iff.2 ⟨t.version_eq, rfl⟩
    have hbreak (s : Bytes) : lineBreak .invalidNewLine (t.ending.bytes ++ s) = .done () s :=
      lineBreak_eq_done_iff.2 ⟨t.ending, rfl⟩
    have hlines : fieldLines maxFields (fieldBytes t.fields ++ (t.closing.bytes ++ rest)) =
        .done (t.fields.map FieldText.line) rest :=
      fieldLines_eq_done_iff.2 ⟨t.fields, t.closing, rfl, t.length_fields_le, rfl⟩
    rw [head, hskip]
    simp only [HeadText.requestLine, List.append_assoc, List.cons_append, List.nil_append, Scan.bind,
      Scan.map, hmethod, htarget, hversion, hbreak, hlines]
    rfl

end CoopHttp.Grammar
