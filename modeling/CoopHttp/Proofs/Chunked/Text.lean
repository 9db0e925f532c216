import CoopHttp.Proofs.Line
import CoopHttp.Proofs.Numeral

/-!
# Chunked payloads as they are written

The grammar of the chunked coding, as data: each part of a payload carries its octets together with
what makes them well-formed. A size line may be spelled in many ways, and so may a payload; nothing
here mentions a decoder.
-/
namespace CoopHttp

/-- A size line: hexadecimal digits, white space, perhaps a semicolon with anything behind it that
is no line feed, and a line break. -/
structure SizeLine where
  digits : Bytes
  blanks : Bytes
  /-- What stands behind the semicolon, if there is one. -/
  extension : Option Bytes
  ending : LineBreak
  /-- The number that the digits denote. -/
  size : ℕ
  digits_ne_nil : digits ≠ []
  value_digits : numeralValue? 16 Bytes.hexValue? digits = some size
  size_lt : size < UInt64.size
  isSpace_blanks : ∀ b ∈ blanks, Bytes.isSpace b = true
  lf_notMem_blanks : Bytes.lf ∉ blanks
  lf_notMem_extension : ∀ e ∈ extension, Bytes.lf ∉ e
  length_le : digits.length + blanks.length + (extension.elim 0 (·.length + 1)) +
    ending.bytes.length ≤ ChunkedDecoder.maxSizeLine

namespace SizeLine

/-- The semicolon and what stands behind it. -/
def extensionBytes (l : SizeLine) : Bytes := l.extension.elim [] (59 :: ·)

/-- Everything in front of the line feed. -/
def front (l : SizeLine) : Bytes :=
  l.digits ++ (l.blanks ++ l.extensionBytes ++ l.ending.lead)

def bytes (l : SizeLine) : Bytes := l.front ++ [Bytes.lf]

end SizeLine

/-- A chunk: a size line, as many octets as it says, at least one, and a line break. -/
structure Chunk where
  line : SizeLine
  data : Bytes
  ending : LineBreak
  size_line : line.size = data.length
  data_ne_nil : data ≠ []

def Chunk.bytes (c : Chunk) : Bytes := c.line.bytes ++ c.data ++ c.ending.bytes

/-- A trailer line in front of its line feed: it is not empty, nor a lone CR. -/
structure TrailerLine where
  front : Bytes
  lf_notMem : Bytes.lf ∉ front
  ne_nil : front ≠ []
  ne_cr : front ≠ [Bytes.cr]

def TrailerLine.bytes (l : TrailerLine) : Bytes := l.front ++ [Bytes.lf]

def trailerBytes (lines : List TrailerLine) : Bytes := (lines.map TrailerLine.bytes).flatten

/-- A chunked payload: chunks, a size line of zero, trailer lines and a line break. -/
structure ChunkedText where
  chunks : List Chunk
  last : SizeLine
  lines : List TrailerLine
  ending : LineBreak
  size_last : last.size = 0
  length_lines_le : (trailerBytes lines).length ≤ ChunkedDecoder.maxTrailer

namespace ChunkedText

def data (t : ChunkedText) : Bytes := (t.chunks.map Chunk.data).flatten

/-- The trailer lines, line breaks included. -/
def trailer (t : ChunkedText) : Bytes := trailerBytes t.lines

/-- The payload up to its closing line break. -/
def body (t : ChunkedText) : Bytes :=
  (t.chunks.map Chunk.bytes).flatten ++ t.last.bytes ++ t.trailer

def bytes (t : ChunkedText) : Bytes := t.body ++ t.ending.bytes

theorem bytes_eq (t : ChunkedText) : t.bytes = t.body ++ (t.ending.lead ++ [Bytes.lf]) := by
  rw [bytes, LineBreak.bytes_eq]

/-- In front of the closing line break, a line ends. -/
theorem exists_body_eq (t : ChunkedText) : ∃ s, t.body = s ++ [Bytes.lf] := by
  rw [body, trailer]
  obtain hlines | ⟨lines, l, hlines⟩ := List.eq_nil_or_concat t.lines
  · refine ⟨(t.chunks.map Chunk.bytes).flatten ++ t.last.front, ?_⟩
    simp [hlines, trailerBytes, SizeLine.bytes]
  · refine ⟨(t.chunks.map Chunk.bytes).flatten ++ t.last.bytes ++ trailerBytes lines ++ l.front, ?_⟩
    simp [hlines, trailerBytes, TrailerLine.bytes]

end ChunkedText

end CoopHttp
