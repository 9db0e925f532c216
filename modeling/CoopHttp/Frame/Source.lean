import CoopHttp.Frame.Reader

/-!
# Reading from a source

A source hands out octets one fill at a time: some octets, or an error. A fill of no octets, and a
source that has run out, mean that the other side has closed. Here the operations of a frame reader
are driven to their end against a source.
-/
namespace CoopHttp

inductive Fill
  | bytes (bytes : Bytes)
  | failure (error : IoError)
  deriving DecidableEq, Repr

/-- The attempts still to come. -/
abbrev Source := List Fill

/-- The octets and attempts that a source still holds, an octet counted twice. -/
def Source.weight : Source → Nat
  | [] => 0
  | .bytes bytes :: rest => 2 * bytes.length + 1 + weight rest
  | .failure _ :: rest => 1 + weight rest

namespace FrameReader

/-- Reads from a source until the head is complete; `false` if the other side closed before it sent
anything. -/
def pullHead (r : FrameReader) : Source → FrameReader × Source × Except ParseError Bool
  | [] =>
    match r.seekHead with
    | (r, .done result) => (r, [], result)
    | (r, .starved) => (r, [], r.headAtEnd)
  | fill :: source =>
    match r.seekHead with
    | (r, .done result) => (r, fill :: source, result)
    | (r, .starved) =>
      match fill with
      | .failure error => (r, source, .error (.io error))
      | .bytes [] => (r, source, r.headAtEnd)
      | .bytes bytes => pullHead (r.extend bytes) source

/-- Reads from a source until the payload is decoded. -/
def pullPayload (d : PayloadDecoder) (r : FrameReader) :
    Source → FrameReader × Source × Except ParseError Unit
  | [] =>
    match drain d r with
    | (_, r, .done result) => (r, [], result)
    | (_, r, .starved) => (r, [], bodyAtEnd)
  | fill :: source =>
    match drain d r with
    | (_, r, .done result) => (r, fill :: source, result)
    | (d, r, .starved) =>
      match fill with
      | .failure error => (r, source, .error (.io error))
      | .bytes [] => (r, source, bodyAtEnd)
      | .bytes bytes => pullPayload d (r.extend bytes) source

/-- Decodes a payload behind the head, which is read first if it has not been. -/
def pullBehindHead (r : FrameReader) (d : PayloadDecoder) (source : Source) :
    Except Crash (FrameReader × Source × Except ParseError Unit) :=
  r.parseHead.map fun
    | (r, .error error) => (r, source, .error error)
    | (r, .ok _) => r.pullPayload d source

def pullLength (r : FrameReader) (n : Nat) (source : Source) :
    Except Crash (FrameReader × Source × Except ParseError Unit) :=
  match r.checkSize n with
  | .error error => .ok (r, source, .error error)
  | .ok () => r.pullBehindHead (.length ⟨n⟩) source

def pullChunked (r : FrameReader) (source : Source) :
    Except Crash (FrameReader × Source × Except ParseError Unit) :=
  r.pullBehindHead (.chunked {}) source

/-- Reads the payload that the head declares. -/
def pullDeclared (r : FrameReader) (source : Source) :
    Except Crash (FrameReader × Source × Except ParseError Unit) :=
  r.parseHead.map fun
    | (r, .error error) => (r, source, .error error)
    | (r, .ok _) =>
      let size := r.payload.getD .empty
      match r.checkSize size.contentLength with
      | .error error => (r, source, .error error)
      | .ok () => r.pullPayload (.ofSize size) source

end FrameReader

end CoopHttp
