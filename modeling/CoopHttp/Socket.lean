import CoopHttp.Frame.Source

/-!
# Sockets

A socket is given by what each attempt to read from it and each attempt to write to it will come
to. An attempt that was interrupted is repeated at once; one that would block is reported, for the
caller to wait.
-/
namespace CoopHttp

/-- What one attempt to write comes to: some octets are accepted, at most `n`, or an error. -/
inductive Acceptance
  | upTo (n : Nat)
  | failure (error : IoError)
  deriving DecidableEq, Repr

/-- The attempts still to come. When no attempt to write is left, everything is accepted. -/
structure Socket where
  reads : Source
  writes : List Acceptance
  deriving DecidableEq, Repr

inductive Attempt (α : Type)
  | done (value : α)
  | blocked
  | failed (error : IoError)
  deriving DecidableEq, Repr

namespace Socket

/-- Reads at most `size` octets; what is left of a fill comes first the next time. -/
def readFrom (size : Nat) : Source → Source × Attempt Bytes
  | [] => ([], .done [])
  | .bytes bytes :: rest =>
    if bytes.drop size = [] then (rest, .done bytes)
    else (.bytes (bytes.drop size) :: rest, .done (bytes.take size))
  | .failure .interrupted :: rest => readFrom size rest
  | .failure .wouldBlock :: rest => (rest, .blocked)
  | .failure error :: rest => (rest, .failed error)

/-- What has been read weighs more in the source than it does as plain octets. -/
theorem weight_readFrom_lt {size : Nat} {reads rest : Source} {bytes : Bytes}
    (h : readFrom size reads = (rest, .done bytes)) (hne : bytes ≠ []) :
    Source.weight rest + bytes.length < Source.weight reads := by
  fun_induction readFrom size reads with
  | case1 => simp_all
  | case2 b reads hle =>
    simp only [Prod.mk.injEq, Attempt.done.injEq] at h
    obtain ⟨rfl, rfl⟩ := h
    simp only [Source.weight]
    omega
  | case3 b reads hle =>
    simp only [Prod.mk.injEq, Attempt.done.injEq] at h
    obtain ⟨rfl, rfl⟩ := h
    have : size ≠ 0 := by rintro rfl; simp at hne
    have : ¬ b.length ≤ size := by simpa using hle
    simp only [Source.weight, List.length_drop, List.length_take]
    omega
  | case4 reads ih =>
    have := ih h
    simp only [Source.weight]
    omega
  | case5 reads => simp at h
  | case6 => simp at h

/-- Reads at most `size` octets; none means that the other side has closed. -/
def read (size : Nat) (socket : Socket) : Socket × Attempt Bytes :=
  let (reads, attempt) := readFrom size socket.reads
  ({ socket with reads }, attempt)

/-- Offers octets; the answer is how many were accepted. -/
def writeTo (data : Bytes) : List Acceptance → List Acceptance × Attempt Nat
  | [] => ([], .done data.length)
  | .upTo n :: rest => (rest, .done (min n data.length))
  | .failure .interrupted :: rest => writeTo data rest
  | .failure .wouldBlock :: rest => (rest, .blocked)
  | .failure error :: rest => (rest, .failed error)

def write (data : Bytes) (socket : Socket) : Socket × Attempt Nat :=
  let (writes, attempt) := writeTo data socket.writes
  ({ socket with writes }, attempt)

/-- A transfer of octets as far as it has come: the pieces accepted, one for each successful attempt,
and what is left to write. -/
structure Transfer where
  accepted : List Bytes
  rest : Bytes
  deriving DecidableEq, Repr

/-- Offers octets until all are accepted; a socket that accepts none of them has failed. -/
def writeAllTo (data : Bytes) (writes : List Acceptance) :
    Transfer × List Acceptance × Attempt Unit :=
  if data = [] then (⟨[], []⟩, writes, .done ())
  else match writes with
    | [] => (⟨[data], []⟩, [], .done ())
    | .upTo n :: writes =>
      if n = 0 then (⟨[[]], data⟩, writes, .failed .writeZero)
      else
        let (transfer, writes, attempt) := writeAllTo (data.drop n) writes
        ({ transfer with accepted := data.take n :: transfer.accepted }, writes, attempt)
    | .failure .interrupted :: writes => writeAllTo data writes
    | .failure .wouldBlock :: writes => (⟨[], data⟩, writes, .blocked)
    | .failure error :: writes => (⟨[], data⟩, writes, .failed error)

/-- Offers octets until all are accepted. -/
def writeAll (data : Bytes) (socket : Socket) : Transfer × Socket × Attempt Unit :=
  let (transfer, writes, attempt) := writeAllTo data socket.writes
  (transfer, { socket with writes }, attempt)

end Socket

end CoopHttp
