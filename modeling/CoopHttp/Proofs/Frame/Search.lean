import CoopHttp.Proofs.Frame.FirstEnd
import CoopHttp.Proofs.Frame.HeadEnd
import CoopHttp.Proofs.Frame.Seek

/-!
# Searching for the end of a head

A reader searches whenever it is asked to, and octets arrive in between. It finds the same end however
they arrive and however often it is asked.
-/
namespace CoopHttp

/-- What happens to a reader that is to find the end of a head: octets arrive, or it searches. -/
inductive SearchStep
  | arrive (bytes : Bytes)
  | search
  deriving DecidableEq

namespace FrameReader

/-- The reader after one step. -/
def follow (r : FrameReader) : SearchStep → FrameReader
  | .arrive bytes => r.extend bytes
  | .search => r.findEnd.1

/-- The reader after some steps. -/
def followAll (r : FrameReader) (steps : List SearchStep) : FrameReader := steps.foldl follow r

def arriving : List SearchStep → Bytes
  | [] => []
  | .arrive bytes :: steps => bytes ++ arriving steps
  | .search :: steps => arriving steps

variable {r : FrameReader} {s : Bytes}

/-- A search among the octets `s` is where it should be: the matcher has got over the first of them,
or has stopped at the first end. -/
structure Searching (r : FrameReader) (s : Bytes) : Prop where
  buffer_eq : r.buffer = s
  pending : r.ending = none → ∃ read, Seeking r read ∧ read <+: s
  found : ∀ e ∈ r.ending, FirstEnd s e ∧ r.scanned = e.bodyStart

theorem searching_withMaxBody (maxBody : ℕ) : Searching (withMaxBody maxBody) [] where
  buffer_eq := rfl
  pending _ := ⟨[], ⟨rfl, Terminator.passes_nil _, rfl⟩, List.nil_prefix⟩
  found := fun _ he => nomatch he

theorem Searching.extend (h : Searching r s) (bytes : Bytes) :
    Searching (r.extend bytes) (s ++ bytes) where
  buffer_eq := congrArg (· ++ bytes) h.buffer_eq
  pending hnone := by
    obtain ⟨read, hseeking, hprefix⟩ := h.pending hnone
    exact ⟨read, ⟨hseeking.scanned_eq, hseeking.passes, hseeking.ending_eq⟩,
      hprefix.trans (List.prefix_append s bytes)⟩
  found e he := ⟨(h.found e he).1.append bytes, (h.found e he).2⟩

/-- An end that has been found is answered again, and nothing is read for it. -/
theorem findEnd_of_ending {e : HeadEnd} (h : r.ending = some e) : r.findEnd = (r, some e) := by
  rw [findEnd, h]

/-- What a search comes to: the first end, which it stops at, or all has been read and there is
none. -/
theorem Searching.findEnd (h : Searching r s) :
    Searching r.findEnd.1 s ∧ r.findEnd.1.ending = r.findEnd.2 ∧
      (r.findEnd.2 = none → r.findEnd.1.scanned = s.length ∧ NoEnd s) := by
  cases hending : r.ending with
  | some e =>
    rw [findEnd_of_ending hending]
    exact ⟨h, hending, fun hnone => by cases hnone⟩
  | none =>
    obtain ⟨read, hseeking, unread, hs⟩ := h.pending hending
    have hbuffer : r.buffer = read ++ unread := h.buffer_eq.trans hs.symm
    obtain ⟨t, hpasses⟩ | ⟨t, n, length, hrun⟩ := Terminator.start.run_cases r.buffer
    · rw [hseeking.findEnd_eq hbuffer hpasses]
      have hlength : r.buffer.length = s.length := congrArg List.length h.buffer_eq
      rw [h.buffer_eq] at hpasses
      refine ⟨⟨h.buffer_eq, fun _ => ?_, fun e he => (nomatch he)⟩, rfl,
        fun _ => ⟨hlength, Terminator.noEnd_of_passes hpasses⟩⟩
      exact ⟨s, ⟨hlength, hpasses, rfl⟩, List.prefix_rfl⟩
    · rw [hseeking.findEnd_eq hbuffer hrun]
      have hstart := bodyStart_of_run hrun
      rw [h.buffer_eq] at hrun
      refine ⟨⟨h.buffer_eq, fun hnone => (nomatch hnone), fun e he => ?_⟩, rfl,
        fun hnone => (nomatch hnone)⟩
      cases he
      exact ⟨Terminator.firstEnd_of_run hrun, hstart.symm⟩

theorem Searching.followAll (steps : List SearchStep) (h : Searching r s) :
    Searching (r.followAll steps) (s ++ arriving steps) := by
  induction steps generalizing r s with
  | nil => simpa [FrameReader.followAll, arriving] using h
  | cons step steps ih =>
    cases step with
    | arrive bytes =>
      have hlater := ih (h.extend bytes)
      rwa [List.append_assoc] at hlater
    | search => exact ih h.findEnd.1

/-- An end that has been found stays, and octets that arrive are only put behind the others. -/
theorem followAll_of_ending {e : HeadEnd} (h : r.ending = some e) (steps : List SearchStep) :
    r.followAll steps = r.extend (arriving steps) := by
  induction steps generalizing r with
  | nil => simp [followAll, arriving, extend]
  | cons step steps ih =>
    cases step with
    | arrive bytes =>
      have hlater := ih (r := r.extend bytes) h
      simpa [followAll, follow, arriving, extend] using hlater
    | search =>
      have hlater := ih h
      simpa [followAll, follow, arriving, findEnd_of_ending h] using hlater

/-- However octets arrive at a fresh reader and however often it searches meanwhile, a search finds
the first end of a head among all of them, and has read up to it; if there is none, all of them have
been read. Once an end has been found, every later search answers the same, and the reader is as it
was but for the octets that have arrived. -/
theorem findEnd_followAll (maxBody : ℕ) (steps : List SearchStep) :
    let r := (withMaxBody maxBody).followAll steps
    (∀ e, r.findEnd.2 = some e ↔ FirstEnd (arriving steps) e) ∧
      (r.findEnd.2 = none ↔ NoEnd (arriving steps)) ∧
      r.findEnd.1.scanned =
        (r.findEnd.2.map HeadEnd.bodyStart).getD (arriving steps).length ∧
      ∀ e, r.findEnd.2 = some e → ∀ later,
        r.findEnd.1.followAll later = r.findEnd.1.extend (arriving later) ∧
          (r.findEnd.1.followAll later).findEnd = (r.findEnd.1.followAll later, some e) := by
  intro r
  have hsearching := (searching_withMaxBody maxBody).followAll steps
  rw [List.nil_append] at hsearching
  obtain ⟨hafter, hending, hnone⟩ := hsearching.findEnd
  have hsome : ∀ e, r.findEnd.2 = some e → FirstEnd (arriving steps) e ∧
      r.findEnd.1.scanned = e.bodyStart := fun e he => hafter.found e (hending.trans he)
  refine ⟨fun e => ⟨fun he => (hsome e he).1, fun he => ?_⟩, ⟨fun h => (hnone h).2, fun h => ?_⟩, ?_,
    fun e he later => ?_⟩
  · cases hfound : r.findEnd.2 with
    | none => exact absurd he ((hnone hfound).2.not_firstEnd e)
    | some e' => rw [he.unique (hsome e' hfound).1]
  · cases hfound : r.findEnd.2 with
    | none => rfl
    | some e => exact absurd (hsome e hfound).1 (h.not_firstEnd e)
  · cases hfound : r.findEnd.2 with
    | none => exact (hnone hfound).1
    | some e => exact (hsome e hfound).2
  · have hstays := followAll_of_ending (hending.trans he) later
    refine ⟨hstays, ?_⟩
    rw [hstays]
    exact findEnd_of_ending (hending.trans he)

/-- A search that is taken up within a terminator, in front of a longer one. -/
example : ((withMaxBody 0).followAll
    [.arrive (ascii "a\r\n"), .search, .arrive (ascii "\r"), .search,
      .arrive (ascii "\n\n\n")]).findEnd.2 = some ⟨1, 4⟩ := by decide +kernel

end FrameReader

end CoopHttp
