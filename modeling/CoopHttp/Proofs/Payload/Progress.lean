import CoopHttp.Payload.Decoder
import Mathlib.Data.List.Infix
import Mathlib.Tactic.Common

/-!
# Decoding gets on

A decoder only ever takes octets off the front of the buffer. Every piece it hands out is some of
them, a chunk decoder takes no more steps that hand out nothing than there are octets, and a decoder
that waits goes on waiting until there are more octets. None of this depends on the state it is in.
-/
namespace CoopHttp

namespace ChunkedDecoder

/-- What a step makes of the decoding it is a part of. -/
def Step.answer? : Step → Option (Except ParseError (Option PayloadItem))
  | .moved => none
  | .item out => some (.ok (some out))
  | .waits => some (.ok none)
  | .bad error => some (.error error)

/-- So many steps lead from the first decoder and buffer to the second, none of which hands anything
out. -/
inductive Moves : ChunkedDecoder → Bytes → ℕ → ChunkedDecoder → Bytes → Prop
  | refl (d : ChunkedDecoder) (src : Bytes) : Moves d src 0 d src
  | step {d d' d'' : ChunkedDecoder} {src rest rest' : Bytes} {n : ℕ}
    (h : d.step src = (d', rest, .moved)) (later : Moves d' rest n d'' rest') :
    Moves d src (n + 1) d'' rest'

/-- Each of the steps takes octets off the buffer. -/
theorem Moves.add_length_le {d d' : ChunkedDecoder} {src rest : Bytes} {n : ℕ}
    (h : Moves d src n d' rest) : n + rest.length ≤ src.length := by
  induction h with
  | refl => exact Nat.le_of_eq (Nat.zero_add _)
  | @step d d' _ src rest _ _ h _ ih =>
    have hlt := step_rest_lt d src (by rw [h]; rfl)
    rw [h] at hlt
    dsimp only at hlt
    omega

/-- Decoding is a number of steps that hand out nothing and one that answers. -/
theorem exists_moves_decode (d : ChunkedDecoder) (src : Bytes) :
    ∃ n d₁ rest₁ d' rest outcome answer, Moves d src n d₁ rest₁ ∧
      d₁.step rest₁ = (d', rest, outcome) ∧ outcome.answer? = some answer ∧
      d.decode src = (d', rest, answer) := by
  fun_induction decode d src with
  | case1 d src d' rest h ih =>
    obtain ⟨n, d₁, rest₁, d'', rest', outcome, answer, hmoves, hlast⟩ := ih
    exact ⟨n + 1, d₁, rest₁, d'', rest', outcome, answer, .step h hmoves, hlast⟩
  | case2 d src d' rest item h => exact ⟨0, d, src, d', rest, _, _, .refl d src, h, rfl, rfl⟩
  | case3 d src d' rest h => exact ⟨0, d, src, d', rest, _, _, .refl d src, h, rfl, rfl⟩
  | case4 d src d' rest error h => exact ⟨0, d, src, d', rest, _, _, .refl d src, h, rfl, rfl⟩

theorem step_suffix {d d' : ChunkedDecoder} {src rest : Bytes} {outcome : Step}
    (h : d.step src = (d', rest, outcome)) : rest <:+ src := by
  unfold step at h
  split at h
  · unfold stepSize waitForLine at h
    repeat' split at h
    all_goals cases h
    all_goals first | exact List.suffix_rfl | exact List.drop_suffix _ _
  · unfold stepData at h
    split at h <;> cases h
    · exact List.suffix_rfl
    · exact List.drop_suffix _ _
  · unfold stepDataEnd at h
    repeat' split at h
    all_goals cases h
    all_goals simp [List.suffix_cons_iff]
  · unfold stepTrailer waitForLine at h
    repeat' split at h
    all_goals cases h
    all_goals first | exact List.suffix_rfl | exact List.drop_suffix _ _
  · cases h
    exact List.suffix_rfl

/-- A piece is some octets at the front of the buffer. -/
theorem step_chunk {d d' : ChunkedDecoder} {src rest piece : Bytes}
    (h : d.step src = (d', rest, .item (.chunk piece))) : piece ≠ [] ∧ src = piece ++ rest := by
  unfold step at h
  split at h
  · unfold stepSize waitForLine at h
    repeat' split at h
    all_goals simp at h
  · rename_i remaining hpos hphase
    unfold stepData at h
    split at h <;> cases h
    rename_i hsrc
    refine ⟨fun hnil => ?_, (List.take_append_drop _ _).symm⟩
    obtain hzero | hnil := List.take_eq_nil_iff.1 hnil
    · exact absurd hpos (by omega)
    · exact hsrc hnil
  · unfold stepDataEnd at h
    repeat' split at h
    all_goals simp at h
  · unfold stepTrailer waitForLine at h
    repeat' split at h
    all_goals simp at h
  · simp at h

/-- The search for a line feed does not find one where it did not find one. -/
theorem lineEnd?_scanned (phase : ChunkPhase) (src trailer : Bytes) :
    (⟨phase, src.length, trailer⟩ : ChunkedDecoder).lineEnd? src = none := by
  simp [lineEnd?, Bytes.lineLength?]

/-- A step that waits changes nothing the second time. -/
theorem step_again_of_waits {d d' : ChunkedDecoder} {src rest : Bytes}
    (h : d.step src = (d', rest, .waits)) : d'.step rest = (d', rest, .waits) := by
  have hstep := h
  unfold step at h
  split at h
  · rename_i hphase
    unfold stepSize waitForLine at h
    split at h
    · split at h
      · rename_i hle
        cases h
        simp only [step, hphase, stepSize, lineEnd?_scanned, waitForLine, hle, if_true]
      · cases h
    · repeat' split at h
      all_goals cases h
  · unfold stepData at h
    split at h <;> cases h
    exact hstep
  · unfold stepDataEnd at h
    repeat' split at h
    all_goals cases h
    all_goals exact hstep
  · rename_i hphase
    unfold stepTrailer waitForLine at h
    split at h
    · split at h
      · rename_i hle
        cases h
        simp only [step, hphase, stepTrailer, lineEnd?_scanned, waitForLine, hle, if_true]
      · cases h
    · repeat' split at h
      all_goals cases h
  · cases h

theorem decode_suffix {d d' : ChunkedDecoder} {src rest : Bytes}
    {answer : Except ParseError (Option PayloadItem)} (h : d.decode src = (d', rest, answer)) :
    rest <:+ src := by
  fun_induction decode d src with
  | case1 d src d₁ rest₁ hstep ih => exact (ih h).trans (step_suffix hstep)
  | case2 d src d₁ rest₁ item hstep | case3 d src d₁ rest₁ hstep | case4 d src d₁ rest₁ error hstep =>
    cases h
    exact step_suffix hstep

theorem decode_chunk {d d' : ChunkedDecoder} {src rest piece : Bytes}
    (h : d.decode src = (d', rest, .ok (some (.chunk piece)))) :
    piece ≠ [] ∧ piece ++ rest <:+ src := by
  fun_induction decode d src with
  | case1 d src d₁ rest₁ hstep ih =>
    exact (ih h).imp_right fun hsuffix => hsuffix.trans (step_suffix hstep)
  | case2 d src d₁ rest₁ item hstep =>
    cases h
    obtain ⟨hne, rfl⟩ := step_chunk hstep
    exact ⟨hne, List.suffix_rfl⟩
  | case3 | case4 => cases h

theorem decode_again_of_none {d d' : ChunkedDecoder} {src rest : Bytes}
    (h : d.decode src = (d', rest, .ok none)) : d'.decode rest = (d', rest, .ok none) := by
  fun_induction decode d src with
  | case1 d src d₁ rest₁ hstep ih => exact ih h
  | case2 | case4 => cases h
  | case3 d src d₁ rest₁ hstep =>
    cases h
    rw [decode, step_again_of_waits hstep]

end ChunkedDecoder

namespace PayloadDecoder

structure GetsOn (d : PayloadDecoder) (src : Bytes) : Prop where
  /-- Chunks are decoded in at most one step for each octet and one that answers; decoders of other
  kinds have no steps. -/
  exists_moves : ∀ c, d = chunked c → ∃ n c₁ rest₁ c' rest outcome answer,
    ChunkedDecoder.Moves c src n c₁ rest₁ ∧ n ≤ src.length ∧ c₁.step rest₁ = (c', rest, outcome) ∧
      outcome.answer? = some answer ∧ d.decode src = (chunked c', rest, answer)
  suffix : ∀ {d' rest answer}, d.decode src = (d', rest, answer) → rest <:+ src
  /-- A piece was taken off the front, behind what delimits it in a chunked payload. -/
  chunk : ∀ {d' rest piece}, d.decode src = (d', rest, .ok (some (.chunk piece))) →
    piece ≠ [] ∧ piece ++ rest <:+ src ∧ (∀ l, d = length l → src = piece ++ rest)
  /-- Without more octets, a decoder that waits goes on waiting. -/
  again : ∀ {d' rest}, d.decode src = (d', rest, .ok none) → d'.decode rest = (d', rest, .ok none)

theorem getsOn (d : PayloadDecoder) (src : Bytes) : d.GetsOn src := by
  cases d with
  | length l =>
    refine ⟨by simp, ?_, ?_, ?_⟩
    · intro d' rest answer h
      rw [decode, LengthDecoder.decode] at h
      split_ifs at h <;> cases h
      · exact List.suffix_rfl
      · exact List.suffix_rfl
      · exact List.drop_suffix _ _
    · intro d' rest piece h
      rw [decode, LengthDecoder.decode] at h
      split_ifs at h with hzero hsrc <;> cases h
      have hsplit : src = src.take l.remaining ++ src.drop l.remaining :=
        (List.take_append_drop _ _).symm
      refine ⟨fun hnil => ?_, hsplit ▸ List.suffix_rfl, fun _ _ => hsplit⟩
      exact (List.take_eq_nil_iff.1 hnil).elim hzero hsrc
    · intro d' rest h
      rw [decode, LengthDecoder.decode] at h
      split_ifs at h with hzero hsrc <;> cases h
      simp [decode, LengthDecoder.decode, hzero, hsrc]
  | chunked c =>
    have hdecode : (chunked c).decode src =
        (chunked (c.decode src).1, (c.decode src).2.1, (c.decode src).2.2) := rfl
    refine ⟨?_, ?_, ?_, ?_⟩
    · rintro _ ⟨⟩
      obtain ⟨n, c₁, rest₁, c', rest, outcome, answer, hmoves, hlast, hanswer, hc⟩ :=
        c.exists_moves_decode src
      have hle := hmoves.add_length_le
      exact ⟨n, c₁, rest₁, c', rest, outcome, answer, hmoves, by omega, hlast, hanswer,
        by rw [hdecode, hc]⟩
    · intro d' rest answer h
      rw [hdecode] at h
      cases h
      exact ChunkedDecoder.decode_suffix rfl
    · intro d' rest piece h
      rw [hdecode] at h
      obtain ⟨-, hpiece⟩ := Prod.mk.inj h
      obtain ⟨hne, hsuffix⟩ := ChunkedDecoder.decode_chunk (Prod.ext rfl hpiece)
      exact ⟨hne, hsuffix, by simp⟩
    · intro d' rest h
      rw [hdecode] at h
      obtain ⟨rfl, hnone⟩ := Prod.mk.inj h
      rw [decode, ChunkedDecoder.decode_again_of_none (Prod.ext rfl hnone)]
  | empty =>
    refine ⟨by simp, ?_, ?_, ?_⟩
    · intro d' rest answer h
      cases h
      exact List.suffix_rfl
    · intro d' rest piece h
      cases h
    · intro d' rest h
      cases h

end PayloadDecoder

end CoopHttp
