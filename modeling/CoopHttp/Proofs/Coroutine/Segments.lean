import CoopHttp.Proofs.Coroutine.Channel
import Mathlib.Data.List.Forall2
import Mathlib.Data.List.ReduceOption
import Mathlib.Tactic.Common

/-!
# The segments of a coroutine

A body that suspends, parks and returns is a sequence of segments, and nothing is said here about the
answers it is given on the way. Resuming it runs these segments one after the other, one for each
resume value, and hands each value over once and in its own segment only.
-/
namespace CoopHttp

variable {ρ υ ε : Type}

/-- What a segment of a body ends with. -/
inductive Pause (ρ υ ε : Type)
  | suspended (value : υ) (next : ρ → Body ρ υ ε)
  | parked (next : Unit → Body ρ υ ε)
  | returned

namespace Pause

/-- What is left of the body. -/
def rest : Pause ρ υ ε → Coroutine ρ υ ε
  | suspended _ next => .waiting next
  | parked next => .parked next
  | returned => .complete

/-- What the resumer is told. -/
def outcome : Pause ρ υ ε → Resumed υ
  | suspended value _ => .yielded value
  | parked _ => .idle
  | returned => .complete

end Pause

namespace Body

/-- The body yields only where it suspends. -/
inductive Segmented : Body ρ υ ε → Prop
  | returned : Segmented .returned
  | log (entry : ε) {next : Body ρ υ ε} (h : Segmented next) : Segmented (.log entry next)
  | take {next : Option ρ → Body ρ υ ε} (h : ∀ answer, Segmented (next answer)) :
    Segmented (.take next)
  | suspend (value : υ) {next : ρ → Body ρ υ ε} (h : ∀ reply, Segmented (next reply)) :
    Segmented (.suspend value next)
  | park {next : Unit → Body ρ υ ε} (h : Segmented (next ())) : Segmented (.park next)

/-- The body goes through its first segment: it asks for the resume value and is given these answers,
it logs these entries, and it pauses or returns. -/
inductive Passes : Body ρ υ ε → List (Option ρ) → List ε → Pause ρ υ ε → Prop
  | returned : Passes .returned [] [] .returned
  | log (entry : ε) {next : Body ρ υ ε} {answers : List (Option ρ)} {entries : List ε}
    {pause : Pause ρ υ ε} (h : Passes next answers entries pause) :
    Passes (.log entry next) answers (entry :: entries) pause
  | take (answer : Option ρ) {next : Option ρ → Body ρ υ ε} {answers : List (Option ρ)}
    {entries : List ε} {pause : Pause ρ υ ε} (h : Passes (next answer) answers entries pause) :
    Passes (.take next) (answer :: answers) entries pause
  | suspend (value : υ) (next : ρ → Body ρ υ ε) :
    Passes (.suspend value next) [] [] (.suspended value next)
  | park (next : Unit → Body ρ υ ε) : Passes (.park next) [] [] (.parked next)

end Body

structure Segment (ρ υ ε : Type) where
  /-- What a suspension that was pending came back with. -/
  reply : Option ρ
  /-- What the body was answered when it asked for the resume value. -/
  answers : List (Option ρ)
  entries : List ε
  outcome : Resumed υ

namespace Segment

def received (s : Segment ρ υ ε) : List ρ := (s.reply :: s.answers).reduceOption

/-- The body received this value and no other, and it received it once; or it never asked. -/
structure Receives (s : Segment ρ υ ε) (value : ρ) : Prop where
  received_eq : s.received = if s.reply = none ∧ s.answers = [] then [] else [value]
  /-- A pending suspension comes first. -/
  reply_eq : ∀ reply ∈ s.reply, reply = value
  /-- Without one, whoever asks first. -/
  head_answers : s.reply = none → ∀ answer ∈ s.answers.head?, answer = some value

end Segment

namespace Coroutine

inductive GoesThrough : Coroutine ρ υ ε → Segment ρ υ ε → Coroutine ρ υ ε → Prop
  | parked {body : Unit → Body ρ υ ε} {answers : List (Option ρ)} {entries : List ε}
    {pause : Pause ρ υ ε} (h : (body ()).Passes answers entries pause) :
    GoesThrough (.parked body) ⟨none, answers, entries, pause.outcome⟩ pause.rest
  | waiting {next : ρ → Body ρ υ ε} (reply : ρ) {answers : List (Option ρ)} {entries : List ε}
    {pause : Pause ρ υ ε} (h : (next reply).Passes answers entries pause) :
    GoesThrough (.waiting next) ⟨some reply, answers, entries, pause.outcome⟩ pause.rest

/-- From `c` the body goes through segments, each where the one before it ended, and is then at
`c'`. -/
inductive Course : Coroutine ρ υ ε → List (Segment ρ υ ε) → Coroutine ρ υ ε → Prop
  | nil (c : Coroutine ρ υ ε) : Course c [] c
  | cons {c c' c'' : Coroutine ρ υ ε} {segment : Segment ρ υ ε} {segments : List (Segment ρ υ ε)}
    (h : GoesThrough c segment c') (rest : Course c' segments c'') : Course c (segment :: segments) c''

/-- What is left of the body yields only where it suspends. -/
def Segmented : Coroutine ρ υ ε → Prop
  | parked body => (body ()).Segmented
  | waiting next => ∀ reply, (next reply).Segmented
  | complete => True

def resumeAll (c : Coroutine ρ υ ε) : List ρ → Coroutine ρ υ ε × List (Resumed υ × List ε)
  | [] => (c, [])
  | value :: values =>
    let (c, outcome) := c.resume value
    let (c, outcomes) := c.resumeAll values
    (c, outcome :: outcomes)

theorem switchAll_eq_resumeAll (c : Coroutine ρ υ ε) (values : List ρ) :
    c.switchAll {} values = ((c.resumeAll values).1, {}, (c.resumeAll values).2) := by
  induction values generalizing c with
  | nil => rfl
  | cons value values ih => simp only [switchAll, resumeAll, switch_eq_resume, ih]

end Coroutine

/-- The body asks first with a value at hand, and then in vain. -/
def OffersOnce (offered : Option ρ) (answers : List (Option ρ)) : Prop :=
  answers = [] ∨ ∃ n, answers = offered :: List.replicate n none

theorem OffersOnce.cons {offered : Option ρ} {answers : List (Option ρ)}
    (h : OffersOnce none answers) : OffersOnce offered (offered :: answers) := by
  obtain rfl | ⟨n, rfl⟩ := h
  · exact .inr ⟨0, rfl⟩
  · exact .inr ⟨n + 1, rfl⟩

theorem OffersOnce.reduceOption_eq_nil {answers : List (Option ρ)} (h : OffersOnce none answers) :
    answers.reduceOption = [] := by
  obtain rfl | ⟨n, rfl⟩ := h
  · rfl
  · rw [List.reduceOption_cons_of_none, List.reduceOption_replicate_none]

/-- A run is the first segment of the body, and at its end there is nothing to hand over but what the
body suspended with. -/
theorem Body.Segmented.exists_passes {b : Body ρ υ ε} (h : b.Segmented) (offered : Option ρ) :
    ∃ answers entries pause, b.Passes answers entries pause ∧ OffersOnce offered answers ∧
      b.run offered none = (pause.rest, pause.outcome, entries) ∧ pause.rest.Segmented := by
  induction h generalizing offered with
  | returned => exact ⟨[], [], .returned, .returned, .inl rfl, rfl, trivial⟩
  | log entry h ih =>
    obtain ⟨answers, entries, pause, hpasses, hanswers, hrun, hrest⟩ := ih offered
    exact ⟨answers, entry :: entries, pause, .log entry hpasses, hanswers, by rw [run, hrun], hrest⟩
  | take h ih =>
    obtain ⟨answers, entries, pause, hpasses, hanswers, hrun, hrest⟩ := ih offered none
    exact ⟨offered :: answers, entries, pause, .take offered hpasses, hanswers.cons, hrun, hrest⟩
  | suspend value h ih => exact ⟨[], [], .suspended value _, .suspend value _, .inl rfl, rfl, h⟩
  | park h ih => exact ⟨[], [], .parked _, .park _, .inl rfl, rfl, h⟩

namespace Coroutine

/-- A resumption runs one segment, with the resume value for it alone. -/
theorem Segmented.exists_goesThrough {c : Coroutine ρ υ ε} (h : c.Segmented) (value : ρ) :
    (c = complete ∧ c.resume value = (complete, .complete, [])) ∨
    ∃ segment c', c.GoesThrough segment c' ∧ segment.Receives value ∧ c'.Segmented ∧
      c.resume value = (c', segment.outcome, segment.entries) := by
  cases c with
  | parked body =>
    obtain ⟨answers, entries, pause, hpasses, hanswers, hrun, hrest⟩ := h.exists_passes (some value)
    refine .inr ⟨_, _, .parked hpasses, ⟨?_, by simp, fun _ => ?_⟩, hrest, hrun⟩
    · obtain rfl | ⟨n, rfl⟩ := hanswers
      · rfl
      · simp [Segment.received, List.reduceOption_cons_of_none, List.reduceOption_cons_of_some,
          List.reduceOption_replicate_none]
    · obtain rfl | ⟨n, rfl⟩ := hanswers <;> simp
  | waiting next =>
    obtain ⟨answers, entries, pause, hpasses, hanswers, hrun, hrest⟩ := (h value).exists_passes none
    refine .inr ⟨_, _, .waiting value hpasses, ⟨?_, by simp, by simp⟩, hrest, hrun⟩
    rw [Segment.received, List.reduceOption_cons_of_some, hanswers.reduceOption_eq_nil,
      if_neg (by simp)]
  | complete => exact .inl ⟨rfl, rfl⟩

theorem resumeAll_complete (values : List ρ) :
    (complete : Coroutine ρ υ ε).resumeAll values =
      (complete, List.replicate values.length (.complete, [])) := by
  induction values with
  | nil => rfl
  | cons value values ih => simp only [resumeAll, resume, ih, List.length_cons, List.replicate_succ]

/-- Resuming goes through the segments of the body one by one, as long as there are any. -/
theorem Segmented.exists_course {c : Coroutine ρ υ ε} (h : c.Segmented) (values : List ρ) :
    ∃ segments late c', c.Course segments c' ∧ segments.length + late = values.length ∧
      List.Forall₂ Segment.Receives segments (values.take segments.length) ∧
      (late ≠ 0 → c' = complete) ∧
      c.resumeAll values =
        (c', segments.map (fun s => (s.outcome, s.entries)) ++ List.replicate late (.complete, [])) := by
  induction values generalizing c with
  | nil => exact ⟨[], 0, c, .nil c, rfl, .nil, by simp, rfl⟩
  | cons value values ih =>
    obtain ⟨rfl, -⟩ | ⟨segment, c', hsegment, hreceives, hrest, hresume⟩ :=
      h.exists_goesThrough value
    · exact ⟨[], values.length + 1, complete, .nil _, by simp, .nil, fun _ => rfl,
        resumeAll_complete (value :: values)⟩
    · obtain ⟨segments, late, c'', hcourse, hlength, hall, hlate, hresumed⟩ := ih hrest
      refine ⟨segment :: segments, late, c'', .cons hsegment hcourse, ?_, .cons hreceives hall,
        hlate, ?_⟩
      · simp only [List.length_cons, ← hlength]
        omega
      · rw [resumeAll, hresume]
        simp only [hresumed, List.map_cons, List.cons_append]

/-- Values cross every switch once. Resumed with any values, a body goes through its segments in
order, one for each value, and each value is received in its own segment only; what a segment ends
with is what the resumer is told. When the body has returned, nothing runs any more. The places that
coroutine and body share are empty after every switch. -/
theorem course_of_segmented {body : Unit → Body ρ υ ε} (h : (body ()).Segmented) (values : List ρ) :
    ∃ segments late c, (spawn body).Course segments c ∧ segments.length + late = values.length ∧
      List.Forall₂ Segment.Receives segments (values.take segments.length) ∧
      (late ≠ 0 → c = complete) ∧
      (spawn body).resumeAll values =
        (c, segments.map (fun s => (s.outcome, s.entries)) ++ List.replicate late (.complete, [])) ∧
      (spawn body).switchAll {} values = (c, {}, ((spawn body).resumeAll values).2) := by
  have hspawn : (spawn body).Segmented := h
  obtain ⟨segments, late, c, hcourse, hlength, hall, hlate, hresumed⟩ := hspawn.exists_course values
  refine ⟨segments, late, c, hcourse, hlength, hall, hlate, hresumed, ?_⟩
  rw [switchAll_eq_resumeAll, hresumed]

/-- A body that asks twice, suspends, asks although its suspension took the value, parks, asks again
and returns; it is resumed once more behind its end. -/
theorem exists_course_askingBody : ∃ body : Unit → Body ℕ ℕ (Option ℕ), (body ()).Segmented ∧
    ((spawn body).resumeAll [1, 2, 3, 4]).2 =
      [(.yielded 10, [some 1, none]), (.idle, [some 2, none]), (.complete, [some 3]),
        (.complete, [])] ∧
    ∃ segments late c, (spawn body).Course segments c ∧ segments.length + late = 4 ∧
      List.Forall₂ Segment.Receives segments ([1, 2, 3, 4].take segments.length) ∧
      (late ≠ 0 → c = complete) ∧
      (spawn body).resumeAll [1, 2, 3, 4] =
        (c, segments.map (fun s => (s.outcome, s.entries)) ++ List.replicate late (.complete, [])) ∧
      (spawn body).switchAll {} [1, 2, 3, 4] =
        (c, {}, ((spawn body).resumeAll [1, 2, 3, 4]).2) := by
  let body : Unit → Body ℕ ℕ (Option ℕ) := fun _ =>
    .take fun first => .take fun second => .log first (.log second (.suspend 10 fun reply =>
      .log (some reply) (.take fun late => .log late (.park fun _ =>
        .take fun third => .log third .returned))))
  have h : (body ()).Segmented :=
    .take fun first => .take fun second => .log first (.log second (.suspend 10 fun reply =>
      .log (some reply) (.take fun late => .log late (.park (.take fun third =>
        .log third .returned)))))
  exact ⟨body, h, rfl, course_of_segmented h [1, 2, 3, 4]⟩

end Coroutine

end CoopHttp
