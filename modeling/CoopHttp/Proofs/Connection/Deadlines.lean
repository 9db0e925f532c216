import CoopHttp.Proofs.Connection.Walk
import CoopHttp.Proofs.Scheduler.Frame

/-!
# Deadlines along a stretch

A stretch of a connection may pass through any number of phases before it waits again, and asks for
its deadlines one after the other: the old one is given up before the new one is set. When all this
is granted, the task is under the deadline of the phase that it waits in; and if it is still the
phase it was woken in, nothing was asked for, and the insertion is the one it was.
-/
namespace CoopHttp

/-- Every deadline is over one of the first `n` wheels. -/
def Deadlines.Within (deadlines : Deadlines) (n : ℕ) : Prop :=
  ∀ d, deadlines.headerRead = some d ∨ deadlines.keepAlive = some d ∨
    deadlines.bodyRead = some d ∨ deadlines.write = some d → d.timer.index < n

/-- The place of a phase in one exchange of request and response. -/
def Phase.Kind.rank : Phase.Kind → ℕ
  | .readHead => 1
  | .sendContinue => 2
  | .readBody => 3
  | .respond => 4
  | .reject => 5

/-- The task is armed on exactly the wheel of a deadline, or nowhere if there is none. -/
def Scheduler.Under {σ ν : Type} (s : Scheduler σ ν) (id : TaskId) (deadline : Option Deadline) :
    Prop :=
  ∀ i, (s.insertion? i id).isSome ↔ ∃ delay, deadline = some ⟨⟨i⟩, delay⟩

/-- Nobody is armed who is not there. -/
theorem Scheduler.Registered.under_none {σ ν : Type} {s : Scheduler σ ν} (h : s.Registered)
    {id : TaskId} (hnone : s.tasks.get? id = none) : s.Under id none := by
  intro i
  refine iff_of_false (fun hsome => ?_) fun ⟨delay, heq⟩ => nomatch heq
  cases hwheel : s.wheels[i]? with
  | none => simp [Scheduler.insertion?, hwheel] at hsome
  | some wheel =>
    rw [Scheduler.insertion?_of_getElem? hwheel, ← TimerWheel.contains_eq_isSome] at hsome
    have hlive := h.live_of_armed wheel (List.mem_of_getElem? hwheel) id hsome
    rw [Arena.contains, hnone] at hlive
    cases hlive

namespace Connection

variable {η : Type} {service : Service η} {c d : Connection η}

theorem within_of_deadline {n : ℕ} (h : service.deadlines.Within n) {deadline : Deadline}
    (hdeadline : c.deadline service.deadlines = some deadline) : deadline.timer.index < n := by
  refine h deadline ?_
  rw [Connection.deadline] at hdeadline
  cases hphase : c.phase with
  | readHead =>
    rw [hphase] at hdeadline
    dsimp only at hdeadline
    split_ifs at hdeadline
    · exact .inl hdeadline
    · exact .inr (.inl hdeadline)
  | readBody =>
    rw [hphase] at hdeadline
    exact .inr (.inr (.inl hdeadline))
  | sendContinue | respond | reject =>
    rw [hphase] at hdeadline
    exact .inr (.inr (.inr hdeadline))

/-! Stages: the phases of a connection in the order they come in. -/

/-- How far a connection has come: the requests answered, and the phase. -/
def stage (c : Connection η) : ℕ := 5 * c.served + c.phase.kind.rank

theorem stage_pos (c : Connection η) : 0 < c.stage := by
  rw [stage]
  cases c.phase.kind <;> simp [Phase.Kind.rank]

theorem stage_eq_of_eq (hserved : d.served = c.served) (hkind : d.phase.kind = c.phase.kind) :
    d.stage = c.stage := by
  rw [stage, hserved, hkind, stage]

theorem eq_of_stage_eq (h : d.stage = c.stage) :
    d.served = c.served ∧ d.phase.kind = c.phase.kind := by
  rw [stage, stage] at h
  cases hd : d.phase.kind <;> cases hc : c.phase.kind <;> rw [hd, hc] at h <;>
    simp only [Phase.Kind.rank] at h <;>
    first
    | exact ⟨by omega, rfl⟩
    | omega

theorem deadline_eq_of_stage_eq (deadlines : Deadlines) (h : d.stage = c.stage) :
    d.deadline deadlines = c.deadline deadlines := by
  obtain ⟨hserved, hkind⟩ := eq_of_stage_eq h
  rw [deadline, deadline, hserved]
  cases hd : d.phase <;> cases hc : c.phase <;> rw [hd, hc] at hkind <;>
    first
    | rfl
    | cases hkind

variable {handler : Handler η} {notes : List Note} {move : Move η} {wanted : Ready}

theorem Passage.stage_eq_of_stay (h : Passage handler c notes (.stay d)) : d.stage = c.stage := by
  cases h with
  | stayed reads kind_eq alike => exact stage_eq_of_eq alike.served_eq kind_eq

theorem Passage.stage_eq_of_wait (h : Passage handler c notes (.wait wanted d)) :
    d.stage = c.stage := by
  cases h with
  | starved reads kind_eq alike => exact stage_eq_of_eq alike.served_eq kind_eq
  | wrote data_eq join_eq rest_ne phase_eq alike =>
    refine stage_eq_of_eq alike.served_eq ?_
    rw [phase_eq, Phase.kind_withRest]

/-- A phase once left is not entered again. -/
theorem Passage.stage_lt_of_enter (h : Passage handler c notes (.enter d)) :
    c.stage < d.stage := by
  rw [stage, stage]
  cases h with
  | refused reads malformed encoded phase_eq handler_eq served_eq =>
    rw [served_eq, phase_eq]
    obtain hkind | hkind := reads <;> rw [hkind] <;> simp [Phase.kind, Phase.Kind.rank]
  | headRead phase_eq next_eq handler_eq served_eq payload =>
    rw [served_eq, phase_eq]
    obtain hnext | hnext := next_eq <;> rw [hnext] <;> simp [Phase.kind, Phase.Kind.rank]
  | called kind_eq answered encoded phase_eq served_eq payload_eq =>
    rw [served_eq, kind_eq, phase_eq]
    simp [Phase.kind, Phase.Kind.rank]
  | continued phase_eq next_eq alike =>
    rw [alike.served_eq, phase_eq, next_eq]
    simp [Phase.kind, Phase.Kind.rank]
  | answered phase_eq next_eq handler_eq served_eq =>
    rw [served_eq, phase_eq, next_eq]
    simp only [Phase.kind, Phase.Kind.rank]
    omega

/-! Requests, as they stand in a stretch. -/

/-- The deadlines that a stretch sets, in order. -/
def armings {σ ν : Type} : Run σ ν → List Deadline
  | .stop _ | .crash _ => []
  | .note _ next | .elapse _ next | .clearTimer _ next | .spawn _ _ _ _ next => armings next
  | .setTimer timer delay next => ⟨timer, delay⟩ :: armings next

theorem armings_noteAll (entries : List (Int × Note)) (next : Stretch η) :
    armings (.noteAll entries next) = armings next := by
  induction entries with
  | nil => rfl
  | cons entry entries ih => exact ih

theorem armings_arm (deadline : Option Deadline) (next : Stretch η) :
    armings (arm deadline next) = deadline.toList ++ armings next := by
  cases deadline <;> rfl

theorem armings_disarm (deadline : Option Deadline) (next : Stretch η) :
    armings (disarm deadline next) = armings next := by
  cases deadline <;> rfl

/-- A stretch that begins in the phase of `c` goes through the phases of `path`, and sets the
deadline of each of them once. -/
structure Enters (service : Service η) (c : Connection η) (path : List (Connection η))
    (run : Stretch η) : Prop where
  ascends : (c :: path).Pairwise (·.stage < ·.stage)
  armings_eq : armings run = path.flatMap fun d => (d.deadline service.deadlines).toList
  arrives : ∀ d, run.outcome.suspended? = some d → d.stage = (path.getLastD c).stage

theorem Enters.noteAll {path : List (Connection η)} {run : Stretch η}
    (h : Enters service c path run) (entries : List (Int × Note)) :
    Enters service c path (.noteAll entries run) where
  ascends := h.ascends
  armings_eq := (armings_noteAll entries run).trans h.armings_eq
  arrives := by
    rw [Run.outcome_noteAll]
    exact h.arrives

theorem exists_enters_proceed (service : Service η) (fd : Int) (c : Connection η) :
    ∃ path, Enters service c path (proceed service fd c) := by
  fun_induction proceed service fd c with
  | case1 c noted notes d hstep ih =>
    have hstage := (passage_of_step hstep).stage_eq_of_stay
    obtain ⟨path, hpath⟩ := ih
    refine ⟨path, Enters.noteAll ⟨?_, hpath.armings_eq, fun e he => ?_⟩ _⟩
    · have hascends := List.pairwise_cons.1 hpath.ascends
      rw [hstage] at hascends
      exact List.pairwise_cons.2 hascends
    · rw [hpath.arrives e he]
      cases path with
      | nil => exact hstage
      | cons => rfl
  | case2 c noted notes d hstep ih =>
    have hstage := (passage_of_step hstep).stage_lt_of_enter
    obtain ⟨path, hpath⟩ := ih
    refine ⟨d :: path, Enters.noteAll ⟨?_, ?_, ?_⟩ _⟩
    · refine List.pairwise_cons.2 ⟨fun e he => ?_, hpath.ascends⟩
      obtain rfl | he := List.mem_cons.1 he
      · exact hstage
      · exact hstage.trans ((List.pairwise_cons.1 hpath.ascends).1 e he)
    · rw [armings_disarm, armings_arm, hpath.armings_eq]
      rfl
    · rw [outcome_disarm, outcome_arm, List.getLastD_cons]
      exact hpath.arrives
  | case3 c noted notes wanted d hstep =>
    refine ⟨[], Enters.noteAll ⟨List.pairwise_singleton _ _, rfl, fun e he => ?_⟩ _⟩
    cases he
    exact (passage_of_step hstep).stage_eq_of_wait
  | case4 c noted notes result hstep =>
    refine ⟨[], Enters.noteAll ⟨List.pairwise_singleton _ _, ?_, fun e he => ?_⟩ _⟩
    · rw [ending, armings_disarm]
      rfl
    · rw [outcome_ending] at he
      cases he
  | case5 c noted notes cause hstep =>
    refine ⟨[], Enters.noteAll ⟨List.pairwise_singleton _ _, rfl, fun e he => ?_⟩ _⟩
    cases he

/-! Requests, granted. -/

/-- A scheduler whose tasks are connections. -/
abbrev Host (η : Type) := Scheduler (Connection η) (Int × Note)

variable {id : TaskId} {s s' : Host η} {next : Stretch η}
  {b : Behaviour (Connection η) (Int × Note)}

theorem grant_noteAll (entries : List (Int × Note)) :
    Scheduler.grant b id (.noteAll entries next) s = Scheduler.grant b id next s := by
  induction entries with
  | nil => rfl
  | cons entry entries ih => exact ih

/-- Setting a deadline puts a task that is under none under it. -/
theorem exists_grant_of_arm {deadline : Option Deadline} (hlive : s.tasks.contains id)
    (hwithin : ∀ d, deadline = some d → d.timer.index < s.wheels.length)
    (hunder : s.Under id none) (h : Scheduler.grant b id (arm deadline next) s = .ok s') :
    ∃ s₁ : Host η, Scheduler.grant b id next s₁ = .ok s' ∧ s₁.tasks = s.tasks ∧
      Scheduler.Frames id s s₁ ∧ s₁.Under id deadline := by
  cases deadline with
  | none => exact ⟨s, h, rfl, .of_eq rfl rfl, hunder⟩
  | some d =>
    obtain ⟨⟨s₁, was⟩, hset, hnext⟩ := exists_of_bind_eq_ok h
    refine ⟨s₁, hnext, Scheduler.tasks_setTimer hset, Scheduler.frames_setTimer hset, fun i => ?_⟩
    obtain ⟨n, hinsertion⟩ := Scheduler.insertion?_setTimer hset hlive (hwithin d rfl)
    rw [hinsertion]
    split_ifs with hi
    · obtain ⟨⟨index⟩, delay⟩ := d
      cases hi.1
      exact iff_of_true rfl ⟨delay, rfl⟩
    · rw [hunder i]
      refine iff_of_false (fun ⟨delay, heq⟩ => nomatch heq) ?_
      rintro ⟨delay, heq⟩
      cases heq
      exact hi ⟨rfl, rfl⟩

/-- Giving up the deadline that a task is under leaves it under none. -/
theorem exists_grant_of_disarm {deadline : Option Deadline}
    (h : Scheduler.grant b id (disarm deadline next) s = .ok s') :
    ∃ s₁ : Host η, Scheduler.grant b id next s₁ = .ok s' ∧ s₁.tasks = s.tasks ∧
      Scheduler.Frames id s s₁ ∧ (s.Under id deadline → s₁.Under id none) := by
  cases deadline with
  | none => exact ⟨s, h, rfl, .of_eq rfl rfl, fun hunder => hunder⟩
  | some d =>
    refine ⟨(s.clearTimer d.timer id).1, h, Scheduler.tasks_clearTimer s d.timer id,
      Scheduler.frames_clearTimer s d.timer id, fun hunder i => ?_⟩
    rw [Scheduler.insertion?_clearTimer]
    refine iff_of_false ?_ fun ⟨delay, heq⟩ => nomatch heq
    split_ifs with hi
    · exact Bool.false_ne_true
    · rw [hunder i]
      rintro ⟨delay, heq⟩
      cases heq
      exact hi ⟨rfl, rfl⟩

/-- What granting the requests of a stretch comes to, for a task that is under the deadline
`before`: nobody else is touched, and a task that waits is under the deadline of its phase, which
comes no earlier than `stage`. At that very stage the insertions are what they were. -/
def Obeys (service : Service η) (id : TaskId) (before : Option Deadline) (stage : ℕ)
    (run : Stretch η) : Prop :=
  ∀ s s' : Host η, s.tasks.contains id → service.deadlines.Within s.wheels.length →
    s.Under id before → Scheduler.grant (behaviour service) id run s = .ok s' →
    s'.tasks = s.tasks ∧ Scheduler.Frames id s s' ∧
      ∀ d, run.outcome.suspended? = some d →
        s'.Under id (d.deadline service.deadlines) ∧ stage ≤ d.stage ∧
          (d.stage = stage → ∀ i, s'.insertion? i id = s.insertion? i id)

theorem obeys_ending (fd : Int) (result : Except HttpError Unit) (before : Option Deadline)
    (stage : ℕ) : Obeys service id before stage (ending service fd c result) := by
  intro s s' hlive hwithin hunder hgrant
  obtain ⟨s₁, hnext, htasks, hframes, -⟩ := exists_grant_of_disarm hgrant
  cases hnext
  refine ⟨htasks, hframes, fun d hd => ?_⟩
  rw [outcome_ending] at hd
  cases hd

/-- The notes of a stretch ask for nothing. -/
theorem Obeys.noteAll {before : Option Deadline} {stage : ℕ} {run : Stretch η}
    (h : Obeys service id before stage run) (entries : List (Int × Note)) :
    Obeys service id before stage (.noteAll entries run) := by
  intro s s' hlive hwithin hunder hgrant
  rw [grant_noteAll] at hgrant
  rw [Run.outcome_noteAll]
  exact h s s' hlive hwithin hunder hgrant

/-- Giving up one deadline and setting another in front of a stretch that begins under that, at a
later stage. -/
theorem Obeys.enter {run : Stretch η} {stage earlier : ℕ} {before after : Option Deadline}
    (h : Obeys service id after stage run) (hlt : earlier < stage)
    (hwithin : ∀ {n d}, service.deadlines.Within n → after = some d → d.timer.index < n) :
    Obeys service id before earlier (disarm before (arm after run)) := by
  intro s s' hlive hs hunder hgrant
  obtain ⟨s₁, hnext₁, htasks₁, hframes₁, hunder₁⟩ := exists_grant_of_disarm hgrant
  have hs₁ : service.deadlines.Within s₁.wheels.length := hframes₁.length_wheels ▸ hs
  obtain ⟨s₂, hnext₂, htasks₂, hframes₂, hunder₂⟩ :=
    exists_grant_of_arm (htasks₁ ▸ hlive) (fun _ hd => hwithin hs₁ hd) (hunder₁ hunder) hnext₁
  have hlive₂ : s₂.tasks.contains id := by rwa [htasks₂, htasks₁]
  obtain ⟨htasks, hframes, hsuspended⟩ :=
    h s₂ s' hlive₂ (hframes₂.length_wheels ▸ hs₁) hunder₂ hnext₂
  refine ⟨htasks.trans (htasks₂.trans htasks₁), (hframes₁.trans hframes₂).trans hframes, ?_⟩
  intro d hd
  rw [outcome_disarm, outcome_arm] at hd
  obtain ⟨hunder, hle, -⟩ := hsuspended d hd
  exact ⟨hunder, by omega, fun heq => by omega⟩

theorem obeys_stop {before : Option Deadline} {stage : ℕ} {wanted : Ready}
    (hdeadline : d.deadline service.deadlines = before) (hstage : d.stage = stage) :
    Obeys service id before stage (.stop (.blocked wanted d)) := by
  intro s s' hlive hs hunder hgrant
  cases hgrant
  refine ⟨rfl, .of_eq rfl rfl, fun d' hd' => ?_⟩
  cases hd'
  exact ⟨hdeadline ▸ hunder, hstage.ge, fun _ _ => rfl⟩

theorem obeys_proceed (service : Service η) (id : TaskId) (fd : Int) (c : Connection η) :
    Obeys service id (c.deadline service.deadlines) c.stage (proceed service fd c) := by
  fun_induction proceed service fd c with
  | case1 c noted notes d hstep ih =>
    have hstage := (passage_of_step hstep).stage_eq_of_stay
    rw [hstage, deadline_eq_of_stage_eq _ hstage] at ih
    exact ih.noteAll _
  | case2 c noted notes d hstep ih =>
    have hstage := (passage_of_step hstep).stage_lt_of_enter
    exact (ih.enter hstage fun hs hd => within_of_deadline hs hd).noteAll _
  | case3 c noted notes wanted d hstep =>
    have hstage := (passage_of_step hstep).stage_eq_of_wait
    exact (obeys_stop (deadline_eq_of_stage_eq _ hstage) hstage).noteAll _
  | case4 c noted notes result hstep => exact (obeys_ending fd result _ _).noteAll _
  | case5 c noted notes cause hstep =>
    refine Obeys.noteAll ?_ _
    intro s s' hlive hs hunder hgrant
    cases hgrant
    refine ⟨rfl, .of_eq rfl rfl, fun d hd => ?_⟩
    cases hd

theorem obeys_start (service : Service η) (id : TaskId) (fd : Int) (c : Connection η) :
    Obeys service id none 0 (start service fd c) :=
  (obeys_proceed service id fd c).enter c.stage_pos fun hs hd => within_of_deadline hs hd

/-- What carrying a stretch out comes to: nobody else is touched, and if the task is still there, it
waits under the deadline of its phase. -/
theorem drive_spec {before : Option Deadline} {stage : ℕ} {run : Stretch η} {p : Point η} {fd : Int}
    (hobeys : Obeys service id before stage run) (hfollows : Follows service.handler fd p run)
    (h : s.Registered) {task : Task (Connection η)} (hget : s.tasks.get? id = some task)
    (htask : task.outcome = run.outcome) (hs : service.deadlines.Within s.wheels.length)
    (hunder : s.Under id before) (hdrive : s.drive (behaviour service) id run = .ok s') :
    Scheduler.Frames id s s' ∧ ∀ task', s'.tasks.get? id = some task' →
      ∃ wanted d, task'.outcome = .blocked wanted d ∧ s'.Under id (d.deadline service.deadlines) ∧
        stage ≤ d.stage ∧ (d.stage = stage → ∀ i, s'.insertion? i id = s.insertion? i id) := by
  obtain ⟨performed, hperform, hrest⟩ := exists_of_bind_eq_ok hdrive
  obtain ⟨granted, hgrant, rfl⟩ := exists_of_map_eq_ok hrest
  obtain ⟨htasks₁, hwheels₁⟩ := Scheduler.perform_eq hperform
  have hinsertion₁ := Scheduler.insertion?_eq_of_wheels hwheels₁
  have hlive : performed.tasks.contains id := by
    rw [htasks₁, Arena.contains, hget]
    rfl
  have hunder₁ : performed.Under id before := fun i => by rw [hinsertion₁]; exact hunder i
  obtain ⟨htasks₂, hframes₂, hsuspended⟩ := hobeys _ _ hlive (hwheels₁ ▸ hs) hunder₁ hgrant
  have hget₂ : granted.tasks.get? id = some task := by rw [htasks₂, htasks₁, hget]
  obtain ⟨hframes₃, hsettle⟩ :=
    Scheduler.settle_spec ((h.perform hperform).grant hgrant) (behaviour service) hget₂
  refine ⟨((Scheduler.Frames.of_eq htasks₁ hwheels₁).trans hframes₂).trans hframes₃, ?_⟩
  intro task' htask'
  obtain ⟨houtcome, hsome, hinsertion₃⟩ := hsettle task' htask'
  obtain ⟨notes, q, -, -, -, hends⟩ := hfollows
  rw [htask] at houtcome hsome
  split at hends
  · rename_i wanted d heq
    obtain ⟨hunder₂, hle, hsame⟩ := hsuspended d (by rw [heq]; rfl)
    refine ⟨wanted, d, houtcome.trans heq, fun i => ?_, hle, fun hstage i => ?_⟩
    · rw [hinsertion₃]
      exact hunder₂ i
    · rw [hinsertion₃, hsame hstage, hinsertion₁]
  · rename_i heq
    rw [heq] at hsome
    cases hsome
  · exact hends.elim
  · exact hends.elim
  · exact hends.elim

end Connection

end CoopHttp
