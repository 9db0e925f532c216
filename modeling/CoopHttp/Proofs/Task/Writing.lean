import CoopHttp.Proofs.Connection.Walk
import CoopHttp.Proofs.Task.Transfer
import CoopHttp.Task.Script

/-!
# Tasks that write

A task that writes octets is woken in the middle and takes up what is left of them. What can be seen
of it is the transfer, wait for wait, and then what the task does with its result. This holds of
scripted tasks and of connections, and the main statement says it of both.
-/
namespace CoopHttp

variable {σ ν : Type}

/-- What can be seen of a task: what it notes, and what it waits for. -/
inductive Sign (ν : Type)
  | noted (entry : ν)
  | waits (wanted : Ready)
  /-- Waits for whatever wakes it. -/
  | parks

/-- A transfer as seen of its task. -/
def Transit.sign (piece : Bytes → ν) : Transit → Sign ν
  | .accepted bytes => .noted (piece bytes)
  | .suspended => .waits .writable

/-- What can be seen of a stretch. -/
def Run.signs (run : Run σ ν) : List (Sign ν) :=
  run.notes.map .noted ++ match run.outcome with
    | .blocked wanted _ | .adrift (.began wanted) _ _ => [.waits wanted]
    | .parked _ | .adrift .. => [.parks]
    | .exited _ | .completed => []

/-- What can be seen of a task from a stretch on, while it is woken again and again. -/
def Behaviour.course (b : Behaviour σ ν) (id : TaskId) (fd : Int) :
    Run σ ν → List Waking → List (Sign ν)
  | run, [] => run.signs
  | run, ⟨wake, ready, errors⟩ :: wakings =>
    run.signs ++ match run.outcome.suspended? with
      | some state => b.course id fd (b.resume ⟨id, fd, ready, errors⟩ wake state) wakings
      | none => []

namespace Behaviour

variable (b : Behaviour σ ν) (id : TaskId) (fd : Int)

theorem course_of_signs_eq {run run' : Run σ ν} {entries : List ν}
    (hsigns : run.signs = entries.map .noted ++ run'.signs) (houtcome : run.outcome = run'.outcome)
    (wakings : List Waking) :
    b.course id fd run wakings = entries.map .noted ++ b.course id fd run' wakings := by
  cases wakings with
  | nil => exact hsigns
  | cons waking wakings => rw [course, course, hsigns, houtcome, List.append_assoc]

theorem course_noteAll (entries : List ν) (run : Run σ ν) (wakings : List Waking) :
    b.course id fd (.noteAll entries run) wakings =
      entries.map .noted ++ b.course id fd run wakings := by
  refine course_of_signs_eq b id fd ?_ (Run.outcome_noteAll entries run) wakings
  rw [Run.signs, Run.notes_noteAll, Run.outcome_noteAll, List.map_append, List.append_assoc]
  rfl

theorem course_of_completed {run : Run σ ν} (houtcome : run.outcome = .completed)
    (wakings : List Waking) : b.course id fd run wakings = run.notes.map .noted := by
  have hsigns : run.signs = run.notes.map .noted := by
    rw [Run.signs, houtcome, List.append_nil]
  cases wakings with
  | nil => exact hsigns
  | cons waking wakings =>
    rw [course, hsigns, houtcome]
    exact List.append_nil _

end Behaviour

theorem Socket.writeAllTo_nil (writes : List Acceptance) :
    writeAllTo [] writes = (⟨[], []⟩, writes, .done ()) := by
  rw [writeAllTo.eq_def, if_pos rfl]

/-- A way in which the tasks of a behaviour write octets: the stretch that writes them, the task
asleep in the middle, and the stretch that goes on with the result. -/
structure Writer (b : Behaviour σ ν) (id : TaskId) (fd : Int) where
  piece : Bytes → ν
  write : Bytes → List Acceptance → Run σ ν
  asleep : Bytes → List Acceptance → σ
  finish : Except TaskError Unit → List Acceptance → Run σ ν
  write_eq : ∀ data writes, write data writes =
    let (transfer, writes, attempt) := Socket.writeAllTo data writes
    .noteAll (transfer.accepted.map piece) <|
      match attempt with
      | .done () => finish (.ok ()) writes
      | .failed error => finish (.error (.io error)) writes
      | .blocked => .stop (.blocked .writable (asleep transfer.rest writes))
  resume_eq : ∀ ready errors wake data writes,
    b.resume ⟨id, fd, ready, errors⟩ wake (asleep data writes) =
      match wake with
      | .io _ => write data writes
      | .timer wheel => finish (.error (.timeout wheel)) writes

namespace Writer

variable {b : Behaviour σ ν} {id : TaskId} {fd : Int} (W : Writer b id fd)

theorem write_nil (writes : List Acceptance) : W.write [] writes = W.finish (.ok ()) writes := by
  rw [W.write_eq, Socket.writeAllTo_nil]
  rfl

theorem write_exhausted {data : Bytes} (hdata : data ≠ []) :
    W.write data [] = .noteAll [W.piece data] (W.finish (.ok ()) []) := by
  rw [W.write_eq, Socket.writeAllTo, if_neg hdata]
  rfl

theorem write_zero {data : Bytes} (hdata : data ≠ []) (writes : List Acceptance) :
    W.write data (.upTo 0 :: writes) =
      .noteAll [W.piece []] (W.finish (.error (.io .writeZero)) writes) := by
  rw [W.write_eq, Socket.writeAllTo, if_neg hdata]
  rfl

theorem write_upTo {data : Bytes} (hdata : data ≠ []) {n : ℕ} (hn : n ≠ 0)
    (writes : List Acceptance) :
    W.write data (.upTo n :: writes) =
      .noteAll [W.piece (data.take n)] (W.write (data.drop n) writes) := by
  rw [W.write_eq, Socket.writeAllTo, if_neg hdata, W.write_eq (data.drop n)]
  simp only [if_neg hn]
  rfl

theorem write_interrupted {data : Bytes} (hdata : data ≠ []) (writes : List Acceptance) :
    W.write data (.failure .interrupted :: writes) = W.write data writes := by
  rw [W.write_eq, Socket.writeAllTo, if_neg hdata, W.write_eq data writes]

theorem write_wouldBlock {data : Bytes} (hdata : data ≠ []) (writes : List Acceptance) :
    W.write data (.failure .wouldBlock :: writes) =
      .stop (.blocked .writable (W.asleep data writes)) := by
  rw [W.write_eq, Socket.writeAllTo, if_neg hdata]
  rfl

theorem write_failure {data : Bytes} (hdata : data ≠ []) {error : IoError}
    (hinterrupted : error ≠ .interrupted) (hblock : error ≠ .wouldBlock)
    (writes : List Acceptance) :
    W.write data (.failure error :: writes) = W.finish (.error (.io error)) writes := by
  rw [W.write_eq, Socket.writeAllTo, if_neg hdata]
  exacts [rfl, hinterrupted, hblock]

/-- What can be seen of the task is the transfer, and then what it does with the result. -/
theorem course_write (data : Bytes) (writes : List Acceptance) (wakings : List Waking) :
    b.course id fd (W.write data writes) wakings =
      (deliver data writes wakings).transits.map (Transit.sign W.piece) ++
        match (deliver data writes wakings).result with
        | none => []
        | some result =>
          b.course id fd (W.finish result (deliver data writes wakings).writes)
            (deliver data writes wakings).wakings := by
  fun_induction deliver data writes wakings with
  | case1 writes wakings =>
    rw [W.write_nil]
    rfl
  | case2 data wakings hdata =>
    rw [W.write_exhausted hdata, b.course_noteAll]
    rfl
  | case3 data wakings hdata writes =>
    rw [W.write_zero hdata, b.course_noteAll]
    rfl
  | case4 data wakings hdata n writes hn ih =>
    rw [W.write_upTo hdata hn, b.course_noteAll, ih]
    rfl
  | case5 data wakings hdata writes ih =>
    rw [W.write_interrupted hdata, ih]
  | case6 data hdata writes =>
    rw [W.write_wouldBlock hdata]
    rfl
  | case7 data hdata writes wheel ready errors wakings =>
    rw [W.write_wouldBlock hdata, Behaviour.course]
    simp only [Run.outcome, Outcome.suspended?, W.resume_eq]
    rfl
  | case8 data hdata writes ready seen errors wakings ih =>
    rw [W.write_wouldBlock hdata, Behaviour.course]
    simp only [Run.outcome, Outcome.suspended?, W.resume_eq, ih]
    rfl
  | case9 data wakings hdata error writes hinterrupted hblock =>
    rw [W.write_failure hdata hinterrupted hblock]
    rfl

end Writer

/-- A scripted task in front of a step that writes everything; `rest` are the steps behind it. -/
def Task.Script.writer (id : TaskId) (fd : Int) (reads : Source) (rest : List Task.Script.Step) :
    Writer Task.Script.behaviour id fd where
  piece := .accepted fd
  write data writes := bodyStretch id fd ⟨reads, writes⟩ (.writeAll data :: rest)
  asleep data writes := ⟨⟨reads, writes⟩, .writeAll data :: rest⟩
  finish result writes :=
    .note (.act id (.wroteAll result)) (bodyStretch id fd ⟨reads, writes⟩ rest)
  write_eq data writes := by
    rw [bodyStretch, stretchAll, Step.stretch, Socket.writeAll]
    rcases Socket.writeAllTo data writes with ⟨transfer, writes, _ | _ | error⟩ <;>
      simp [attempted, bodyStretch]
  resume_eq ready errors wake data writes := by
    cases wake <;> rfl

namespace Connection

variable {η : Type}

/-- The connection with other octets to write, and other attempts to come. -/
def writing (c : Connection η) (data : Bytes) (writes : List Acceptance) : Connection η :=
  { c with socket := { c.socket with writes }, phase := c.phase.withRest data }

/-- A step of a connection that writes; one that has written everything goes on as one with nothing
left to write. -/
theorem step_writing (handler : Handler η) {c : Connection η} (hwrites : c.phase.rest?.isSome)
    (data : Bytes) (writes : List Acceptance) :
    (c.writing data writes).step handler =
      let (transfer, writes, attempt) := Socket.writeAllTo data writes
      (transfer.accepted.map .accepted,
        match attempt with
        | .done () => ((c.writing [] writes).step handler).2
        | .blocked => .wait .writable (c.writing transfer.rest writes)
        | .failed error => .finish (.error (c.failure (.io error)))) := by
  obtain ⟨socket, handler, reader, served, phase⟩ := c
  cases phase with
  | readHead | readBody => cases hwrites
  | sendContinue | respond | reject =>
    simp only [writing, Phase.withRest, step, transmit, Socket.writeAll, Socket.writeAllTo_nil]
    rcases Socket.writeAllTo data writes with ⟨transfer, writes, _ | _ | error⟩ <;> rfl

/-- What a stretch does with the outcome of a step. -/
def carry (service : Service η) (fd : Int) (c : Connection η) : Move η → Stretch η
  | .stay d => proceed service fd d
  | .enter d =>
    disarm (c.deadline service.deadlines)
      (arm (d.deadline service.deadlines) (proceed service fd d))
  | .wait wanted d => .stop (.blocked wanted d)
  | .finish result => ending service fd c result
  | .crash cause => .crash cause

theorem proceed_eq (service : Service η) (fd : Int) (c : Connection η) :
    proceed service fd c = .noteAll ((c.step service.handler).1.map fun note => (fd, note))
      (carry service fd c (c.step service.handler).2) := by
  rw [proceed]
  split <;> rename_i hstep <;> rw [hstep] <;> rfl

theorem deadline_writing (deadlines : Deadlines) (c : Connection η) (data : Bytes)
    (writes : List Acceptance) :
    (c.writing data writes).deadline deadlines = c.deadline deadlines := by
  obtain ⟨socket, handler, reader, served, phase⟩ := c
  cases phase <;> rfl

theorem carry_writing (service : Service η) (fd : Int) (c : Connection η) (data : Bytes)
    (writes : List Acceptance) (move : Move η) :
    carry service fd (c.writing data writes) move = carry service fd c move := by
  cases move <;> simp only [carry, ending, deadline_writing]

/-- A connection in a phase that writes; with nothing left to write it goes on to the next one. -/
def writer (service : Service η) (id : TaskId) (fd : Int) (c : Connection η)
    (hwrites : c.phase.rest?.isSome) : Writer (behaviour service) id fd where
  piece bytes := (fd, .accepted bytes)
  write data writes := proceed service fd (c.writing data writes)
  asleep := c.writing
  finish result writes :=
    match result with
    | .ok () => proceed service fd (c.writing [] writes)
    | .error error => ending service fd (c.writing [] writes) (.error (c.failure error))
  write_eq data writes := by
    have hstep := step_writing service.handler hwrites data writes
    -- What is left to write does not matter for what follows behind it.
    have hdone (writes : List Acceptance) : proceed service fd (c.writing [] writes) =
        carry service fd c ((c.writing [] writes).step service.handler).2 := by
      rw [proceed_eq, step_writing service.handler hwrites, Socket.writeAllTo_nil, carry_writing]
      rfl
    rw [proceed_eq, hstep, carry_writing]
    rcases Socket.writeAllTo data writes with ⟨transfer, writes', _ | _ | error⟩
    · rw [List.map_map]
      exact congrArg (Run.noteAll _) (hdone writes').symm
    · rw [List.map_map]
      rfl
    · rw [List.map_map]
      simp only [carry, ending, deadline_writing]
      rfl
  resume_eq ready errors wake data writes := by
    obtain ⟨socket, handler, reader, served, phase⟩ := c
    cases wake with
    | io ready => rfl
    | timer wheel => cases phase <;> rfl

theorem writing_self {c : Connection η} {data : Bytes} (hdata : c.phase.rest? = some data) :
    c.writing data c.socket.writes = c := by
  obtain ⟨socket, handler, reader, served, phase⟩ := c
  cases phase <;> cases hdata <;> rfl

theorem course_ending (service : Service η) (id : TaskId) (fd : Int) (c : Connection η)
    (result : Except HttpError Unit) (wakings : List Waking) :
    (behaviour service).course id fd (ending service fd c result) wakings =
      [.noted (fd, .closed), .noted (fd, .ended result)] := by
  rw [Behaviour.course_of_completed _ _ _ (outcome_ending c result), notes_ending]
  rfl

end Connection

/-- Whatever the attempts to write come to and whatever wakes the task in between, what can be seen
of a task that writes everything, be it scripted or that of a connection, is one transfer, and then
what follows its result. The transfer is faithful to the octets. -/
theorem course_writing (data : Bytes) (writes : List Acceptance) (wakings : List Waking) :
    let d := deliver data writes wakings
    d.Faithful data writes wakings ∧
      (∀ (id : TaskId) (fd : Int) (reads : Source) (rest : List Task.Script.Step),
        Task.Script.behaviour.course id fd
            (Task.Script.bodyStretch id fd ⟨reads, writes⟩ (.writeAll data :: rest)) wakings =
          d.transits.map (Transit.sign (.accepted fd)) ++
            match d.result with
            | none => []
            | some result => .noted (.act id (.wroteAll result)) ::
                Task.Script.behaviour.course id fd
                  (Task.Script.bodyStretch id fd ⟨reads, d.writes⟩ rest) d.wakings) ∧
      ∀ {η : Type} (service : Service η) (id : TaskId) (fd : Int) (c : Connection η),
        c.phase.rest? = some data → c.socket.writes = writes →
        (Connection.behaviour service).course id fd (Connection.proceed service fd c) wakings =
          d.transits.map (Transit.sign fun bytes => (fd, .accepted bytes)) ++
            match d.result with
            | none => []
            | some (.ok ()) =>
              (Connection.behaviour service).course id fd
                (Connection.proceed service fd (c.writing [] d.writes)) d.wakings
            | some (.error error) =>
              [.noted (fd, .closed), .noted (fd, .ended (.error (c.failure error)))] := by
  intro d
  refine ⟨faithful_deliver data writes wakings, fun id fd reads rest => ?_, ?_⟩
  · refine ((Task.Script.writer id fd reads rest).course_write data writes wakings).trans ?_
    refine congrArg (_ ++ ·) ?_
    show (match d.result with | none => _ | some result => _) = _
    cases d.result with
    | none => rfl
    | some result => exact Behaviour.course_noteAll _ id fd [_] _ _
  · rintro η service id fd c hdata rfl
    have hwrites : c.phase.rest?.isSome := by
      rw [hdata]
      rfl
    have hcourse := (Connection.writer service id fd c hwrites).course_write data
      c.socket.writes wakings
    have hself : (Connection.writer service id fd c hwrites).write data c.socket.writes =
        Connection.proceed service fd c :=
      congrArg (Connection.proceed service fd) (Connection.writing_self hdata)
    rw [hself] at hcourse
    refine hcourse.trans (congrArg (_ ++ ·) ?_)
    show (match d.result with | none => _ | some result => _) = _
    rcases d.result with _ | error | _
    · rfl
    · exact Connection.course_ending service id fd _ _ _
    · rfl

/-- Attempts with a wait and an interruption in the middle, and nothing accepted at the end. -/
def haltingWrites : List Acceptance :=
  [.upTo 2, .failure .wouldBlock, .failure .interrupted, .upTo 2, .upTo 0]

/-- A service that fails on every request, without deadlines. -/
def failingService : Service Unit := ⟨⟨fun state _ => (state, .error "out of order")⟩, {}⟩

/-- A connection about to write a response of five octets. -/
def haltingConnection : Connection Unit where
  socket := ⟨[], haltingWrites⟩
  handler := ()
  phase := .respond [1, 2, 3, 4, 5] true

theorem course_haltingConnection :
    haltingConnection.phase.rest? = some [1, 2, 3, 4, 5] ∧
      haltingConnection.socket.writes = haltingWrites ∧
      (Connection.behaviour failingService).course ⟨0, 0⟩ 7
          (Connection.proceed failingService 7 haltingConnection)
          [⟨.io .writable, .writable, .empty⟩] =
        [.noted (7, .accepted [1, 2]), .waits .writable, .noted (7, .accepted [3, 4]),
          .noted (7, .accepted []), .noted (7, .closed),
          .noted (7, .ended (.error (.response (.task (.io .writeZero)))))] :=
  ⟨rfl, rfl, (course_writing _ _ _).2.2 failingService ⟨0, 0⟩ 7 haltingConnection rfl rfl⟩

end CoopHttp
