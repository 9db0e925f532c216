import CoopHttp.Connection.Step

/-!
# Connections get on

A connection that goes on without waiting has used up octets or come closer to the end of its
request: `effort` falls with every step (`effort_lt_of_mem_step`). An octet counts twice before it
is read from the socket and once while it is in the buffer.
-/
namespace CoopHttp

namespace FrameReader

theorem cut_eq_ok {r s : FrameReader} {n : Nat} {bytes : Bytes} (h : r.cut n = .ok (bytes, s)) :
    bytes.length + s.buffer.length = r.buffer.length ∧ s.payload = r.payload := by
  unfold cut at h
  split at h
  · simp only [Except.ok.injEq, Prod.mk.injEq] at h
    obtain ⟨rfl, rfl⟩ := h
    simp only [List.length_take, List.length_drop, and_true]
    omega
  · simp at h

theorem decode_nil : (RequestHead.decode []).result = .ok none := by rfl

theorem ne_nil_of_readHead {r : FrameReader} {bytes : Bytes} {n : Nat}
    (h : (r.readHead bytes).2 = .ok n) : bytes ≠ [] := by
  rintro rfl
  simp [readHead, decode_nil] at h

/-- Reading a head takes no octets but those of the head, and takes some unless the head has been
read already. -/
theorem length_buffer_parseHead {r s : FrameReader} {result : Except ParseError Nat}
    (h : r.parseHead = .ok (s, result)) :
    s.buffer.length ≤ r.buffer.length ∧
      (r.payload = none → result.toOption.isSome → s.buffer.length < r.buffer.length) := by
  unfold parseHead at h
  split at h
  · simp_all
  · have hbuffer := buffer_findEnd r
    split at h
    · rename_i t heq
      replace hbuffer : t.buffer = r.buffer := by rw [← hbuffer, heq]
      simp only [Except.ok.injEq, Prod.mk.injEq] at h
      obtain ⟨rfl, rfl⟩ := h
      simp [hbuffer, Except.toOption]
    · rename_i t e heq
      replace hbuffer : t.buffer = r.buffer := by rw [← hbuffer, heq]
      cases hcut : t.cut e.bodyStart with
      | error cause => simp [hcut, Except.map] at h
      | ok cut =>
        obtain ⟨bytes, u⟩ := cut
        have hlen := (cut_eq_ok hcut).1
        simp only [hcut, Except.map, Except.ok.injEq] at h
        have hs : s.buffer = u.buffer := by rw [← buffer_readHead u bytes, h]
        rw [hs, ← hbuffer]
        refine ⟨by omega, fun _ hok => ?_⟩
        cases result with
        | error error => simp [Except.toOption] at hok
        | ok n =>
          have hne := List.length_pos_iff.2 (ne_nil_of_readHead (by rw [h]))
          omega

theorem length_buffer_nextFrame {r s : FrameReader} (h : r.nextFrame = .ok s) :
    s.buffer.length ≤ r.buffer.length ∧ s.payload = none := by
  unfold nextFrame at h
  split at h
  · rename_i e _ _
    cases hcut : r.cut e.bodyStart with
    | error cause => simp [hcut, Except.map] at h
    | ok cut =>
      simp only [hcut, Except.map, Except.ok.injEq] at h
      have := (cut_eq_ok hcut).1
      subst h
      exact ⟨by simp only [clear]; omega, rfl⟩
  · simp only [Except.ok.injEq] at h
    subst h
    simp [reset, clear]
  · split at h <;>
    · simp only [Except.ok.injEq] at h
      subst h
      simp [reset, clear]

theorem length_buffer_parseHead_ok {r s : FrameReader} {n : Nat}
    (h : r.parseHead = .ok (s, .ok n)) :
    s.buffer.length < r.buffer.length ∨
      r.payload.isSome ∧ s.buffer.length ≤ r.buffer.length := by
  have hlen := length_buffer_parseHead h
  cases hp : r.payload with
  | none => exact .inl (hlen.2 hp rfl)
  | some size => exact .inr ⟨rfl, hlen.1⟩

end FrameReader

namespace Phase

/-- How far a phase is from the end of the request. -/
def distance (payload : Option PayloadSize) : Phase → Nat
  | reject _ _ => 0
  | readHead => if payload.isSome then 6 else 1
  | respond _ _ => 2
  | readBody (some _) => 3
  | readBody none => 4
  | sendContinue _ => 5

end Phase

namespace Connection

variable {η : Type}

/-- The octets still to be used up. -/
def supply (c : Connection η) : Nat := Source.weight c.socket.reads + c.reader.buffer.length

/-- The octets still to be used up, and the way to the end of the request. -/
def effort (c : Connection η) : Nat := 8 * c.supply + c.phase.distance c.reader.payload

/-- The connection that goes on without waiting. -/
def Move.onward? : Move η → Option (Connection η)
  | .stay next | .enter next => some next
  | .wait _ _ | .finish _ | .crash _ => none

/-- A refused request leaves the octets as they are. -/
theorem effort_refuse {c d : Connection η} {error : ParseError}
    (h : (c.refuse error).onward? = some d) : d.effort = 8 * c.supply := by
  unfold refuse at h
  split at h
  · split at h <;> simp only [Move.onward?, Option.some.injEq, reduceCtorEq] at h
    subst h
    rfl
  · simp [Move.onward?] at h

/-- A fetch that goes on has read octets from the socket. -/
theorem effort_fetch {c d : Connection η} {atEnd : Move η}
    (h : (c.fetch atEnd).onward? = some d) :
    atEnd.onward? = some d ∨ d.effort < c.effort := by
  unfold fetch Socket.read at h
  cases hread : Socket.readFrom readChunk c.socket.reads with
  | mk reads attempt =>
    simp only [hread] at h
    split at h
    · exact .inl h
    · rename_i socket bytes hne heq
      simp only [Move.onward?, Option.some.injEq, Prod.mk.injEq] at h heq
      obtain ⟨rfl, rfl⟩ := heq
      have hlt := Socket.weight_readFrom_lt hread (by simpa using hne)
      subst h
      right
      simp only [effort, supply, FrameReader.extend, List.length_append]
      omega
    · simp [Move.onward?] at h
    · simp [Move.onward?] at h

/-- What follows a complete transmission follows it with the same octets to come. -/
theorem effort_transmit {c d : Connection η} {data : Bytes} {again : Bytes → Phase}
    {next : Connection η → Move η} (h : (c.transmit data again next).2.onward? = some d) :
    ∃ socket : Socket, socket.reads = c.socket.reads ∧
      (next { c with socket }).onward? = some d := by
  unfold transmit Socket.writeAll at h
  cases hwrite : Socket.writeAllTo data c.socket.writes with
  | mk transfer rest =>
    obtain ⟨writes, attempt⟩ := rest
    simp only [hwrite] at h
    cases attempt with
    | done u => exact ⟨⟨c.socket.reads, writes⟩, rfl, h⟩
    | blocked => simp [Move.onward?] at h
    | failed error => simp [Move.onward?] at h

theorem effort_behindHead {c d : Connection η} (h : c.behindHead.onward? = some d) :
    d.effort ≤ 8 * c.supply + 5 := by
  unfold behindHead at h
  split at h
  · rw [effort_refuse h]
    exact Nat.le_add_right _ _
  · dsimp only at h
    split at h <;>
    · simp only [Move.onward?, Option.some.injEq] at h
      subst h
      simp [effort, supply, Phase.distance]

theorem effort_stepHead {c d : Connection η} (hphase : c.phase = .readHead)
    (h : c.stepHead.onward? = some d) : d.effort < c.effort := by
  have hdist : c.effort = 8 * c.supply + if c.reader.payload.isSome then 6 else 1 := by
    rw [effort, hphase]; rfl
  have hbuffer := FrameReader.buffer_findEnd c.reader
  have hpayload := FrameReader.payload_findEnd c.reader
  rw [← FrameReader.seekHead_fst] at hbuffer hpayload
  unfold stepHead at h
  split at h
  · rename_i reader heq
    simp only [heq] at hbuffer hpayload
    have hsame : ({ c with reader } : Connection η).effort = c.effort := by
      simp [effort, supply, hbuffer, hpayload]
    obtain hend | hlt := effort_fetch h
    · split at hend
      · simp [Move.onward?] at hend
      · have heffort := effort_refuse hend
        simp only [supply, hbuffer] at *
        split at hdist <;> omega
    · omega
  · rename_i reader error heq
    simp only [heq] at hbuffer hpayload
    have heffort := effort_refuse h
    simp only [supply, hbuffer] at *
    split at hdist <;> omega
  · rename_i reader found heq
    simp only [heq] at hbuffer hpayload
    split at h
    · simp [Move.onward?] at h
    · rename_i s error hparse
      have hlen := (FrameReader.length_buffer_parseHead hparse).1
      have heffort := effort_refuse h
      simp only [supply, hbuffer] at *
      split at hdist <;> omega
    · rename_i s n hparse
      have hlen := FrameReader.length_buffer_parseHead_ok hparse
      have heffort := effort_behindHead h
      rw [hpayload, hbuffer] at hlen
      simp only [supply] at *
      obtain hlt | ⟨hsome, hle⟩ := hlen
      · split at hdist <;> omega
      · rw [if_pos hsome] at hdist
        omega

theorem effort_openBody {c d : Connection η} (hphase : c.phase = .readBody none)
    (h : c.openBody.onward? = some d) : d.effort < c.effort := by
  unfold openBody at h
  dsimp only at h
  split at h
  · have heffort := effort_refuse h
    simp only [effort, hphase, Phase.distance] at *
    omega
  · simp only [Move.onward?, Option.some.injEq] at h
    subst h
    simp [effort, supply, hphase, Phase.distance]

theorem buffer_of_takeRequest? {r s : FrameReader} {request : Request}
    (h : takeRequest? r = some (request, s)) : s.buffer = r.buffer := by
  unfold takeRequest? FrameReader.takeHead FrameReader.takeBody FrameReader.takeTrailers at h
  split at h
  · simp at h
  · rename_i heq
    simp only [Prod.mk.injEq] at heq
    obtain ⟨rfl, _⟩ := heq
    simp only [Option.some.injEq, Prod.mk.injEq] at h
    rw [← h.2]

theorem effort_dispatch {handler : Handler η} {c d : Connection η}
    (h : (c.dispatch handler).2.onward? = some d) : d.effort = 8 * c.supply + 2 := by
  unfold dispatch at h
  split at h
  · simp [Move.onward?] at h
  · rename_i request reader heq
    have hbuffer := buffer_of_takeRequest? heq
    dsimp only at h
    split at h <;> simp only [Move.onward?, Option.some.injEq, reduceCtorEq] at h
    subst h
    simp only [effort, supply, hbuffer, Phase.distance]

theorem effort_stepBody {handler : Handler η} {c d : Connection η} {decoder : PayloadDecoder}
    (hphase : c.phase = .readBody (some decoder))
    (h : (c.stepBody handler decoder).2.onward? = some d) : d.effort < c.effort := by
  have hlen := FrameReader.length_buffer_drain decoder c.reader
  have hdist : c.effort = 8 * c.supply + 3 := by rw [effort, hphase]; rfl
  unfold stepBody at h
  split at h <;> rename_i heq <;> simp only [heq] at hlen
  · have := effort_dispatch h
    simp only [supply] at *
    omega
  · have := effort_refuse h
    simp only [supply] at *
    omega
  · dsimp only at h
    obtain hend | hlt := effort_fetch h
    · split at hend
      · simp [Move.onward?] at hend
      · have := effort_refuse hend
        simp only [supply] at *
        omega
    · simp only [effort, supply, hphase, Phase.distance] at *
      omega

theorem effort_behindResponse {c d : Connection η} {keepAlive : Bool}
    (h : (c.behindResponse keepAlive).onward? = some d) : d.effort ≤ 8 * c.supply + 1 := by
  unfold behindResponse at h
  split at h
  · split at h
    · simp [Move.onward?] at h
    · rename_i reader hnext
      simp only [Move.onward?, Option.some.injEq] at h
      subst h
      obtain ⟨hlen, hnone⟩ := FrameReader.length_buffer_nextFrame hnext
      simp only [effort, supply, hnone, Phase.distance]
      simp
      omega
  · simp [Move.onward?] at h

/-- Going on takes octets or comes closer to the end of the request. -/
theorem effort_step_lt {handler : Handler η} {c d : Connection η}
    (h : (c.step handler).2.onward? = some d) : d.effort < c.effort := by
  unfold step at h
  split at h <;> rename_i hphase
  · exact effort_stepHead hphase h
  · obtain ⟨socket, hreads, hnext⟩ := effort_transmit h
    simp only [Move.onward?, Option.some.injEq] at hnext
    subst hnext
    simp [effort, supply, hreads, hphase, Phase.distance]
  · exact effort_openBody hphase h
  · exact effort_stepBody hphase h
  · obtain ⟨socket, hreads, hnext⟩ := effort_transmit h
    have hle := effort_behindResponse hnext
    have : c.effort = 8 * c.supply + 2 := by rw [effort, hphase]; rfl
    simp only [supply, hreads] at *
    omega
  · obtain ⟨socket, hreads, hnext⟩ := effort_transmit h
    simp [Move.onward?] at hnext

end Connection

end CoopHttp
