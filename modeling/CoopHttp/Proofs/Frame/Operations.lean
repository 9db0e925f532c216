import CoopHttp.Frame.Source
import CoopHttp.Proofs.Except

/-!
# What a reader carries along

The limit of a body stays what it is. A request whose head has been read stays announced until the
next one is turned to, and the body is done from the first time on that a payload is read to its end.
-/
namespace CoopHttp.FrameReader

variable {r s t : FrameReader}

/-- From `r` to `s` the same request is read; `ended` says that its payload has been read to the end
on the way. -/
structure Carries (r s : FrameReader) (ended : Bool) : Prop where
  maxBody_eq : s.maxBody = r.maxBody
  bodyDone_eq : s.bodyDone = (r.bodyDone || ended)
  isSome_payload : r.payload.isSome ∨ ended = true → s.payload.isSome

namespace Carries

theorem of_eq (hmaxBody : s.maxBody = r.maxBody) (hbodyDone : s.bodyDone = r.bodyDone)
    (hpayload : s.payload = r.payload) : Carries r s false where
  maxBody_eq := hmaxBody
  bodyDone_eq := by rw [hbodyDone, Bool.or_false]
  isSome_payload h := by
    rw [hpayload]
    exact h.resolve_right Bool.false_ne_true

theorem trans {ended : Bool} (h : Carries r s false) (h' : Carries s t ended) :
    Carries r t ended where
  maxBody_eq := h'.maxBody_eq.trans h.maxBody_eq
  bodyDone_eq := by rw [h'.bodyDone_eq, h.bodyDone_eq, Bool.or_false]
  isSome_payload hr := h'.isSome_payload (hr.imp_left fun hr => h.isSome_payload (.inl hr))

end Carries

theorem carries_extend (r : FrameReader) (bytes : Bytes) : Carries r (r.extend bytes) false :=
  .of_eq rfl rfl rfl

/-! The head. -/

theorem carries_findEnd (r : FrameReader) : Carries r r.findEnd.1 false := by
  rw [findEnd]
  split <;> exact .of_eq rfl rfl rfl

theorem carries_seekHead (r : FrameReader) : Carries r r.seekHead.1 false := by
  have hfind := carries_findEnd r
  rw [seekHead]
  split <;> rename_i heq <;> rw [heq] at hfind
  · exact hfind
  · split_ifs <;> exact hfind

theorem carries_pullHead (r : FrameReader) (source : Source) :
    Carries r (r.pullHead source).1 false := by
  induction source generalizing r with
  | nil =>
    have hseek := carries_seekHead r
    rw [pullHead]
    split <;> rename_i heq <;> rw [heq] at hseek <;> exact hseek
  | cons fill source ih =>
    have hseek := carries_seekHead r
    rw [pullHead]
    split <;> rename_i heq <;> rw [heq] at hseek
    · exact hseek
    · split
      · exact hseek
      · exact hseek
      · exact hseek.trans ((carries_extend _ _).trans (ih _))

theorem carries_readHead (r : FrameReader) (bytes : Bytes) :
    Carries r (r.readHead bytes).1 false := by
  rw [readHead]
  split
  · exact .of_eq rfl rfl rfl
  · exact .of_eq rfl rfl rfl
  · exact ⟨rfl, (Bool.or_false _).symm, fun _ => rfl⟩

theorem carries_cut {n : ℕ} {bytes : Bytes} (h : r.cut n = .ok (bytes, s)) :
    Carries r s false := by
  rw [cut] at h
  split at h
  · cases h
    exact .of_eq rfl rfl rfl
  · cases h

theorem carries_parseHead {result : Except ParseError ℕ} (h : r.parseHead = .ok (s, result)) :
    Carries r s false := by
  have hfind := carries_findEnd r
  rw [parseHead] at h
  split at h
  · cases h
    exact .of_eq rfl rfl rfl
  · split at h <;> rename_i heq <;> rw [heq] at hfind
    · cases h
      exact hfind
    · obtain ⟨⟨bytes, t⟩, hcut, hread⟩ := exists_of_map_eq_ok h
      have hhead := carries_readHead t bytes
      rw [show t.readHead bytes = (s, result) from hread] at hhead
      exact hfind.trans ((carries_cut hcut).trans hhead)

/-- A head that has been read announces a payload, of the length that was answered. -/
theorem exists_payload_of_parseHead {n : ℕ} (h : r.parseHead = .ok (s, .ok n)) :
    ∃ size, s.payload = some size ∧ size.contentLength = n := by
  rw [parseHead] at h
  split at h
  · rename_i size hsize
    cases h
    exact ⟨size, hsize, rfl⟩
  · split at h
    · cases h
    · obtain ⟨⟨bytes, t⟩, -, hread⟩ := exists_of_map_eq_ok h
      change t.readHead bytes = (s, .ok n) at hread
      rw [readHead] at hread
      split at hread <;> cases hread
      exact ⟨_, rfl, rfl⟩

theorem payload_parseHead {n : ℕ} (h : r.parseHead = .ok (s, .ok n)) : s.payload.isSome := by
  obtain ⟨size, hsize, -⟩ := exists_payload_of_parseHead h
  rw [hsize]
  rfl

/-! The payload. -/

theorem payload_finishBody (r : FrameReader) (trailer : Bytes) :
    (r.finishBody trailer).1.payload = r.payload := by
  rw [finishBody]
  split
  · rfl
  · split <;> rfl

theorem payload_drain (decoder : PayloadDecoder) (r : FrameReader) :
    (drain decoder r).2.1.payload = r.payload := by
  fun_induction drain decoder r with
  | case1 | case2 | case4 => rfl
  | case3 d r d' buffer h s result hfinish =>
    have hpayload := payload_finishBody { r with buffer } d'.trailer
    rw [hfinish] at hpayload
    exact hpayload
  | case5 d r d' buffer piece h gathered hsize ih => exact ih

/-- The payload has been read to its end. -/
def Progress.ends : Progress (Except ParseError Unit) → Bool
  | .done result => result.isOk
  | .starved => false

theorem carries_finishBody (h : r.payload.isSome) (trailer : Bytes) :
    Carries r (r.finishBody trailer).1 (r.finishBody trailer).2.isOk := by
  rw [finishBody]
  split
  · exact ⟨rfl, (Bool.or_true _).symm, fun _ => h⟩
  · split
    · exact .of_eq rfl rfl rfl
    · exact ⟨rfl, (Bool.or_true _).symm, fun _ => h⟩

theorem carries_drain (decoder : PayloadDecoder) (h : r.payload.isSome) :
    Carries r (drain decoder r).2.1 (drain decoder r).2.2.ends := by
  fun_induction drain decoder r with
  | case1 | case2 | case4 => exact .of_eq rfl rfl rfl
  | case3 d r d' buffer hdecode s result hfinish =>
    have hbody := carries_finishBody (r := { r with buffer }) h d'.trailer
    rw [hfinish] at hbody
    have hbuffer : Carries r { r with buffer } false := .of_eq rfl rfl rfl
    exact hbuffer.trans hbody
  | case5 d r d' buffer piece hdecode gathered hsize ih =>
    have hgathered : Carries r { r with buffer, gathered } false := .of_eq rfl rfl rfl
    exact hgathered.trans (ih h)

theorem carries_pullPayload (decoder : PayloadDecoder) (h : r.payload.isSome) (source : Source) :
    Carries r (r.pullPayload decoder source).1 (r.pullPayload decoder source).2.2.isOk := by
  induction source generalizing decoder r with
  | nil =>
    have hdrain := carries_drain decoder h
    rw [pullPayload]
    split <;> rename_i heq <;> rw [heq] at hdrain <;> exact hdrain
  | cons fill source ih =>
    have hdrain := carries_drain decoder h
    rw [pullPayload]
    split <;> rename_i heq <;> rw [heq] at hdrain
    · exact hdrain
    · split
      · exact hdrain
      · exact hdrain
      · have hpayload := hdrain.isSome_payload (.inl h)
        exact hdrain.trans ((carries_extend _ _).trans (ih _ hpayload))

theorem carries_pullBehindHead {decoder : PayloadDecoder} {source rest : Source}
    {result : Except ParseError Unit}
    (h : r.pullBehindHead decoder source = .ok (s, rest, result)) : Carries r s result.isOk := by
  obtain ⟨⟨t, parsed⟩, hparse, hpull⟩ := exists_of_map_eq_ok h
  have hhead := carries_parseHead hparse
  cases parsed with
  | error error =>
    cases hpull
    exact hhead
  | ok n =>
    have hpayload := carries_pullPayload decoder (payload_parseHead hparse) source
    rw [show t.pullPayload decoder source = (s, rest, result) from hpull] at hpayload
    exact hhead.trans hpayload

theorem carries_pullLength {n : ℕ} {source rest : Source} {result : Except ParseError Unit}
    (h : r.pullLength n source = .ok (s, rest, result)) : Carries r s result.isOk := by
  rw [pullLength] at h
  split at h
  · cases h
    exact .of_eq rfl rfl rfl
  · exact carries_pullBehindHead h

theorem carries_pullDeclared {source rest : Source} {result : Except ParseError Unit}
    (h : r.pullDeclared source = .ok (s, rest, result)) : Carries r s result.isOk := by
  obtain ⟨⟨t, parsed⟩, hparse, hpull⟩ := exists_of_map_eq_ok h
  have hhead := carries_parseHead hparse
  cases parsed with
  | error error =>
    cases hpull
    exact hhead
  | ok n =>
    dsimp only at hpull
    split at hpull
    · cases hpull
      exact hhead
    · have hpayload := carries_pullPayload (.ofSize (t.payload.getD .empty))
        (payload_parseHead hparse) source
      rw [hpull] at hpayload
      exact hhead.trans hpayload

end CoopHttp.FrameReader
