import CoopHttp.Proofs.Frame.Operations

/-!
# The request at hand

A reader has no head, or the head of the request it is reading, with the payload that the fields of
this head declare. Reading on changes neither of them, nor the limit of a body.
-/
namespace CoopHttp

/-- What is declared for a head that has been decoded is what its fields declare. -/
theorem RequestHead.ofFields_of_decode {src : Bytes} {head : RequestHead} {size : PayloadSize}
    (h : (decode src).result = .ok (some (head, size))) :
    PayloadSize.ofFields head.fields = .ok size := by
  rw [decode] at h
  split at h
  · cases h
  · split_ifs at h
    cases h
  · dsimp only at h
    split_ifs at h
    split at h
    · cases h
    · obtain ⟨read, hread, hsome⟩ := exists_of_map_eq_ok h
      cases hsome
      obtain ⟨fields, -, hrest⟩ := exists_of_bind_eq_ok hread
      obtain ⟨declared, hdeclared, hpure⟩ := exists_of_bind_eq_ok hrest
      cases hpure
      exact hdeclared

namespace FrameReader

/-- No head has been read. -/
structure Vacant (r : FrameReader) : Prop where
  head_eq : r.head = none
  payload_eq : r.payload = none

/-- This head has been read, and its fields declare a payload of this size. -/
structure AtHand (r : FrameReader) (head : RequestHead) (size : PayloadSize) : Prop where
  head_eq : r.head = some head
  payload_eq : r.payload = some size
  declared : PayloadSize.ofFields head.fields = .ok size

/-- From `r` to `s` the head, its payload and the limit of a body stay what they are. -/
structure SameHead (r s : FrameReader) : Prop where
  head_eq : s.head = r.head
  payload_eq : s.payload = r.payload
  maxBody_eq : s.maxBody = r.maxBody

variable {r s t : FrameReader} {head : RequestHead} {size : PayloadSize}

theorem SameHead.trans (h : SameHead r s) (h' : SameHead s t) : SameHead r t :=
  ⟨h'.head_eq.trans h.head_eq, h'.payload_eq.trans h.payload_eq, h'.maxBody_eq.trans h.maxBody_eq⟩

theorem Vacant.of_sameHead (h : Vacant r) (hsame : SameHead r s) : Vacant s :=
  ⟨hsame.head_eq.trans h.head_eq, hsame.payload_eq.trans h.payload_eq⟩

theorem AtHand.of_sameHead (h : AtHand r head size) (hsame : SameHead r s) : AtHand s head size :=
  ⟨hsame.head_eq.trans h.head_eq, hsame.payload_eq.trans h.payload_eq, h.declared⟩

theorem AtHand.unique {head' : RequestHead} {size' : PayloadSize} (h : AtHand r head size)
    (h' : AtHand r head' size') : head' = head ∧ size' = size := by
  cases h.head_eq.symm.trans h'.head_eq
  cases h.payload_eq.symm.trans h'.payload_eq
  exact ⟨rfl, rfl⟩

theorem AtHand.not_vacant (h : AtHand r head size) : ¬ Vacant r := fun hvacant => by
  cases h.head_eq.symm.trans hvacant.head_eq

/-! Reading on. -/

theorem sameHead_extend (r : FrameReader) (bytes : Bytes) : SameHead r (r.extend bytes) :=
  ⟨rfl, rfl, rfl⟩

theorem sameHead_findEnd (r : FrameReader) : SameHead r r.findEnd.1 := by
  rw [findEnd]
  split <;> exact ⟨rfl, rfl, rfl⟩

theorem sameHead_seekHead (r : FrameReader) : SameHead r r.seekHead.1 := by
  rw [seekHead_fst]
  exact sameHead_findEnd r

theorem sameHead_cut {n : ℕ} {bytes : Bytes} (h : r.cut n = .ok (bytes, s)) : SameHead r s := by
  rw [cut] at h
  split at h <;> cases h
  exact ⟨rfl, rfl, rfl⟩

theorem sameHead_finishBody (r : FrameReader) (trailer : Bytes) :
    SameHead r (r.finishBody trailer).1 := by
  rw [finishBody]
  split
  · exact ⟨rfl, rfl, rfl⟩
  · split <;> exact ⟨rfl, rfl, rfl⟩

theorem sameHead_drain (decoder : PayloadDecoder) (r : FrameReader) :
    SameHead r (drain decoder r).2.1 := by
  fun_induction drain decoder r with
  | case1 | case2 | case4 => exact ⟨rfl, rfl, rfl⟩
  | case3 d r d' buffer hdecode s result hfinish =>
    have hbody := sameHead_finishBody { r with buffer } d'.trailer
    rw [hfinish] at hbody
    exact ⟨hbody.head_eq, hbody.payload_eq, hbody.maxBody_eq⟩
  | case5 d r d' buffer piece hdecode gathered hsize ih =>
    exact ⟨ih.head_eq, ih.payload_eq, ih.maxBody_eq⟩

/-! From one request to the next. -/

theorem readHead_cases (h : Vacant r) (bytes : Bytes) :
    ((r.readHead bytes).1.Vacant ∧ ∃ error, (r.readHead bytes).2 = .error error) ∨
      ∃ head size, (r.readHead bytes).1.AtHand head size ∧
        (r.readHead bytes).2 = .ok size.contentLength := by
  rw [readHead]
  split
  · exact .inl ⟨h, _, rfl⟩
  · exact .inl ⟨h, _, rfl⟩
  · rename_i head size hdecode
    exact .inr ⟨head, size, ⟨rfl, rfl, RequestHead.ofFields_of_decode hdecode⟩, rfl⟩

/-- A head that is read is at hand, with what its fields declare; one that is refused is not. -/
theorem parseHead_cases {result : Except ParseError ℕ} (hr : Vacant r)
    (h : r.parseHead = .ok (s, result)) :
    (s.Vacant ∧ ∃ error, result = .error error) ∨
      ∃ head size, s.AtHand head size ∧ result = .ok size.contentLength := by
  rw [parseHead, hr.payload_eq] at h
  have hfind := sameHead_findEnd r
  dsimp only at h
  split at h <;> rename_i heq <;> rw [heq] at hfind
  · cases h
    exact .inl ⟨hr.of_sameHead hfind, _, rfl⟩
  · obtain ⟨⟨bytes, t⟩, hcut, hread⟩ := exists_of_map_eq_ok h
    have hcases := readHead_cases (hr.of_sameHead (hfind.trans (sameHead_cut hcut))) bytes
    rwa [show t.readHead bytes = (s, result) from hread] at hcases

theorem vacant_nextFrame (h : r.nextFrame = .ok s) : s.Vacant ∧ s.maxBody = r.maxBody := by
  rw [nextFrame] at h
  split at h
  · obtain ⟨⟨bytes, t⟩, hcut, rfl⟩ := exists_of_map_eq_ok h
    exact ⟨⟨rfl, rfl⟩, (sameHead_cut hcut).maxBody_eq⟩
  · cases h
    exact ⟨⟨rfl, rfl⟩, rfl⟩
  · split_ifs at h <;> cases h <;> exact ⟨⟨rfl, rfl⟩, rfl⟩

end FrameReader

end CoopHttp
