import CoopHttp.Head.Encode
import Mathlib.Data.List.Basic
import Mathlib.Tactic.Common

/-!
# Prepared responses

A response that has been prepared can be written, whatever it is, and carries one `Connection`
field, with the value it was prepared for. The field that frames the payload is another one.
-/
namespace CoopHttp

namespace Fields

/-- A value takes the place of the first entry of its name, or stands behind all entries. -/
theorem insertEntry_eq (name : FieldName) (value : FieldValue)
    (entries : List (FieldName × FieldValue)) :
    insertEntry name value entries = entries.takeWhile (·.1 ≠ name) ++
      (name, value) :: (entries.dropWhile (·.1 ≠ name)).filter (·.1 ≠ name) := by
  induction entries with
  | nil => rfl
  | cons entry rest ih =>
    rw [insertEntry]
    split_ifs with hname
    · simp [hname]
    · rw [ih]
      simp [hname]

theorem filter_insertEntry_self (name : FieldName) (value : FieldValue)
    (entries : List (FieldName × FieldValue)) :
    (insertEntry name value entries).filter (·.1 = name) = [(name, value)] := by
  induction entries with
  | nil => simp [insertEntry]
  | cons entry rest ih =>
    rw [insertEntry]
    split_ifs with hname
    · simp
    · rw [List.filter_cons_of_neg (by simpa using hname), ih]

theorem filter_insertEntry_ne {name wanted : FieldName} (hne : wanted ≠ name) (value : FieldValue)
    (entries : List (FieldName × FieldValue)) :
    (insertEntry name value entries).filter (·.1 = wanted) = entries.filter (·.1 = wanted) := by
  induction entries with
  | nil => simp [insertEntry, hne.symm]
  | cons entry rest ih =>
    rw [insertEntry]
    split_ifs with hname
    · have hentry : entry.1 ≠ wanted := fun heq => hne (heq.symm.trans hname)
      rw [List.filter_cons_of_neg (by simpa using hne.symm),
        List.filter_cons_of_neg (by simpa using hentry), List.filter_filter]
      refine List.filter_congr fun e _ => ?_
      by_cases he : e.1 = wanted <;> simp [he, hne]
    · rw [List.filter_cons, List.filter_cons, ih]

theorem getAll_insert_self (fields : Fields) (name : FieldName) (value : FieldValue) :
    (fields.insert name value).getAll name = [value] := by
  rw [getAll, insert, filter_insertEntry_self]
  rfl

theorem getAll_insert_ne (fields : Fields) {name wanted : FieldName} (hne : wanted ≠ name)
    (value : FieldValue) : (fields.insert name value).getAll wanted = fields.getAll wanted := by
  rw [getAll, insert, filter_insertEntry_ne hne, getAll]

end Fields

namespace Response

/-- The fields of a response as they are written, the framing field included. -/
def writtenFields (response : Response) : Fields :=
  ResponseHead.frame response.head.fields (.ofLength response.body.length)

theorem getAll_connection_frame (fields : Fields) (size : PayloadSize) :
    (ResponseHead.frame fields size).getAll .connection = fields.getAll .connection := by
  cases size <;> exact fields.getAll_insert_ne (by decide) _

/-- A prepared response says once whether the connection stays open. -/
theorem getAll_connection_prepare (response : Response) (version : Version) (keepAlive : Bool) :
    (response.prepare version keepAlive).writtenFields.getAll .connection =
      [if keepAlive then .keepAlive else .close] := by
  rw [writtenFields, getAll_connection_frame]
  exact Fields.getAll_insert_self _ _ _

/-- A prepared response can be written, as it has one of the two versions. -/
theorem exists_encode_prepare (response : Response) (version : Version) (keepAlive : Bool) :
    ∃ bytes, (response.prepare version keepAlive).encode = .ok bytes := by
  by_cases hversion : version = .http10
  · simp [encode, ResponseHead.encode, prepare, hversion, ResponseHead.versionText?, Except.map]
  · simp [encode, ResponseHead.encode, prepare, hversion, ResponseHead.versionText?, Except.map]

end Response

end CoopHttp
