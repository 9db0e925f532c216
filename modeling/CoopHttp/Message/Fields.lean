import CoopHttp.Message.Field

/-!
# Header sections

The fields of a message in order of first appearance. All values of one name stand together, in the
order they were appended, at the place of the first of them.
-/
namespace CoopHttp

/-- A header section: names and values, equal names next to each other. -/
structure Fields where
  entries : List (FieldName × FieldValue)
  deriving DecidableEq

namespace Fields

def empty : Fields := ⟨[]⟩

def isEmpty (fields : Fields) : Bool := fields.entries.isEmpty

/-- All values of a name, in order. -/
def getAll (fields : Fields) (name : FieldName) : List FieldValue :=
  (fields.entries.filter (·.1 = name)).map (·.2)

def get? (fields : Fields) (name : FieldName) : Option FieldValue := (fields.getAll name).head?

/-- Puts an entry behind the last entry of its name, or at the end. -/
def appendEntry (name : FieldName) (value : FieldValue) :
    List (FieldName × FieldValue) → List (FieldName × FieldValue)
  | [] => [(name, value)]
  | entry :: rest =>
    if entry.1 = name ∧ ¬ rest.any (·.1 = name) then entry :: (name, value) :: rest
    else entry :: appendEntry name value rest

/-- Adds a value to those a name already has. -/
def append (fields : Fields) (name : FieldName) (value : FieldValue) : Fields :=
  ⟨appendEntry name value fields.entries⟩

/-- Puts an entry in the place of the first entry of its name and drops the others, or puts it at
the end. -/
def insertEntry (name : FieldName) (value : FieldValue) :
    List (FieldName × FieldValue) → List (FieldName × FieldValue)
  | [] => [(name, value)]
  | entry :: rest =>
    if entry.1 = name then (name, value) :: rest.filter (·.1 ≠ name)
    else entry :: insertEntry name value rest

/-- Gives a name one value, in place of all it had. -/
def insert (fields : Fields) (name : FieldName) (value : FieldValue) : Fields :=
  ⟨insertEntry name value fields.entries⟩

/-- Appends the entries of a list one by one. -/
def ofList (entries : List (FieldName × FieldValue)) : Fields :=
  entries.foldl (fun fields entry => fields.append entry.1 entry.2) empty

/-- Some value of `name`, read as a comma-separated list, has the member `token` in any case. -/
def hasToken (fields : Fields) (name : FieldName) (token : Bytes) : Bool :=
  (fields.getAll name).any fun value => Bytes.listHas token value.bytes

end Fields

end CoopHttp
