/-!
# Arena

Values under handles that are never confused: a slot that is used again gets a new generation, so a
handle left over from an earlier value finds nothing. Freed slots are reused, the last one first.
-/
namespace CoopHttp

/-- A handle: a slot and the generation it was issued in. -/
structure TaskId where
  index : Nat
  generation : UInt32
  deriving DecidableEq, Repr

namespace TaskId

/-- The name of a task in messages. -/
def render (id : TaskId) : String := s!"task#{id.index}.{id.generation}"

end TaskId

namespace Arena

/-- A place for one value at a time. -/
structure Slot (α : Type) where
  generation : UInt32
  value : Option α

end Arena

/-- Slots, and the empty ones among them in the order of reuse. -/
structure Arena (α : Type) where
  slots : List (Arena.Slot α) := []
  free : List Nat := []
  size : Nat := 0

namespace Arena

variable {α : Type}

/-- The slot of a handle, if it is still of the handle's generation. -/
def slot? (a : Arena α) (id : TaskId) : Option (Slot α) :=
  a.slots[id.index]?.filter (·.generation = id.generation)

def get? (a : Arena α) (id : TaskId) : Option α := (a.slot? id).bind (·.value)

def contains (a : Arena α) (id : TaskId) : Bool := (a.get? id).isSome

/-- Stores the value made from the handle it will have. -/
def insertWith (a : Arena α) (make : TaskId → α) : Arena α × TaskId :=
  match a.free with
  | [] =>
    let id : TaskId := ⟨a.slots.length, 0⟩
    ({ a with slots := a.slots ++ [⟨0, some (make id)⟩], size := a.size + 1 }, id)
  | index :: free =>
    let generation := (a.slots[index]?.map (·.generation)).getD 0
    let id : TaskId := ⟨index, generation⟩
    ({ slots := a.slots.set index ⟨generation, some (make id)⟩, free, size := a.size + 1 }, id)

/-- Replaces the value under a handle that has one. -/
def modify (a : Arena α) (id : TaskId) (f : α → α) : Arena α :=
  match a.get? id with
  | none => a
  | some value => { a with slots := a.slots.set id.index ⟨id.generation, some (f value)⟩ }

/-- Takes the value out from under a handle, which never finds a value again. -/
def remove (a : Arena α) (id : TaskId) : Arena α × Option α :=
  match a.get? id with
  | none => (a, none)
  | some value =>
    ({ slots := a.slots.set id.index ⟨id.generation + 1, none⟩
       free := id.index :: a.free
       size := a.size - 1 }, some value)

def isEmpty (a : Arena α) : Bool := a.size == 0

end Arena

end CoopHttp
