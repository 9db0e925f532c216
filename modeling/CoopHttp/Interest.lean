import CoopHttp.Ready

/-!
# Interest

The readiness a task wants, kept as what the poller was last told and the bits that differ from it.
The poller is told again only when some bit differs, so wishes that cancel each other cost nothing.
-/
namespace CoopHttp

/-- What the poller was told, and the bits to flip to get what is wanted. -/
structure Interest where
  applied : Ready
  changes : Ready
  deriving DecidableEq, Repr

namespace Interest

/-- The poller was told `applied`, and nothing else is wanted. -/
def ofApplied (applied : Ready) : Interest := ⟨applied, .empty⟩

def current (i : Interest) : Ready := i.applied ^^^ i.changes

/-- Wants exactly `ready`. -/
def set (i : Interest) (ready : Ready) : Interest := { i with changes := ready ^^^ i.applied }

/-- Wants the bits of `ready` as well. -/
def enable (i : Interest) (ready : Ready) : Interest := i.set (i.current ||| ready)

/-- Wants none of the bits of `ready`. -/
def disable (i : Interest) (ready : Ready) : Interest := i.set (i.current &&& ~~~ready)

/-- Takes the wish as told; the second component is what to tell the poller, if anything. -/
def sync (i : Interest) : Interest × Option Ready :=
  if i.changes.isEmpty then (i, none) else (ofApplied i.current, some i.current)

end Interest

end CoopHttp
