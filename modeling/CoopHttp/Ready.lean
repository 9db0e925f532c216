/-!
# Readiness

A set of readiness kinds of one descriptor, as a 32-bit mask in the layout of the polling facility.
Bits without a name are kept like the others.
-/
namespace CoopHttp

structure Ready where
  bits : UInt32
  deriving DecidableEq, Repr

namespace Ready

instance : OrOp Ready := ⟨fun a b => ⟨a.bits ||| b.bits⟩⟩
instance : AndOp Ready := ⟨fun a b => ⟨a.bits &&& b.bits⟩⟩
instance : XorOp Ready := ⟨fun a b => ⟨a.bits ^^^ b.bits⟩⟩
instance : Complement Ready := ⟨fun a => ⟨~~~a.bits⟩⟩

@[simp] theorem bits_or (a b : Ready) : (a ||| b).bits = a.bits ||| b.bits := rfl
@[simp] theorem bits_and (a b : Ready) : (a &&& b).bits = a.bits &&& b.bits := rfl
@[simp] theorem bits_xor (a b : Ready) : (a ^^^ b).bits = a.bits ^^^ b.bits := rfl
@[simp] theorem bits_not (a : Ready) : (~~~a).bits = ~~~a.bits := rfl

def empty : Ready := ⟨0⟩

/-- Bytes can be read, or the other side has closed. -/
def readable : Ready := ⟨1⟩

def writable : Ready := ⟨4⟩

/-- The descriptor is broken. -/
def error : Ready := ⟨8⟩

/-- Both directions are closed. -/
def hangup : Ready := ⟨16⟩

/-- The other side has closed its sending direction. -/
def readHangup : Ready := ⟨8192⟩

/-- The conditions that end a connection rather than let it go on. -/
def errors : Ready := error ||| hangup ||| readHangup

/-- The set has no kind, named or not. -/
def isEmpty (a : Ready) : Bool := a.bits == 0

/-- Every kind of `b` is in `a`. -/
def contains (a b : Ready) : Bool := a.bits &&& b.bits == b.bits

/-- Some kind is in both. -/
def intersects (a b : Ready) : Bool := a.bits &&& b.bits != 0

/-- The named kinds, in the order they are listed in. -/
def named : List (Ready × String) :=
  [(readable, "READABLE"), (writable, "WRITABLE"), (error, "ERROR"), (hangup, "HANGUP"),
    (readHangup, "READ_HANGUP")]

/-- The names of the kinds in the set, in braces. -/
def render (a : Ready) : String :=
  let names := (named.filter fun entry => a.contains entry.1).map (·.2)
  "\x7b" ++ ", ".intercalate names ++ "\x7d"

end Ready

end CoopHttp
