import CoopHttp.Bytes

/-!
# Gathered pieces

A payload arrives in pieces. They are kept as they came, with their common length, so that one more
piece costs the same however many there are already.
-/
namespace CoopHttp

/-- Pieces of a byte string, the last one first. -/
structure Gathered where
  pieces : List Bytes := []
  size : Nat := 0
  size_eq : size = pieces.flatten.length := by rfl
  deriving DecidableEq

namespace Gathered

/-- The pieces together. -/
def bytes (g : Gathered) : Bytes := g.pieces.reverse.flatten

def add (g : Gathered) (piece : Bytes) : Gathered where
  pieces := piece :: g.pieces
  size := piece.length + g.size
  size_eq := by simp [g.size_eq]

theorem bytes_add (g : Gathered) (piece : Bytes) : (g.add piece).bytes = g.bytes ++ piece := by
  simp [bytes, add]

theorem length_bytes (g : Gathered) : g.bytes.length = g.size := by
  simp [bytes, g.size_eq, List.length_flatten]

end Gathered

end CoopHttp
