/-!
# Canonical Huffman codes

A canonical code is given by the length of each symbol's code word: shorter words come first, and
words of one length come in the order of their symbols. A word is read bit by bit, its most
significant bit first; among the words of one length, the position of the word read so far tells
which symbol it is, if it is one.
-/
namespace CoopHttp

/-- A canonical code: how many words there are of each length, from one on, and the symbols in the
order of their words. -/
structure HuffmanCode where
  counts : List Nat
  symbols : Array Nat
  deriving DecidableEq, Repr

namespace HuffmanCode

def maxLength : Nat := 15

def symbolsOfLength (lengths : List Nat) (length : Nat) : List Nat :=
  (lengths.zipIdx.filter (·.1 = length)).map (·.2)

/-- The code in which the `i`-th symbol has a word of the `i`-th length; a symbol of length zero has
none. -/
def ofLengths (lengths : List Nat) : HuffmanCode :=
  let classes := (List.range maxLength).map fun i => symbolsOfLength lengths (i + 1)
  ⟨classes.map (·.length), classes.flatten.toArray⟩

/-- The number of words of the longest length that begin with a word, from the counts of words by
length. -/
def span (counts : List Nat) : Nat := counts.foldl (fun total count => 2 * total + count) 0

/-- Every sequence of bits begins with a word, and with one word only. -/
def isComplete (code : HuffmanCode) : Bool := span code.counts == 1 <<< maxLength

/-- No word, or one word of one bit. -/
def isTrivial (code : HuffmanCode) : Bool :=
  code.symbols.size ≤ 1 && code.counts.tail.all (· == 0)

/-- The code may be used. Every word of a usable code that is not complete is one bit long, so a bit
that ends no word begins a longer one only if there are longer words. -/
def isUsable (code : HuffmanCode) : Bool := code.isComplete || code.isTrivial

/-- A word in part: the bits read so far as a number, the first word of the present length, the
number of shorter words, and the counts of this length and longer ones. -/
structure Walk where
  word : Nat := 0
  first : Nat := 0
  index : Nat := 0
  counts : List Nat
  deriving DecidableEq, Repr

def start (code : HuffmanCode) : Walk := { counts := code.counts }

/-- What a bit leads to. -/
inductive Reading
  | symbol (value : Nat)
  | more (walk : Walk)
  | unassigned
  deriving DecidableEq, Repr

/-- Reads one bit. Bits are refused if no word is longer than they are. -/
def read (code : HuffmanCode) (walk : Walk) (bit : Bool) : Reading :=
  let word := walk.word + bit.toNat
  match walk.counts with
  | [] => .unassigned
  | count :: counts =>
    if word < walk.first + count then
      match code.symbols[walk.index + (word - walk.first)]? with
      | some symbol => .symbol symbol
      | none => .unassigned
    else if counts.any (0 < ·) then
      .more ⟨2 * word, 2 * (walk.first + count), walk.index + count, counts⟩
    else .unassigned

end HuffmanCode

end CoopHttp
