import CoopHttp.Bytes

/-!
# Internet addresses

Four octets in decimal, or eight groups in hexadecimal, of which one run of zeros may be left out
and the last two may be written as four octets. Reading takes a whole text; writing leaves out the
first of the longest runs of more than one zero.
-/
namespace CoopHttp

structure Ipv4 where
  octets : List UInt8
  length_octets : octets.length = 4
  deriving DecidableEq, Repr

structure Ipv6 where
  groups : List UInt16
  length_groups : groups.length = 8
  deriving DecidableEq, Repr

namespace Address

/-- A reader takes a value off the front of a text, or nothing. -/
abbrev Reader (α : Type) := Bytes → Option (α × Bytes)

/-- Reads a number of at most `maxDigits` digits. Zeros in front of other digits are allowed if
`padded`. -/
def number (radix maxDigits : Nat) (padded : Bool) : Reader Nat := fun s =>
  let digits := s.takeWhile fun b => (Bytes.hexValue? b).any (· < radix)
  let value := digits.foldl (fun n b => n * radix + (Bytes.hexValue? b).getD 0) 0
  if digits = [] ∨ maxDigits < digits.length then none
  else if !padded && digits.head? == some 48 && digits.length != 1 then none
  else some (value, s.drop digits.length)

/-- Reads one octet of a mark. -/
def mark (b : UInt8) : Reader Unit
  | [] => none
  | c :: rest => if c = b then some ((), rest) else none

/-- Reads a value behind a mark. -/
def behind {α : Type} (b : UInt8) (reader : Reader α) : Reader α := fun s =>
  (mark b s).bind fun (_, rest) => reader rest

def octet : Reader UInt8 := fun s =>
  (number 10 3 false s).bind fun (n, rest) =>
    if n < 256 then some (UInt8.ofNat n, rest) else none

def group : Reader UInt16 := fun s =>
  (number 16 4 true s).map fun (n, rest) => (UInt16.ofNat n, rest)

/-- Reads four octets with dots between them. -/
def ipv4 : Reader Ipv4 := fun s => do
  let (a, s) ← octet s
  let (b, s) ← behind 46 octet s
  let (c, s) ← behind 46 octet s
  let (d, s) ← behind 46 octet s
  return (⟨[a, b, c, d], rfl⟩, s)

/-- The two groups that four octets are. -/
def groupsOf (ip : Ipv4) : List UInt16 :=
  match ip.octets with
  | [a, b, c, d] => [a.toUInt16 * 256 + b.toUInt16, c.toUInt16 * 256 + d.toUInt16]
  | _ => []

/-- Reads at most `room` groups with colons between them, and before the first one too unless it
comes `first`. Four octets take the place of two groups and come last; the second component says
whether they came. -/
def groups : (room : Nat) → (first : Bool) → Bytes → List UInt16 × Bool × Bytes
  | 0, _, s => ([], false, s)
  | room + 1, first, s =>
    let separated {α : Type} (reader : Reader α) : Reader α :=
      if first then reader else behind 58 reader
    match if room = 0 then none else separated ipv4 s with
    | some (ip, rest) => (groupsOf ip, true, rest)
    | none =>
      match separated group s with
      | none => ([], false, s)
      | some (g, rest) =>
        let (gs, ended, rest) := groups room false rest
        (g :: gs, ended, rest)

def ofGroups? (groups : List UInt16) : Option Ipv6 :=
  if h : groups.length = 8 then some ⟨groups, h⟩ else none

/-- Reads eight groups, one run of zeros perhaps left out. -/
def ipv6 : Reader Ipv6 := fun s =>
  match groups 8 true s with
  | (before, ended, rest) =>
    if before.length = 8 then (ofGroups? before).map (·, rest)
    else if ended then none
    else (behind 58 (mark 58) rest).bind fun (_, rest) =>
      let (after, _, rest) := groups (7 - before.length) true rest
      let zeros := List.replicate (8 - before.length - after.length) 0
      (ofGroups? (before ++ zeros ++ after)).map (·, rest)

def whole {α : Type} (reader : Reader α) (s : Bytes) : Option α :=
  match reader s with
  | some (a, []) => some a
  | _ => none

end Address

namespace Ipv4

def ofText? (text : String) : Option Ipv4 := Address.whole Address.ipv4 (Bytes.ofText text)

/-- Any address of this machine. -/
def unspecified : Ipv4 := ⟨[0, 0, 0, 0], rfl⟩

def render (ip : Ipv4) : String := ".".intercalate (ip.octets.map fun b => toString b.toNat)

end Ipv4

namespace Ipv6

def ofText? (text : String) : Option Ipv6 := Address.whole Address.ipv6 (Bytes.ofText text)

/-- Any address of this machine. -/
def unspecified : Ipv6 := ⟨[0, 0, 0, 0, 0, 0, 0, 0], rfl⟩

/-- The address of four octets that stands in the last two groups, if the others say so. -/
def mapped? (ip : Ipv6) : Option Ipv4 :=
  match ip.groups with
  | [0, 0, 0, 0, 0, 0xffff, high, low] =>
    some ⟨[(high >>> 8).toUInt8, high.toUInt8, (low >>> 8).toUInt8, low.toUInt8], rfl⟩
  | _ => none

/-- The address of a group of hosts. -/
def isMulticast (ip : Ipv6) : Bool := ip.groups.head?.any (· &&& 0xff00 = 0xff00)

/-- An address that means something on one link only. -/
def isLinkLocal (ip : Ipv6) : Bool := ip.groups.head?.any (· &&& 0xffc0 = 0xfe80)

/-- The number of zeros in a row from the `i`-th group on. -/
def zerosFrom (groups : List UInt16) (i : Nat) : Nat := ((groups.drop i).takeWhile (· = 0)).length

/-- Where the first of the longest runs of zeros begins. -/
def longestRun (groups : List UInt16) : Nat :=
  (List.range groups.length).foldl
    (fun best i => if zerosFrom groups best < zerosFrom groups i then i else best) 0

/-- Groups in hexadecimal with colons between them. -/
def renderGroups (groups : List UInt16) : String :=
  ":".intercalate (groups.map fun g => String.ofList (Nat.toDigits 16 g.toNat))

def render (ip : Ipv6) : String :=
  match ip.mapped? with
  | some ip => "::ffff:" ++ ip.render
  | none =>
    let start := longestRun ip.groups
    let length := zerosFrom ip.groups start
    if 1 < length then
      renderGroups (ip.groups.take start) ++ "::" ++ renderGroups (ip.groups.drop (start + length))
    else renderGroups ip.groups

end Ipv6

end CoopHttp
