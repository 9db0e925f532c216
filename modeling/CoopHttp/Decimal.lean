import CoopHttp.Bytes

/-!
# Whole numbers in decimal

Writing uses no leading zero. Reading takes any number of leading zeros and one leading plus sign;
a minus sign is read only where negative numbers are in range. A number out of range is refused,
never wrapped.
-/
namespace CoopHttp.Decimal

/-- The decimal digits of a number, as octets. -/
def write (n : Nat) : Bytes := (Nat.toDigits 10 n).map fun c => UInt8.ofNat c.toNat

theorem write_all_isDigit (n : Nat) : (write n).all Bytes.isDigit = true := by
  simp only [write, List.all_map, List.all_eq_true, Function.comp]
  intro c hc
  have h := Nat.isDigit_of_mem_toDigits (by decide) (by decide) hc
  simp only [Char.isDigit, Bool.and_eq_true, decide_eq_true_eq] at h
  have hlow : 48 ≤ c.toNat := by simpa [UInt32.le_iff_toNat_le] using h.1
  have hhigh : c.toNat ≤ 57 := by simpa [UInt32.le_iff_toNat_le] using h.2
  simp only [Bytes.isDigit, Bool.and_eq_true, decide_eq_true_eq, UInt8.le_iff_toNat_le]
  simp
  omega

/-- The value of a string of digits, the most significant first; `none` if another octet occurs. -/
def digits? (s : Bytes) : Option Nat :=
  s.foldl (fun value b =>
    value.bind fun v => if Bytes.isDigit b then some (10 * v + (b.toNat - 48)) else none) (some 0)

/-- A non-empty string of digits. -/
def numeral? (s : Bytes) : Option Nat := if s = [] then none else digits? s

/-- A number below `bound`, a plus sign allowed. -/
def natural? (bound : Nat) (s : Bytes) : Option Nat :=
  let body := match s with
    | 43 :: rest => rest
    | _ => s
  (numeral? body).filter (· < bound)

/-- A number of at least `-bound` and below `bound`, either sign allowed. -/
def integer? (bound : Nat) (s : Bytes) : Option Int :=
  match s with
  | 45 :: rest => ((numeral? rest).filter (· ≤ bound)).map fun n => -(n : Int)
  | _ => (natural? bound s).map fun n => (n : Int)

end CoopHttp.Decimal
