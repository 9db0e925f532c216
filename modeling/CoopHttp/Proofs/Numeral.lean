import CoopHttp.Decimal
import CoopHttp.Payload.Chunked
import Mathlib.Data.Nat.Digits.Defs

/-!
# Values of numerals

What a string of digits means, said without the reader that computes it: the digits one by one, and
their value in a base, the most significant digit first. Both readers of this library, the one of
chunk sizes and the one of declared lengths, give this value or refuse.
-/
namespace CoopHttp

/-- The value of a numeral; `none` if some octet is no digit. No digits have the value zero. -/
def numeralValue? (base : ℕ) (digit? : UInt8 → Option ℕ) (s : Bytes) : Option ℕ :=
  (s.mapM digit?).map fun digits => Nat.ofDigits base digits.reverse

def decimalDigit? (b : UInt8) : Option ℕ := if Bytes.isDigit b then some (b.toNat - 48) else none

/-- The digits of a numeral, one by one. -/
theorem exists_digit_of_numeralValue? {base : ℕ} {digit? : UInt8 → Option ℕ} {s : Bytes} {n : ℕ}
    (h : numeralValue? base digit? s = some n) : ∀ b ∈ s, ∃ d, digit? b = some d := by
  obtain ⟨digits, hdigits, -⟩ := Option.map_eq_some_iff.1 h
  clear h
  induction s generalizing digits with
  | nil => simp
  | cons b s ih =>
    rw [List.mapM_cons] at hdigits
    simp only [Option.bind_eq_bind, Option.bind_eq_some_iff, Option.pure_def,
      Option.some.injEq] at hdigits
    obtain ⟨d, hd, rest, hrest, -⟩ := hdigits
    intro c hc
    obtain rfl | hc := List.mem_cons.1 hc
    · exact ⟨d, hd⟩
    · exact ih rest hrest c hc

/-- The value of digits read behind a number that has been read already. -/
def continueNumeral (base : ℕ) (start : ℕ) (digits : List ℕ) : ℕ :=
  digits.foldl (fun value digit => value * base + digit) start

theorem ofDigits_reverse (base : ℕ) (digits : List ℕ) :
    Nat.ofDigits base digits.reverse = continueNumeral base 0 digits := by
  rw [Nat.ofDigits_eq_foldr, List.foldr_reverse]
  simp only [continueNumeral, Nat.add_comm, Nat.mul_comm, Nat.cast_id]

/-- Reading on never makes a number smaller. -/
theorem le_continueNumeral {base : ℕ} (hbase : 0 < base) (start : ℕ) (digits : List ℕ) :
    start ≤ continueNumeral base start digits := by
  induction digits generalizing start with
  | nil => exact le_rfl
  | cons digit digits ih =>
    have hstart : start ≤ start * base + digit :=
      (Nat.le_mul_of_pos_right start hbase).trans (Nat.le_add_right _ _)
    exact hstart.trans (ih (start * base + digit))

/-- A fold that has failed stays failed. -/
theorem foldl_bind_none {α : Type} (f : α → UInt8 → Option α) (s : Bytes) :
    s.foldl (fun value b => value.bind fun v => f v b) none = none := by
  induction s with
  | nil => rfl
  | cons b s ih => simpa using ih

/-- Reading digits one by one, giving up as soon as the number reaches `limit`, finds the number
just if it is below `limit`: a number that is too large only gets larger. -/
theorem foldl_below_limit {base : ℕ} (hbase : 0 < base) (digit? : UInt8 → Option ℕ) (limit : ℕ)
    (s : Bytes) (start : ℕ) (hstart : start < limit) :
    s.foldl (fun value b => value.bind fun v => (digit? b).bind fun d =>
      if v * base + d < limit then some (v * base + d) else none) (some start) =
        ((s.mapM digit?).map (continueNumeral base start)).filter (· < limit) := by
  induction s generalizing start with
  | nil => simp [continueNumeral, Option.filter, hstart]
  | cons b s ih =>
    rw [List.foldl_cons, List.mapM_cons]
    cases hb : digit? b with
    | none =>
      exact foldl_bind_none (fun v b => (digit? b).bind fun d =>
        if v * base + d < limit then some (v * base + d) else none) s
    | some d =>
      by_cases hlt : start * base + d < limit
      · simp only [Option.bind_some, hlt, if_true, ih _ hlt]
        cases s.mapM digit? <;> rfl
      · have hnone := foldl_bind_none (fun v b => (digit? b).bind fun d =>
          if v * base + d < limit then some (v * base + d) else none) s
        simp only [Option.bind_some, hlt, if_false, hnone]
        cases s.mapM digit? with
        | none => rfl
        | some digits =>
          have hle := le_continueNumeral hbase (start * base + d) digits
          have hge : ¬ continueNumeral base start (d :: digits) < limit :=
            fun h => hlt (hle.trans_lt h)
          simp [Option.filter, hge]

theorem Decimal.digits?_eq (s : Bytes) : Decimal.digits? s = numeralValue? 10 decimalDigit? s := by
  have hfold (start : ℕ) : s.foldl (fun value b =>
      value.bind fun v => if Bytes.isDigit b then some (10 * v + (b.toNat - 48)) else none)
        (some start) = (s.mapM decimalDigit?).map (continueNumeral 10 start) := by
    induction s generalizing start with
    | nil => rfl
    | cons b s ih =>
      rw [List.foldl_cons, List.mapM_cons]
      by_cases hb : Bytes.isDigit b = true
      · simp only [Option.bind_some, hb, if_true, ih, decimalDigit?]
        cases s.mapM decimalDigit? <;> simp [continueNumeral, Nat.mul_comm]
      · have hnone := foldl_bind_none (fun v b =>
          if Bytes.isDigit b then some (10 * v + (b.toNat - 48)) else none) s
        simp [hb, hnone, decimalDigit?]
  simp only [Decimal.digits?, hfold, numeralValue?, ofDigits_reverse]

/-- The octets of digits are read as the number the digits stand for. -/
theorem Decimal.digits?_map {digits : List Char} (h : ∀ c ∈ digits, c.isDigit = true) :
    Decimal.digits? (digits.map fun c => UInt8.ofNat c.toNat) =
      some (Nat.ofDigitChars 10 digits 0) := by
  rw [Decimal.digits?, Nat.ofDigitChars]
  generalize 0 = start
  induction digits generalizing start with
  | nil => rfl
  | cons c digits ih =>
    have hc := h c (by simp)
    simp only [Char.isDigit, Bool.and_eq_true, decide_eq_true_eq, UInt32.le_iff_toNat_le] at hc
    have hlow : 48 ≤ c.toNat := hc.1
    have hhigh : c.toNat ≤ 57 := hc.2
    have hoctet : (UInt8.ofNat c.toNat).toNat = c.toNat := by simp; omega
    have hdigit : Bytes.isDigit (UInt8.ofNat c.toNat) = true := by
      simp only [Bytes.isDigit, Bool.and_eq_true, decide_eq_true_eq, UInt8.le_iff_toNat_le, hoctet]
      exact ⟨hlow, hhigh⟩
    rw [List.map_cons, List.foldl_cons, List.foldl_cons]
    simp only [Option.bind_some, hdigit, if_true, hoctet]
    exact ih (fun c' hc' => h c' (by simp [hc'])) _

/-- A number that is written is read back. -/
theorem Decimal.numeral?_write (n : ℕ) : Decimal.numeral? (Decimal.write n) = some n := by
  have hpos : 0 < (Nat.toDigits 10 n).length := Nat.length_toDigits_pos
  have hne : Decimal.write n ≠ [] := by
    rw [Decimal.write, ne_eq, List.map_eq_nil_iff]
    exact List.ne_nil_of_length_pos hpos
  have hdigits : ∀ c ∈ Nat.toDigits 10 n, c.isDigit = true :=
    fun c hc => Nat.isDigit_of_mem_toDigits (by omega) (by omega) hc
  rw [Decimal.numeral?, if_neg hne, Decimal.write, Decimal.digits?_map hdigits,
    Nat.ofDigitChars_toDigits (by omega) (by omega)]

/-- A number of three digits is written with three digits. -/
theorem Decimal.length_write {n : ℕ} (hlow : 100 ≤ n) (hhigh : n ≤ 999) :
    (Decimal.write n).length = 3 := by
  have hle := (Nat.length_toDigits_le_iff (n := n) (k := 3) (by omega : 1 < 10) (by omega)).2
    (by omega)
  have hgt := mt (Nat.length_toDigits_le_iff (n := n) (k := 2) (by omega : 1 < 10) (by omega)).1
    (by omega)
  rw [Decimal.write, List.length_map]
  omega

/-- The reader of chunk sizes gives the value of the digits, if it is below 2^64. -/
theorem ChunkedDecoder.hexValue?_eq (s : Bytes) :
    ChunkedDecoder.hexValue? s =
      (numeralValue? 16 Bytes.hexValue? s).filter (· < UInt64.size) := by
  rw [ChunkedDecoder.hexValue?, foldl_below_limit (by omega) Bytes.hexValue? _ s 0 (by decide)]
  simp only [numeralValue?, ofDigits_reverse]

/-! Numbers as text. -/

theorem toList_loop_eq (s : ByteArray) (i : ℕ) (read : List UInt8) :
    ByteArray.toList.loop s i read = read.reverse ++ s.data.toList.drop i := by
  fun_induction ByteArray.toList.loop s i read with
  | case1 i read hi ih =>
    have hi : i < s.data.toList.length := by simpa using hi
    have hget : s.get! i = s.data.toList[i] := by
      simp only [ByteArray.get!, Array.getElem_toList]
      exact getElem!_pos s.data i (by simpa using hi)
    rw [ih, List.drop_eq_getElem_cons hi, hget]
    simp
  | case2 i read hi => rw [List.drop_eq_nil_of_le (by simpa using hi), List.append_nil]

/-- Text of ASCII characters has one octet for each of them. -/
theorem Bytes.ofText_eq_ascii {text : String} (h : text.toList.all (·.toNat < 128) = true) :
    Bytes.ofText text = ascii text := by
  simp only [List.all_eq_true, decide_eq_true_eq] at h
  have hchar : ∀ c ∈ text.toList, String.utf8EncodeChar c = [UInt8.ofNat c.toNat] := by
    intro c hc
    have hsize : c.utf8Size = 1 := by
      rw [Char.utf8Size_eq_one_iff, UInt32.le_iff_toNat_le]
      exact Nat.le_of_lt_succ (h c hc)
    rw [String.utf8EncodeChar_eq_singleton hsize]
    rfl
  have hencode : text.toList.flatMap String.utf8EncodeChar = ascii text := by
    rw [ascii, List.map_eq_flatMap, List.flatMap_def, List.flatMap_def,
      List.map_congr_left hchar]
  rw [ofText, String.toUTF8_eq_toByteArray, ← String.utf8Encode_toList, List.utf8Encode, hencode,
    ByteArray.toList, toList_loop_eq]
  simp

/-- The characters of a written number, behind a sign or nothing, have the octets of the number. -/
theorem Decimal.ofText_append_toDigits {sign : List Char} (h : sign.all (·.toNat < 128) = true)
    (n : ℕ) : Bytes.ofText (String.ofList (sign ++ Nat.toDigits 10 n)) =
      ascii (String.ofList sign) ++ Decimal.write n := by
  have hdigits : (Nat.toDigits 10 n).all (·.toNat < 128) = true := by
    simp only [List.all_eq_true, decide_eq_true_eq]
    intro c hc
    have hdigit := Nat.isDigit_of_mem_toDigits (by omega) (by omega) hc
    simp only [Char.isDigit, Bool.and_eq_true, decide_eq_true_eq, UInt32.le_iff_toNat_le] at hdigit
    exact lt_of_le_of_lt hdigit.2 (by decide)
  rw [Bytes.ofText_eq_ascii (by rw [String.toList_ofList, List.all_append, h, hdigits]; rfl)]
  simp [ascii, Decimal.write]

end CoopHttp
