import Xref.Text.Utf8

/-!
# Decimal numerals

Two readings: the number that leads a run of bytes, capped and never refused, and a whole text
that has to be the numeral of a machine word.
-/

namespace Xref.Numeral

def isBlankByte (b : UInt8) : Bool :=
  b = 0x20 || b = 0x09 || b = 0x0A || b = 0x0C || b = 0x0D

def isDigitByte (b : UInt8) : Bool := 0x30 ≤ b && b ≤ 0x39

def dropPlus : Bytes → Bytes
  | 0x2B :: rest => rest
  | bytes => bytes

def cappedDigit (cap value : Nat) (b : UInt8) : Nat :=
  min cap (min cap (value * 10) + (b.toNat - 0x30))

/-- The digits after leading blanks and at most one plus sign; no digits read as zero. -/
def leading (cap : Nat) (bytes : Bytes) : Nat :=
  ((dropPlus (bytes.dropWhile isBlankByte)).takeWhile isDigitByte).foldl (cappedDigit cap) 0

theorem leading_le (cap : Nat) (bytes : Bytes) : leading cap bytes ≤ cap := by
  have step (digits : Bytes) (value : Nat) (h : value ≤ cap) :
      digits.foldl (cappedDigit cap) value ≤ cap := by
    induction digits generalizing value with
    | nil => exact h
    | cons b digits ih => exact ih _ (Nat.min_le_left _ _)
  exact step _ _ (Nat.zero_le cap)

def wordLimit : Nat := UInt64.size

def value (digits : List Char) : Nat :=
  digits.foldl (fun value c => value * 10 + (c.toNat - '0'.toNat)) 0

/-- The value, but no more than a limit, so that a long numeral makes no large number. -/
def valueUpTo (limit : Nat) (digits : List Char) : Nat :=
  digits.foldl (fun value c => min limit (value * 10 + (c.toNat - '0'.toNat))) 0

theorem valueUpTo_eq (limit : Nat) (digits : List Char) :
    valueUpTo limit digits = min limit (value digits) := by
  have step (digits : List Char) (n : Nat) :
      digits.foldl (fun value c => min limit (value * 10 + (c.toNat - '0'.toNat))) (min limit n) =
        min limit (digits.foldl (fun value c => value * 10 + (c.toNat - '0'.toNat)) n) := by
    induction digits generalizing n with
    | nil => rfl
    | cons c digits ih =>
      simp only [List.foldl_cons]
      rw [← ih]
      congr 1
      omega
  simpa [valueUpTo, value] using step digits 0

def digits? (limit : Nat) (cs : List Char) : Option Nat :=
  let value := valueUpTo limit cs
  if !cs.isEmpty && cs.all Char.isDigit && value < limit then some value else none

theorem digits?_eq (limit : Nat) (cs : List Char) :
    digits? limit cs =
      if !cs.isEmpty && cs.all Char.isDigit && value cs < limit then some (value cs) else none := by
  unfold digits?
  rw [valueUpTo_eq]
  by_cases h : value cs < limit
  · simp only [Nat.min_eq_right (Nat.le_of_lt h)]
  · simp only [Nat.min_eq_left (Nat.not_lt.mp h)]
    simp [h]

/-- A plus sign may stand before the digits. -/
def word? (text : String) : Option Nat :=
  match text.toList with
  | '+' :: cs => digits? wordLimit cs
  | cs => digits? wordLimit cs

end Xref.Numeral
