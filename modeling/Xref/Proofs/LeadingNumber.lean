import Mathlib.Data.List.Induction
import Mathlib.Data.List.TakeWhile
import Mathlib.Data.Nat.Digits.Defs
import Xref.Listing

/-!
# The number that leads a run of bytes

A number is read digit by digit, and each digit may stop it at the cap twice: when the ones before
it move up a place, and when it is added. All this comes to stopping once, in the end, what the
digits write. So zeros in front change nothing, no digit that follows makes the number less, and
none takes it off the cap.
-/

namespace Xref

namespace Numeral

variable {bytes digits rest : Bytes} {b : UInt8}

-- ---------------------------------------------------------------------------
-- One cap for all digits
-- ---------------------------------------------------------------------------

def pushDigit (value : Nat) (b : UInt8) : Nat := value * 10 + (b.toNat - 0x30)

def ofDigits (digits : Bytes) : Nat := digits.foldl pushDigit 0

def leadingDigits (bytes : Bytes) : Bytes :=
  (dropPlus (bytes.dropWhile isBlankByte)).takeWhile isDigitByte

theorem cappedDigit_min (cap value : Nat) (b : UInt8) :
    cappedDigit cap (min cap value) b = min cap (pushDigit value b) := by
  unfold cappedDigit pushDigit
  omega

theorem foldl_cappedDigit (cap : Nat) (digits : Bytes) (value : Nat) :
    digits.foldl (cappedDigit cap) (min cap value) = min cap (digits.foldl pushDigit value) := by
  induction digits generalizing value with
  | nil => rfl
  | cons b rest ih => rw [List.foldl_cons, cappedDigit_min, ih, List.foldl_cons]

/-- To stop at the cap with every digit is to stop there once. -/
theorem leading_eq (cap : Nat) (bytes : Bytes) :
    leading cap bytes = min cap (ofDigits (leadingDigits bytes)) := by
  rw [ofDigits, ← foldl_cappedDigit, Nat.min_zero]
  rfl

theorem ofDigits_concat (digits : Bytes) (b : UInt8) :
    ofDigits (digits ++ [b]) = ofDigits digits * 10 + (b.toNat - 0x30) := by
  simp [ofDigits, pushDigit]

theorem ofDigits_eq (digits : Bytes) :
    ofDigits digits = Nat.ofDigits 10 (digits.reverse.map fun b => b.toNat - 0x30) := by
  induction digits using List.reverseRecOn with
  | nil => rfl
  | append_singleton digits b ih =>
    rw [ofDigits_concat, ih, List.reverse_concat, List.map_cons, Nat.ofDigits_cons]
    omega

-- ---------------------------------------------------------------------------
-- What is skipped
-- ---------------------------------------------------------------------------

theorem isDigitByte_iff : isDigitByte b = true ↔ 0x30 ≤ b.toNat ∧ b.toNat ≤ 0x39 := by
  simp [isDigitByte, UInt8.le_iff_toNat_le]

theorem isBlankByte_of_isDigitByte (h : isDigitByte b = true) : isBlankByte b = false := by
  rw [isDigitByte_iff] at h
  simp only [isBlankByte, ← UInt8.toNat_inj, UInt8.reduceToNat, Bool.or_eq_false_iff,
    decide_eq_false_iff_not]
  omega

theorem ne_plus_of_isDigitByte (h : isDigitByte b = true) : b ≠ 0x2B := by
  rintro rfl
  exact absurd h (by decide)

theorem dropPlus_of_head?_ne (h : bytes.head? ≠ some 0x2B) : dropPlus bytes = bytes := by
  unfold dropPlus
  split
  · exact absurd rfl h
  · rfl

theorem takeWhile_append {q : UInt8 → Bool} (h : ∀ b ∈ digits, q b = true)
    (hr : ∀ b, rest.head? = some b → q b = false) :
    (digits ++ rest).takeWhile q = digits ∧ (digits ++ rest).dropWhile q = rest := by
  rw [List.takeWhile_append_of_pos h, List.dropWhile_append_of_pos h]
  cases rest with
  | nil => simp
  | cons b rest => simp [hr b rfl]

theorem head?_dropWhile {q : UInt8 → Bool} (h : (bytes.dropWhile q).head? = some b) :
    q b = false := by
  simpa [h] using List.head?_dropWhile_not q bytes

-- ---------------------------------------------------------------------------
-- The parts of a run of bytes
-- ---------------------------------------------------------------------------

/-- A run of bytes taken apart: blanks, a plus sign or none, digits, and the rest. -/
structure Parts where
  blanks : Bytes
  plus : Bool
  digits : Bytes
  rest : Bytes
  deriving DecidableEq, Repr

namespace Parts

variable {p : Parts}

def sign (p : Parts) : Bytes := if p.plus then [0x2B] else []

def toBytes (p : Parts) : Bytes := p.blanks ++ (p.sign ++ (p.digits ++ p.rest))

def number (p : Parts) : Nat := Nat.ofDigits 10 (p.digits.reverse.map fun b => b.toNat - 0x30)

/-- No part leaves to the next one what it could have taken. -/
structure Longest (p : Parts) : Prop where
  blanks : ∀ b ∈ p.blanks, isBlankByte b = true
  ink : ∀ b, (p.sign ++ (p.digits ++ p.rest)).head? = some b → isBlankByte b = false
  unsigned : p.plus = false → (p.digits ++ p.rest).head? ≠ some 0x2B
  digits : ∀ b ∈ p.digits, isDigitByte b = true
  ended : ∀ b, p.rest.head? = some b → isDigitByte b = false

def ofBytes (bytes : Bytes) : Parts :=
  let signed := bytes.dropWhile isBlankByte
  { blanks := bytes.takeWhile isBlankByte
    plus := signed.head? = some 0x2B
    digits := leadingDigits bytes
    rest := (dropPlus signed).dropWhile isDigitByte }

theorem dropPlus_sign_append (h : p.plus = false → rest.head? ≠ some 0x2B) :
    dropPlus (p.sign ++ rest) = rest := by
  cases hp : p.plus with
  | false => simpa [sign, hp] using dropPlus_of_head?_ne (h hp)
  | true => simp [sign, hp, dropPlus]

theorem digits_append_rest_ofBytes (bytes : Bytes) :
    (ofBytes bytes).digits ++ (ofBytes bytes).rest = dropPlus (bytes.dropWhile isBlankByte) :=
  List.takeWhile_append_dropWhile

theorem signed_ofBytes (bytes : Bytes) :
    (ofBytes bytes).sign ++ ((ofBytes bytes).digits ++ (ofBytes bytes).rest) =
      bytes.dropWhile isBlankByte := by
  rw [digits_append_rest_ofBytes]
  by_cases h : (bytes.dropWhile isBlankByte).head? = some 0x2B
  · obtain ⟨rest, hr⟩ := List.head?_eq_some_iff.mp h
    simp [sign, ofBytes, hr, dropPlus]
  · simp [sign, ofBytes, h, dropPlus_of_head?_ne h]

theorem toBytes_ofBytes (bytes : Bytes) : (ofBytes bytes).toBytes = bytes := by
  rw [Parts.toBytes, signed_ofBytes]
  exact List.takeWhile_append_dropWhile

theorem longest_ofBytes (bytes : Bytes) : (ofBytes bytes).Longest where
  blanks _ := List.mem_takeWhile_imp
  ink b h := by
    rw [signed_ofBytes] at h
    exact head?_dropWhile h
  unsigned h := by
    have hs : (bytes.dropWhile isBlankByte).head? ≠ some 0x2B := of_decide_eq_false h
    rwa [digits_append_rest_ofBytes, dropPlus_of_head?_ne hs]
  digits _ := List.mem_takeWhile_imp
  ended _ := head?_dropWhile

theorem Longest.ofBytes_toBytes (h : p.Longest) : ofBytes p.toBytes = p := by
  obtain ⟨hb, hs⟩ := takeWhile_append h.blanks h.ink
  obtain ⟨hd, hr⟩ := takeWhile_append h.digits h.ended
  have hp : decide ((p.sign ++ (p.digits ++ p.rest)).head? = some 0x2B) = p.plus := by
    cases hp : p.plus with
    | false => simpa [sign, hp] using h.unsigned hp
    | true => simp [sign, hp]
  simp only [ofBytes, leadingDigits, Parts.toBytes, hb, hs, hp, dropPlus_sign_append h.unsigned, hd,
    hr]

theorem existsUnique_longest (bytes : Bytes) : ∃! p : Parts, p.Longest ∧ p.toBytes = bytes := by
  refine ⟨ofBytes bytes, ⟨longest_ofBytes bytes, toBytes_ofBytes bytes⟩, ?_⟩
  rintro q ⟨hq, rfl⟩
  exact hq.ofBytes_toBytes.symm

theorem Longest.leading_toBytes (h : p.Longest) (cap : Nat) :
    leading cap p.toBytes = min cap p.number := by
  have hd : leadingDigits p.toBytes = p.digits := congrArg Parts.digits h.ofBytes_toBytes
  rw [leading_eq, hd, ofDigits_eq, Parts.number]

-- ---------------------------------------------------------------------------
-- Other digits
-- ---------------------------------------------------------------------------

theorem Longest.replace (h : p.Longest) (hne : digits ≠ [])
    (hd : ∀ b ∈ digits, isDigitByte b = true)
    (hr : ∀ b, rest.head? = some b → isDigitByte b = false) :
    { p with digits, rest }.Longest := by
  obtain ⟨d, more, rfl⟩ := List.exists_cons_of_ne_nil hne
  have hdigit : isDigitByte d = true := hd d List.mem_cons_self
  refine ⟨h.blanks, ?_, ?_, hd, hr⟩
  · intro b hb
    cases hp : p.plus with
    | false =>
      obtain rfl : d = b := by simpa [sign, hp] using hb
      exact isBlankByte_of_isDigitByte hdigit
    | true =>
      obtain rfl : 0x2B = b := by simpa [sign, hp] using hb
      decide
  · intro _ hb
    exact ne_plus_of_isDigitByte hdigit (by simpa using hb)

theorem Longest.replace_digits (h : p.Longest) (hd : ∀ b ∈ digits, isDigitByte b = true)
    (hne : digits = [] → p.digits = []) : { p with digits }.Longest := by
  by_cases hn : digits = []
  · have hp : { p with digits } = p := by rw [hn, ← hne hn]
    rwa [hp]
  · exact h.replace hn hd h.ended

theorem longest_digits (hd : ∀ b ∈ digits, isDigitByte b = true) :
    (⟨[], false, digits, []⟩ : Parts).Longest := by
  have hn : (⟨[], false, [], []⟩ : Parts).Longest := by constructor <;> simp [sign]
  exact hn.replace_digits hd fun _ => rfl

theorem number_zeros (p : Parts) (zeros : Nat) :
    { p with digits := List.replicate zeros 0x30 ++ p.digits }.number = p.number := by
  simp [number, Nat.ofDigits_append_replicate_zero]

theorem number_le (p : Parts) (more rest : Bytes) :
    p.number ≤ { p with digits := p.digits ++ more, rest }.number := by
  simp only [number, List.reverse_append, List.map_append, Nat.ofDigits_append]
  refine Nat.le_trans (Nat.le_mul_of_pos_left _ ?_) (Nat.le_add_left _ _)
  positivity

end Parts

end Numeral

-- ---------------------------------------------------------------------------
-- Line numbers
-- ---------------------------------------------------------------------------

namespace Listing

open Numeral (Parts isDigitByte)

variable {p : Parts} {more : Bytes}

theorem lineNumber_toBytes (h : p.Longest) : lineNumber p.toBytes = min (2 ^ 32 - 1) p.number :=
  h.leading_toBytes lineCap

theorem lineNumber_zeros (h : p.Longest) (zeros : Nat) :
    lineNumber { p with digits := List.replicate zeros 0x30 ++ p.digits }.toBytes =
      lineNumber p.toBytes := by
  have hd : ∀ b ∈ List.replicate zeros 0x30 ++ p.digits, isDigitByte b = true := by
    intro b hb
    obtain hb | hb := List.mem_append.mp hb
    · rw [List.eq_of_mem_replicate hb]
      decide
    · exact h.digits b hb
  rw [lineNumber_toBytes (h.replace_digits hd fun hn => (List.append_eq_nil_iff.mp hn).2),
    lineNumber_toBytes h, Parts.number_zeros]

theorem lineNumber_digits_le (h : p.Longest) (hm : ∀ b ∈ more, isDigitByte b = true) :
    lineNumber p.toBytes ≤ lineNumber { p with digits := p.digits ++ more }.toBytes := by
  have hd : ∀ b ∈ p.digits ++ more, isDigitByte b = true :=
    List.forall_mem_append.mpr ⟨h.digits, hm⟩
  rw [lineNumber_toBytes h,
    lineNumber_toBytes (h.replace_digits hd fun hn => (List.append_eq_nil_iff.mp hn).1)]
  exact min_le_min_left _ (p.number_le more p.rest)

theorem lineNumber_of_no_digits (h : p.Longest) (hn : p.digits = []) :
    lineNumber p.toBytes = 0 := by
  rw [lineNumber_toBytes h, Parts.number, hn]
  rfl

theorem lineNumber_le_append (bytes more : Bytes) :
    lineNumber bytes ≤ lineNumber (bytes ++ more) := by
  obtain ⟨p, ⟨h, rfl⟩, -⟩ := Parts.existsUnique_longest bytes
  by_cases hn : p.digits = []
  · rw [lineNumber_of_no_digits h hn]
    exact Nat.zero_le _
  · have hq : { p with
        digits := p.digits ++ (p.rest ++ more).takeWhile isDigitByte
        rest := (p.rest ++ more).dropWhile isDigitByte }.Longest :=
      h.replace (List.append_ne_nil_of_left_ne_nil hn _)
        (List.forall_mem_append.mpr ⟨h.digits, fun _ => List.mem_takeWhile_imp⟩)
        fun _ => Numeral.head?_dropWhile
    have hb : p.toBytes ++ more = { p with
        digits := p.digits ++ (p.rest ++ more).takeWhile isDigitByte
        rest := (p.rest ++ more).dropWhile isDigitByte }.toBytes := by
      simp [Parts.toBytes, Parts.sign]
    rw [hb, lineNumber_toBytes h, lineNumber_toBytes hq]
    exact min_le_min_left _ (p.number_le _ _)

theorem lineNumber_stays {bytes : Bytes} (h : lineNumber bytes ≤ lineNumber more)
    (hcap : lineNumber bytes = 2 ^ 32 - 1) : lineNumber more = 2 ^ 32 - 1 :=
  Nat.le_antisymm (Numeral.leading_le lineCap more) (hcap ▸ h)

/-- Bytes can be taken apart in just one way into all the blanks in front, at most one plus sign,
all the digits after it, and the rest. Their line number is what these digits write, stopped once at
the cap, so without digits it is zero. Zeros in front of the digits make no difference. Digits that
are added to them never make it less, nor do any bytes at the end, and none takes it off the cap. -/
theorem lineNumber_capped (bytes : Bytes) :
    (∃! p : Parts, p.Longest ∧ p.toBytes = bytes) ∧
    (∀ p : Parts, p.Longest → p.toBytes = bytes →
      lineNumber bytes = min (2 ^ 32 - 1) p.number ∧ (p.digits = [] → lineNumber bytes = 0) ∧
      (∀ zeros, lineNumber { p with digits := List.replicate zeros 0x30 ++ p.digits }.toBytes =
        lineNumber bytes) ∧
      ∀ more : Bytes, (∀ b ∈ more, isDigitByte b = true) →
        let longer : Parts := { p with digits := p.digits ++ more }
        lineNumber bytes ≤ lineNumber longer.toBytes ∧
          (lineNumber bytes = 2 ^ 32 - 1 → lineNumber longer.toBytes = 2 ^ 32 - 1)) ∧
    ∀ more : Bytes,
      lineNumber bytes ≤ lineNumber (bytes ++ more) ∧
        (lineNumber bytes = 2 ^ 32 - 1 → lineNumber (bytes ++ more) = 2 ^ 32 - 1) := by
  refine ⟨Parts.existsUnique_longest bytes, ?_, ?_⟩
  · rintro p h rfl
    refine ⟨lineNumber_toBytes h, lineNumber_of_no_digits h, lineNumber_zeros h, ?_⟩
    intro more hm longer
    have hle : lineNumber p.toBytes ≤ lineNumber longer.toBytes := lineNumber_digits_le h hm
    exact ⟨hle, lineNumber_stays hle⟩
  · intro more
    have hle := lineNumber_le_append bytes more
    exact ⟨hle, lineNumber_stays hle⟩

theorem lineNumber_capped_brim :
    let p : Parts := {
      blanks := [0x09, 0x20]
      plus := true
      digits := [0x30, 0x34, 0x32, 0x39, 0x34, 0x39, 0x36, 0x37, 0x32, 0x39, 0x34]
      rest := [0x78, 0x37] }
    p.Longest ∧ p.toBytes = Text.Utf8.encode "\t +04294967294x7" ∧
      lineNumber p.toBytes = 4294967294 ∧
      let longer : Parts := { p with digits := p.digits ++ [0x30] }
      longer.Longest ∧ lineNumber longer.toBytes = 2 ^ 32 - 1 ∧
        lineNumber (longer.toBytes ++ [0x39]) = 2 ^ 32 - 1 := by
  intro p
  have hp : p.Longest := by
    refine ⟨by simp [p, Numeral.isBlankByte], ?_, by simp [p], by simp [p, isDigitByte], ?_⟩
    · rintro b ⟨⟩
      decide
    · rintro b ⟨⟩
      decide
  have hl : { p with digits := p.digits ++ [0x30] }.Longest :=
    hp.replace (by simp) (by simp [p, isDigitByte]) hp.ended
  have hcap := ((lineNumber_capped _).2.1 _ hl rfl).1
  refine ⟨hp, by decide +kernel, ?_, hl, ?_, ?_⟩
  · rw [((lineNumber_capped _).2.1 p hp rfl).1]
    decide +kernel
  · rw [hcap]
    decide +kernel
  · refine ((lineNumber_capped _).2.2 _).2 ?_
    rw [hcap]
    decide +kernel

end Listing
end Xref
