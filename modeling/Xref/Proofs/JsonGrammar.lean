import Xref.Json.Reader

/-!
# The texts of a value

A value is a row of tokens, and a row of tokens is spelled by many texts: white space may stand
between tokens, and a character of a string may be written as it is or as an escape. Whatever text
is chosen, the reader gives the value back. Numbers are integers here; fractions and exponents are
not covered, and neither are strings without a text.
-/

namespace Xref.Json

-- ---------------------------------------------------------------------------
-- Values and tokens
-- ---------------------------------------------------------------------------

mutual

def tokens : Json → List Token
  | .null => [.null]
  | .bool value => [.bool value]
  | .number literal => [.number literal]
  | .string text => [.string text]
  | .array items => .openBracket :: [Token.comma].intercalate (eachTokens items) ++ [.closeBracket]
  | .object members =>
    .openBrace :: [Token.comma].intercalate (memberTokens members) ++ [.closeBrace]

def eachTokens : List Json → List (List Token)
  | [] => []
  | item :: rest => tokens item :: eachTokens rest

def memberTokens : List (Option String × Json) → List (List Token)
  | [] => []
  | (name, value) :: rest => (.string name :: .colon :: tokens value) :: memberTokens rest

end

/-- A reader that meets the tokens of a value takes in the value. -/
def Reads (json : Json) : Prop :=
  ∀ stack fresh rest,
    (Reader.atValue stack fresh).run (json.tokens ++ rest) = (Reader.complete json stack).run rest

section
variable {items : List Json} {members : List (Option String × Json)}

theorem run_items {item : Json} (hi : item.Reads) (h : ∀ json ∈ items, json.Reads)
    (done : List Json) (stack : List Frame) (fresh : Bool) (rest : List Token) :
    (Reader.atValue (.items done :: stack) fresh).run
        ([Token.comma].intercalate (eachTokens (item :: items)) ++ .closeBracket :: rest) =
      (Reader.complete (.array (done.reverse ++ item :: items)) stack).run rest := by
  induction items generalizing item done fresh with
  | nil =>
    simp only [eachTokens, List.intercalate_singleton]
    rw [hi]
    simp [Reader.complete, Reader.run, Reader.step]
  | cons next items ih =>
    obtain ⟨hn, h⟩ := List.forall_mem_cons.mp h
    have ih := ih hn h (item :: done) false
    simp only [eachTokens, List.intercalate_cons_cons, List.append_assoc] at ih ⊢
    rw [hi]
    simpa [Reader.complete, Reader.run, Reader.step] using ih

theorem reads_array (h : ∀ json ∈ items, json.Reads) : (array items).Reads := by
  intro stack fresh rest
  cases items with
  | nil => simp [tokens, eachTokens, Reader.complete, Reader.run, Reader.step]
  | cons item items =>
    obtain ⟨hi, h⟩ := List.forall_mem_cons.mp h
    simpa [tokens, Reader.run, Reader.step] using run_items hi h [] stack true rest

theorem run_members (name : Option String) {value : Json} (hv : value.Reads)
    (h : ∀ m ∈ members, m.2.Reads) (done : List (Option String × Json)) (stack : List Frame)
    (fresh : Bool) (rest : List Token) :
    (Reader.atName done stack fresh).run
        ([Token.comma].intercalate (memberTokens ((name, value) :: members)) ++
          .closeBrace :: rest) =
      (Reader.complete (.object (done.reverse ++ (name, value) :: members)) stack).run rest := by
  induction members generalizing name value done fresh with
  | nil =>
    simp only [memberTokens, List.intercalate_singleton, List.cons_append, Reader.run, Reader.step,
      if_true]
    rw [hv]
    simp [Reader.complete, Reader.run, Reader.step]
  | cons next members ih =>
    obtain ⟨hn, h⟩ := List.forall_mem_cons.mp h
    have ih := ih next.1 hn h ((name, value) :: done) false
    simp only [memberTokens, List.intercalate_cons_cons, List.append_assoc, List.cons_append,
      List.nil_append, Reader.run, Reader.step, if_true] at ih ⊢
    rw [hv]
    simpa [Reader.complete, Reader.run, Reader.step] using ih

theorem reads_object (h : ∀ m ∈ members, m.2.Reads) : (object members).Reads := by
  intro stack fresh rest
  cases members with
  | nil => simp [tokens, memberTokens, Reader.complete, Reader.run, Reader.step]
  | cons m members =>
    obtain ⟨hv, h⟩ := List.forall_mem_cons.mp h
    simpa [tokens, Reader.run, Reader.step] using run_members m.1 hv h [] stack true rest

end

mutual

theorem reads : ∀ json : Json, json.Reads
  | .null | .bool _ | .number _ | .string _ => fun _ _ _ => rfl
  | .array items => reads_array (each_reads items)
  | .object members => reads_object (member_reads members)

theorem each_reads : ∀ items : List Json, ∀ json ∈ items, json.Reads
  | [] => List.forall_mem_nil _
  | item :: rest => List.forall_mem_cons.mpr ⟨reads item, each_reads rest⟩

theorem member_reads : ∀ members : List (Option String × Json), ∀ m ∈ members, m.2.Reads
  | [] => List.forall_mem_nil _
  | (_, value) :: rest => List.forall_mem_cons.mpr ⟨reads value, member_reads rest⟩

end

theorem ofTokens?_tokens (json : Json) : ofTokens? json.tokens = some json := by
  simpa [ofTokens?, Reader.complete, Reader.run] using reads json [] false []

-- ---------------------------------------------------------------------------
-- Tokens and texts
-- ---------------------------------------------------------------------------

def unit? : List Char → Option Nat
  | [a, b, c, d] => do
    return (((← hexValue? a) * 16 + (← hexValue? b)) * 16 + (← hexValue? c)) * 16 + (← hexValue? d)
  | _ => none

def units (c : Char) : List Nat :=
  if c.toNat < 0x10000 then [c.toNat]
  else [0xD800 + (c.toNat - 0x10000) / 0x400, 0xDC00 + (c.toNat - 0x10000) % 0x400]

/-- A text, and what may stand for it between quotes. -/
inductive Quoting : List Char → List Char → Prop
  | nil : Quoting [] []
  | plain {c text cs} (hc : c ≠ '"' ∧ c ≠ '\\' ∧ 0x20 ≤ c.toNat) (h : Quoting text cs) :
      Quoting (c :: text) (c :: cs)
  | escape {c letter text cs} (hc : unescape? letter = some c) (h : Quoting text cs) :
      Quoting (c :: text) ('\\' :: letter :: cs)
  | coded {c text cs} (blocks : List (List Char)) (hc : blocks.map unit? = (units c).map some)
      (h : Quoting text cs) :
      Quoting (c :: text) (blocks.flatMap (fun digits => '\\' :: 'u' :: digits) ++ cs)

/-- An integer. No zero stands in front of its digits. -/
def numeral (negative : Bool) (n : Nat) : String := (if negative then "-" else "") ++ toString n

def boundaries : List Char := [' ', '\t', '\n', '\r', '{', '}', '[', ']', ':', ',']

def Ends (cs : List Char) : Prop := ∀ c ∈ cs.head?, c ∈ boundaries

theorem ends_nil : Ends [] := by simp [Ends]

theorem ends_cons {c : Char} {cs : List Char} (h : c ∈ boundaries) : Ends (c :: cs) := by
  simp [Ends, h]

inductive Spells : List Token → List Char → Prop
  | nil : Spells [] []
  | blank {c ts cs} (hc : isBlank c = true) (h : Spells ts cs) : Spells ts (c :: cs)
  | mark {c t ts cs} (hc : punctuation? c = some t) (h : Spells ts cs) :
      Spells (t :: ts) (c :: cs)
  | name {t ts cs} (letters : List Char) (hn : named? letters.reverse = some t) (he : Ends cs)
      (h : Spells ts cs) : Spells (t :: ts) (letters ++ cs)
  | number {ts cs} (negative : Bool) (n : Nat) (he : Ends cs) (h : Spells ts cs) :
      Spells (.number (numeral negative n) :: ts) ((numeral negative n).toList ++ cs)
  | string {text inside ts cs} (hq : Quoting text inside) (h : Spells ts cs) :
      Spells (.string (some (String.ofList text)) :: ts) ('"' :: inside ++ '"' :: cs)

namespace Lexer

variable {found ts : List Token} {cs text inside : List Char} {q : Quoted}

def scan (lexer : Lexer) (cs : List Char) : Option (List Token) := lexer.run (cs.map .scalar)

theorem scan_cons {lexer next : Lexer} {c : Char} (h : lexer.step c = some next) :
    lexer.scan (c :: cs) = next.scan cs := by
  simp [scan, run, read, h]

-- ---------------------------------------------------------------------------
-- Strings
-- ---------------------------------------------------------------------------

theorem scan_unit {digits : List Char} {n : Nat} (h : unit? digits = some n) :
    (Lexer.mk (.quoted q) found).scan ('\\' :: 'u' :: digits ++ cs) =
      (Lexer.mk (.quoted (q.addUnit n)) found).scan cs := by
  match digits, h with
  | [a, b, c, d], h =>
    simp only [unit?, Option.bind_eq_bind, Option.bind_eq_some_iff, Option.pure_def,
      Option.some.injEq] at h
    obtain ⟨_, ha, _, hb, _, hc, _, hd, rfl⟩ := h
    simp [scan, run, read, step, ha, hb, hc, hd]

theorem addUnit_upper {unit : Nat} {done : Option (List Char)}
    (h : 0xD800 ≤ unit ∧ unit < 0xDC00) : Quoted.addUnit ⟨done, none⟩ unit = ⟨done, some unit⟩ := by
  simp only [Quoted.addUnit, if_pos h]

theorem addUnit_lower {upper unit : Nat} {done : Option (List Char)}
    (h : 0xDC00 ≤ unit ∧ unit < 0xE000) :
    Quoted.addUnit ⟨done, some upper⟩ unit =
      ⟨done.map (Char.ofNat (0x10000 + (upper - 0xD800) * 0x400 + (unit - 0xDC00)) :: ·),
        none⟩ := by
  simp only [Quoted.addUnit, if_pos h]

theorem foldl_units (c : Char) :
    (units c).foldl Quoted.addUnit ⟨some text, none⟩ = ⟨some (c :: text), none⟩ := by
  have hv : c.toNat < 0xD800 ∨ 0xDFFF < c.toNat ∧ c.toNat < 0x110000 := c.valid
  unfold units
  split
  · next hc =>
    have hu : ¬(0xD800 ≤ c.toNat ∧ c.toNat < 0xDC00) := by omega
    have hl : ¬(0xDC00 ≤ c.toNat ∧ c.toNat < 0xE000) := by omega
    simp [Quoted.addUnit, hu, hl, Quoted.add]
  · next hc =>
    generalize hn : c.toNat - 0x10000 = above
    have hsum : 0x10000 + (0xD800 + above / 0x400 - 0xD800) * 0x400 +
        (0xDC00 + above % 0x400 - 0xDC00) = c.toNat := by omega
    rw [List.foldl_cons, List.foldl_cons, List.foldl_nil, addUnit_upper (by omega),
      addUnit_lower (by omega), hsum, Char.ofNat_toNat]
    rfl

theorem scan_coded {blocks : List (List Char)} {ns : List Nat}
    (h : blocks.map unit? = ns.map some) :
    (Lexer.mk (.quoted q) found).scan
        (blocks.flatMap (fun digits => '\\' :: 'u' :: digits) ++ cs) =
      (Lexer.mk (.quoted (ns.foldl Quoted.addUnit q)) found).scan cs := by
  induction blocks generalizing ns q with
  | nil =>
    obtain rfl : ns = [] := by simpa using h.symm
    rfl
  | cons digits blocks ih =>
    cases ns with
    | nil => simp at h
    | cons n ns =>
      obtain ⟨hn, h⟩ := List.cons.inj h
      rw [List.flatMap_cons, List.append_assoc, scan_unit hn, ih h]
      rfl

theorem unescape?_u : unescape? 'u' = none := by decide

theorem scan_quoting (h : Quoting text inside) (done : List Char) :
    (Lexer.mk (.quoted ⟨some done, none⟩) found).scan (inside ++ cs) =
      (Lexer.mk (.quoted ⟨some (text.reverse ++ done), none⟩) found).scan cs := by
  induction h generalizing done with
  | nil => rfl
  | @plain c text inside hc h ih =>
    have hn : ¬c.toNat < 0x20 := Nat.not_lt.mpr hc.2.2
    have hstep : (Lexer.mk (.quoted ⟨some done, none⟩) found).step c =
        some ⟨.quoted ⟨some (c :: done), none⟩, found⟩ := by
      simp [step, hc, hn, Quoted.add]
    rw [List.cons_append, scan_cons hstep, ih]
    simp
  | @escape c letter text inside hc h ih =>
    have hu : letter ≠ 'u' := by
      rintro rfl
      cases unescape?_u.symm.trans hc
    have hslash : (Lexer.mk (.quoted ⟨some done, none⟩) found).step '\\' =
        some ⟨.escape ⟨some done, none⟩, found⟩ := rfl
    have hstep : (Lexer.mk (.escape ⟨some done, none⟩) found).step letter =
        some ⟨.quoted ⟨some (c :: done), none⟩, found⟩ := by
      simp [step, hu, hc, Quoted.add]
    rw [List.cons_append, List.cons_append, scan_cons hslash, scan_cons hstep, ih]
    simp
  | coded blocks hc h ih =>
    rw [List.append_assoc, scan_coded hc, foldl_units, ih]
    simp

theorem scan_string (h : Quoting text inside) :
    (Lexer.mk .between found).scan ('"' :: inside ++ '"' :: cs) =
      (Lexer.mk .between (.string (some (String.ofList text)) :: found)).scan cs := by
  have hopen : (Lexer.mk .between found).step '"' = some ⟨.quoted {}, found⟩ := rfl
  have hclose : (Lexer.mk (.quoted ⟨some (text.reverse ++ []), none⟩) found).step '"' =
      some ⟨.between, .string (some (String.ofList text)) :: found⟩ := by
    simp [step, Quoted.token]
  rw [List.cons_append, scan_cons hopen, scan_quoting h [], scan_cons hclose]

-- ---------------------------------------------------------------------------
-- Names and numbers
-- ---------------------------------------------------------------------------

/-- What ends a token without being part of it is left for the next one. -/
theorem scan_ended {mode : Mode} {t : Token} (hc : (Lexer.mk mode found).close =
    some (t :: found).reverse)
    (hs : ∀ c ∈ boundaries, (Lexer.mk mode found).step c = enter (t :: found) c) (he : Ends cs) :
    (Lexer.mk mode found).scan cs = (Lexer.mk .between (t :: found)).scan cs := by
  cases cs with
  | nil => exact hc
  | cons c cs =>
    have hstep := hs c (he c rfl)
    simp only [scan, List.map_cons, run, read, hstep]
    rfl

theorem isLetter_boundary {c : Char} (h : c ∈ boundaries) : isLetter c = false := by
  have hall : boundaries.all (!isLetter ·) = true := by decide
  simpa using List.all_eq_true.mp hall c h

theorem named?_cases {letters : List Char} {t : Token} (h : named? letters = some t) :
    letters = "llun".toList ∨ letters = "eurt".toList ∨ letters = "eslaf".toList := by
  unfold named? at h
  split at h
  · next hl => exact .inl hl
  split at h
  · next hl => exact .inr (.inl hl)
  split at h
  · next hl => exact .inr (.inr hl)
  cases h

theorem scan_name {letters : List Char} {t : Token} (hn : named? letters.reverse = some t)
    (he : Ends cs) :
    (Lexer.mk .between found).scan (letters ++ cs) =
      (Lexer.mk .between (t :: found)).scan cs := by
  have hend : (Lexer.mk (.name letters.reverse) found).scan cs =
      (Lexer.mk .between (t :: found)).scan cs := by
    refine scan_ended (by simp [close, hn]) (fun c hc => ?_) he
    simp [step, isLetter_boundary hc, hn]
  rw [← hend, ← List.reverse_reverse letters, List.reverse_reverse letters.reverse]
  obtain hl | hl | hl := named?_cases hn
  all_goals
    rw [hl]
    rfl

theorem next?_boundary {part : NumberPart} {c : Char} (hp : part.complete = true)
    (h : c ∈ boundaries) : part.next? c = none := by
  have hall : boundaries.all (fun c => (part.next? c).isNone) = true := by
    cases part with
    | zero | whole | fraction | power => decide
    | minus | point | exponent | sign => cases hp
  simpa using List.all_eq_true.mp hall c h

/-- A lexer that may read the digits of a number next, after a sign that stands in `before`. -/
structure Digital (start : Lexer) (before : List Char) (found : List Token) : Prop where
  zero : start.step '0' = some ⟨.number .zero ('0' :: before), found⟩
  other : ∀ c, c.isDigit = true → c ≠ '0' →
    start.step c = some ⟨.number .whole (c :: before), found⟩

theorem digital_between (found : List Token) : Digital ⟨.between, found⟩ [] found := by
  refine ⟨rfl, fun c hc hz => ?_⟩
  have hne : ∀ d, d.isDigit = false → c ≠ d := by
    rintro d hd rfl
    rw [hc] at hd
    cases hd
  simp [step, enter, isBlank, hc, hz, hne ' ' rfl, hne '\t' rfl, hne '\n' rfl, hne '\r' rfl,
    hne '"' rfl, hne '-' rfl]

theorem digital_minus (found : List Token) : Digital ⟨.number .minus ['-'], found⟩ ['-'] found := by
  refine ⟨rfl, fun c hc hz => ?_⟩
  simp [step, NumberPart.next?, hc, hz]

section
variable {start : Lexer} {before : List Char} {n : Nat}

theorem scan_positive (h : start.Digital before found) (hn : 0 < n) (cs : List Char) :
    start.scan (Nat.toDigits 10 n ++ cs) =
      (Lexer.mk (.number .whole ((Nat.toDigits 10 n).reverse ++ before)) found).scan cs := by
  have hdigit : ∀ d < 10, (Nat.digitChar d).isDigit = true := by decide
  induction n using Nat.strongRecOn generalizing cs with
  | ind n ih =>
    by_cases hlt : n < 10
    · have hne : ∀ d < 10, 0 < d → Nat.digitChar d ≠ '0' := by decide
      rw [Nat.toDigits_of_lt_base hlt, List.singleton_append,
        scan_cons (h.other _ (hdigit n hlt) (hne n hlt hn))]
      rfl
    · have hlast := hdigit (n % 10) (Nat.mod_lt n (by decide))
      have hstep (literal : List Char) :
          (Lexer.mk (.number .whole literal) found).step (Nat.digitChar (n % 10)) =
            some ⟨.number .whole (Nat.digitChar (n % 10) :: literal), found⟩ := by
        simp [step, NumberPart.next?, hlast]
      rw [Nat.toDigits_of_base_le (by decide) (Nat.not_lt.mp hlt), List.append_assoc,
        ih (n / 10) (by omega) (by omega), List.singleton_append, scan_cons (hstep _)]
      simp

theorem scan_digits (h : start.Digital before found) (n : Nat) (he : Ends cs) :
    start.scan ((toString n).toList ++ cs) =
      (Lexer.mk .between
        (.number (String.ofList (before.reverse ++ (toString n).toList)) :: found)).scan cs := by
  have hend {part : NumberPart} (hp : part.complete = true) (digits : List Char) :
      (Lexer.mk (.number part (digits.reverse ++ before)) found).scan cs =
        (Lexer.mk .between
          (.number (String.ofList (before.reverse ++ digits)) :: found)).scan cs := by
    refine scan_ended (by simp [close, hp]) (fun c hc => ?_) he
    simp [step, next?_boundary hp hc, hp]
  rw [Nat.toString_eq_ofList_toDigits, String.toList_ofList]
  by_cases hn : n = 0
  · subst hn
    exact (scan_cons h.zero).trans (hend rfl ['0'])
  · rw [scan_positive h (Nat.pos_of_ne_zero hn), hend rfl]

end

theorem scan_number (negative : Bool) (n : Nat) (he : Ends cs) :
    (Lexer.mk .between found).scan ((numeral negative n).toList ++ cs) =
      (Lexer.mk .between (.number (numeral negative n) :: found)).scan cs := by
  cases negative with
  | false =>
    have h := scan_digits (digital_between found) n he
    simpa [numeral, Nat.repr_eq_ofList_toDigits] using h
  | true =>
    have h := scan_digits (digital_minus found) n he
    simpa [numeral, Nat.repr_eq_ofList_toDigits] using (scan_cons rfl).trans h

theorem step_mark {c : Char} {t : Token} (h : punctuation? c = some t) :
    (Lexer.mk .between found).step c = some ⟨.between, t :: found⟩ := by
  unfold punctuation? at h
  split at h
  all_goals
    cases h
  all_goals
    rfl

theorem scan_spelled (h : Spells ts cs) :
    (Lexer.mk .between found).scan cs = some (found.reverse ++ ts) := by
  induction h generalizing found with
  | nil => simp [scan, run, close]
  | @blank c ts cs hc h ih =>
    have hstep : (Lexer.mk .between found).step c = some ⟨.between, found⟩ := by
      simp [step, enter, hc]
    rw [scan_cons hstep, ih]
  | @mark c t ts cs hc h ih =>
    rw [scan_cons (step_mark hc), ih]
    simp
  | name letters hn he h ih =>
    rw [scan_name hn he, ih]
    simp
  | number negative n he h ih =>
    rw [scan_number negative n he, ih]
    simp
  | string hq h ih =>
    rw [scan_string hq, ih]
    simp

end Lexer

theorem parse?_of_spells {json : Json} {text : String} (h : Spells json.tokens text.toList) :
    parse? text = some json := by
  have ht : tokens? (text.toList.map .scalar) = some json.tokens := Lexer.scan_spelled h
  rw [parse?, ht]
  exact ofTokens?_tokens json

end Xref.Json
