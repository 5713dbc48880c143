import Mathlib.Data.List.Induction
import Mathlib.Data.List.TakeWhile
import Xref.Numeral
import Xref.Text.Blank

/-!
# Words

What white space around a text, and between its words, has no part in; and the numbers that are
words. A number may be written with a plus sign and with zeros in front.
-/

namespace Xref

namespace Text

variable {before core after name rest cs : List Char} {b : Char}

def Blanks (cs : List Char) : Prop := ∀ c ∈ cs, isBlank c = true

instance (cs : List Char) : Decidable (Blanks cs) :=
  decidable_of_iff (cs.all isBlank = true) List.all_eq_true

/-- Neither starts nor ends with white space, and is not empty. -/
structure Tight (cs : List Char) : Prop where
  first : ∃ c, cs.head? = some c ∧ isBlank c = false
  last : ∃ c, cs.getLast? = some c ∧ isBlank c = false

structure Word (cs : List Char) : Prop where
  ne_nil : cs ≠ []
  ink : ∀ c ∈ cs, isBlank c = false

theorem word_iff : Word cs ↔ (!cs.isEmpty && cs.all (!isBlank ·)) = true := by
  simp only [Bool.and_eq_true, Bool.not_eq_true', List.isEmpty_eq_false_iff, List.all_eq_true]
  exact ⟨fun hw => ⟨hw.ne_nil, hw.ink⟩, fun ⟨hne, hi⟩ => ⟨hne, hi⟩⟩

instance (cs : List Char) : Decidable (Word cs) := decidable_of_iff _ word_iff.symm

theorem Word.tight (hw : Word core) : Tight core :=
  ⟨⟨_, List.head?_eq_some_head hw.ne_nil, hw.ink _ (List.head_mem _)⟩,
    ⟨_, List.getLast?_eq_some_getLast hw.ne_nil, hw.ink _ (List.getLast_mem _)⟩⟩

theorem Tight.append (ht : Tight core) (hr : Tight rest) (between : List Char) :
    Tight (core ++ between ++ rest) := by
  obtain ⟨c, hc, hn⟩ := ht.first
  obtain ⟨d, hd, hm⟩ := hr.last
  exact ⟨⟨c, by rw [List.append_assoc, List.head?_append, hc]; rfl, hn⟩,
    ⟨d, by rw [List.getLast?_append, hd]; rfl, hm⟩⟩

theorem dropWhile_blanks_append (hb : Blanks before)
    (hc : ∃ c, core.head? = some c ∧ isBlank c = false) :
    (before ++ core).dropWhile isBlank = core := by
  obtain ⟨c, hc, hn⟩ := hc
  obtain ⟨more, rfl⟩ := List.head?_eq_some_iff.mp hc
  rw [List.dropWhile_append_of_pos hb, List.dropWhile_cons_of_neg (by simp [hn])]

theorem Tight.trimChars_append (ht : Tight core) (hb : Blanks before) (ha : Blanks after) :
    trimChars (before ++ core ++ after) = core := by
  obtain ⟨c, hc, hn⟩ := ht.first
  have hfirst : (before ++ (core ++ after)).dropWhile isBlank = core ++ after :=
    dropWhile_blanks_append hb ⟨c, by rw [List.head?_append, hc]; rfl, hn⟩
  have hlast : (after.reverse ++ core.reverse).dropWhile isBlank = core.reverse := by
    refine dropWhile_blanks_append (fun c hm => ha c (List.mem_reverse.mp hm)) ?_
    simpa using ht.last
  rw [trimChars, List.append_assoc, hfirst, List.reverse_append, hlast, List.reverse_reverse]

theorem Tight.trim_append {text : String} (ht : Tight core) (hb : Blanks before)
    (ha : Blanks after) (h : text.toList = before ++ core ++ after) :
    trim text = String.ofList core := by
  rw [trim, h, ht.trimChars_append hb ha]

theorem Tight.trim_self (ht : Tight core) : trim (String.ofList core) = String.ofList core := by
  have h : (String.ofList core).toList = [] ++ core ++ [] := by simp
  exact ht.trim_append (List.forall_mem_nil _) (List.forall_mem_nil _) h

theorem Tight.isEmpty (ht : Tight core) : (String.ofList core).isEmpty = false := by
  obtain ⟨c, hc, -⟩ := ht.first
  obtain ⟨more, rfl⟩ := List.head?_eq_some_iff.mp hc
  simp [String.isEmpty_eq_false_iff]

theorem blanks_takeWhile (cs : List Char) : Blanks (cs.takeWhile isBlank) := fun _ hc =>
  List.mem_takeWhile_imp hc

theorem exists_head?_dropWhile (h : cs.dropWhile isBlank ≠ []) :
    ∃ c, (cs.dropWhile isBlank).head? = some c ∧ isBlank c = false :=
  ⟨_, List.head?_eq_some_head h, by simpa using List.head_dropWhile_not isBlank h⟩

theorem exists_trimChars (cs : List Char) :
    ∃ before after, Blanks before ∧ Blanks after ∧ cs = before ++ trimChars cs ++ after ∧
      (trimChars cs = [] ∨ Tight (trimChars cs)) := by
  generalize hm : cs.dropWhile isBlank = middle
  have hcs : cs = cs.takeWhile isBlank ++ middle := by rw [← hm, List.takeWhile_append_dropWhile]
  have hmiddle : middle = trimChars cs ++ (middle.reverse.takeWhile isBlank).reverse := by
    rw [trimChars, hm, ← List.reverse_append, List.takeWhile_append_dropWhile, List.reverse_reverse]
  refine ⟨cs.takeWhile isBlank, (middle.reverse.takeWhile isBlank).reverse, blanks_takeWhile cs,
    fun c hc => blanks_takeWhile _ c (List.mem_reverse.mp hc), ?_, ?_⟩
  · rw [List.append_assoc, ← hmiddle, ← hcs]
  · by_cases ht : trimChars cs = []
    · exact .inl ht
    · have hne : middle ≠ [] := by
        rw [hmiddle]
        exact List.append_ne_nil_of_left_ne_nil ht _
      have hend : middle.reverse.dropWhile isBlank ≠ [] := by
        rw [trimChars, hm] at ht
        exact fun he => ht (by rw [he]; rfl)
      refine .inr ⟨?_, ?_⟩
      · obtain ⟨c, hc, hn⟩ := exists_head?_dropWhile (hm ▸ hne)
        obtain ⟨first, more, hf⟩ := List.exists_cons_of_ne_nil ht
        refine ⟨c, ?_, hn⟩
        rw [hm, hmiddle, hf] at hc
        rw [hf, ← hc]
        rfl
      · obtain ⟨c, hc, hn⟩ := exists_head?_dropWhile hend
        exact ⟨c, by rw [trimChars, hm, List.getLast?_reverse, hc], hn⟩

theorem Tight.exists_word (ht : Tight core) :
    ∃ name, Word name ∧ (core = name ∨ ∃ b rest, isBlank b = true ∧ core = name ++ b :: rest) := by
  have hsplit : core.takeWhile (!isBlank ·) ++ core.dropWhile (!isBlank ·) = core :=
    List.takeWhile_append_dropWhile
  have hink : ∀ c ∈ core.takeWhile (!isBlank ·), isBlank c = false := fun c hc => by
    simpa using List.mem_takeWhile_imp hc
  have hne : core.takeWhile (!isBlank ·) ≠ [] := by
    obtain ⟨c, hc, hn⟩ := ht.first
    obtain ⟨more, rfl⟩ := List.head?_eq_some_iff.mp hc
    simp [hn]
  refine ⟨core.takeWhile (!isBlank ·), ⟨hne, hink⟩, ?_⟩
  cases hrest : core.dropWhile (!isBlank ·) with
  | nil => exact .inl (hsplit.symm.trans (by rw [hrest, List.append_nil]))
  | cons b rest =>
    refine .inr ⟨b, rest, ?_, by rw [← hrest, hsplit]⟩
    have hb := List.head_dropWhile_not (!isBlank ·) (hrest ▸ List.cons_ne_nil b rest)
    simpa [hrest] using hb

theorem splitBlank_append (hn : name.all (!isBlank ·) = true) (hb : isBlank b = true) :
    splitBlank (String.ofList (name ++ b :: rest)) =
      (String.ofList name, some (String.ofList rest)) := by
  have hp : ∀ c ∈ name, (!isBlank c) = true := List.all_eq_true.mp hn
  simp [splitBlank, List.dropWhile_append_of_pos hp, List.takeWhile_append_of_pos hp, hb]

end Text

-- ---------------------------------------------------------------------------
-- Numbers
-- ---------------------------------------------------------------------------

namespace Numeral

def padded (zeros n : Nat) : List Char := List.replicate zeros '0' ++ (toString n).toList

/-- A way to write a number: its digits, which zeros and then a plus sign may precede. -/
def Spells (n : Nat) (word : List Char) : Prop :=
  ∃ zeros, word = padded zeros n ∨ word = '+' :: padded zeros n

variable {zeros n : Nat} {word digits : List Char} {text : String} {c : Char}

theorem padded_eq (zeros n : Nat) :
    padded zeros n = List.replicate zeros '0' ++ Nat.toDigits 10 n := by
  rw [padded, Nat.toString_eq_ofList_toDigits, String.toList_ofList]

theorem isDigit_of_mem_padded (h : c ∈ padded zeros n) : c.isDigit = true := by
  rw [padded_eq, List.mem_append] at h
  obtain h | h := h
  · rw [List.eq_of_mem_replicate h]
    decide
  · exact Nat.isDigit_of_mem_toDigits (by decide) (by decide) h

theorem padded_ne_nil (zeros n : Nat) : padded zeros n ≠ [] := by
  rw [padded_eq]
  exact List.append_ne_nil_of_right_ne_nil _ Nat.toDigits_ne_nil

theorem value_eq (digits : List Char) : value digits = Nat.ofDigitChars 10 digits 0 := by
  rw [Nat.ofDigitChars_eq_foldl, value]
  simp only [Nat.mul_comm]

theorem value_padded (zeros n : Nat) : value (padded zeros n) = n := by
  rw [value_eq, padded_eq, Nat.ofDigitChars_append, Nat.ofDigitChars_replicate_zero, Nat.mul_zero,
    Nat.ofDigitChars_ten_toDigits]

theorem digits?_padded (limit zeros n : Nat) :
    digits? limit (padded zeros n) = if n < limit then some n else none := by
  have hd : (padded zeros n).all Char.isDigit = true :=
    List.all_eq_true.mpr fun c => isDigit_of_mem_padded
  rw [digits?_eq, value_padded, hd]
  simp [padded_ne_nil]

theorem Spells.word? (h : Spells n word) :
    Numeral.word? (String.ofList word) = if n < wordLimit then some n else none := by
  obtain ⟨zeros, rfl | rfl⟩ := h
  · unfold Numeral.word?
    rw [String.toList_ofList]
    split
    · -- Digits start with no sign.
      next he =>
      have hd : '+'.isDigit = true := isDigit_of_mem_padded (by rw [he]; exact List.mem_cons_self)
      exact absurd hd (by decide)
    · exact digits?_padded _ _ _
  · simp only [Numeral.word?, String.toList_ofList, digits?_padded]

theorem toDigits_digit (hc : c.isDigit = true) :
    c.toNat - '0'.toNat < 10 ∧ Nat.toDigits 10 (c.toNat - '0'.toNat) = [c] := by
  have hd : 0x30 ≤ c.toNat ∧ c.toNat ≤ 0x39 := Char.isDigit_iff_toNat.mp hc
  have hchar : ∀ d < 10, Nat.digitChar d = Char.ofNat (0x30 + d) := by decide
  have hz : '0'.toNat = 0x30 := rfl
  have hlt : c.toNat - '0'.toNat < 10 := by omega
  have hc : 0x30 + (c.toNat - '0'.toNat) = c.toNat := Nat.add_sub_cancel' hd.1
  rw [Nat.toDigits_of_lt_base hlt, hchar _ hlt, hc, Char.ofNat_toNat]
  exact ⟨hlt, rfl⟩

theorem exists_eq_padded (hd : ∀ c ∈ digits, c.isDigit = true) (hne : digits ≠ []) :
    ∃ zeros, digits = padded zeros (value digits) := by
  induction digits using List.reverseRecOn with
  | nil => exact absurd rfl hne
  | append_singleton ds c ih =>
    obtain ⟨hds, hc⟩ := List.forall_mem_append.mp hd
    have hc : c.isDigit = true := hc c List.mem_cons_self
    obtain ⟨hlt, hdigit⟩ := toDigits_digit hc
    have hv : value (ds ++ [c]) = 10 * value ds + (c.toNat - '0'.toNat) := by
      rw [value_eq, value_eq, Nat.ofDigitChars_append, Nat.ofDigitChars_cons, Nat.ofDigitChars_nil]
    by_cases hn : ds = []
    · refine ⟨0, ?_⟩
      subst hn
      rw [hv, padded_eq]
      simpa [value] using hdigit.symm
    · obtain ⟨zeros, hz⟩ := ih hds hn
      rw [padded_eq] at hz
      by_cases hzero : value ds = 0
      · refine ⟨zeros + 1, ?_⟩
        rw [hzero, Nat.toDigits_zero] at hz
        rw [hv, hzero, padded_eq, Nat.mul_zero, Nat.zero_add, hdigit, List.replicate_succ', ← hz]
      · refine ⟨zeros, ?_⟩
        have hpos : 0 < value ds := Nat.pos_of_ne_zero hzero
        rw [hv, padded_eq, ← Nat.toDigits_append_toDigits (by decide) hpos hlt, hdigit,
          ← List.append_assoc, ← hz]

theorem word?_eq_some_iff :
    word? text = some n ↔ Spells n text.toList ∧ n < wordLimit := by
  constructor
  · intro h
    have hdigits {cs : List Char} (h : digits? wordLimit cs = some n) :
        (∃ zeros, cs = padded zeros n) ∧ n < wordLimit := by
      rw [digits?_eq] at h
      split at h
      · next hd =>
        obtain rfl := Option.some.inj h
        simp only [Bool.and_eq_true, Bool.not_eq_true', List.all_eq_true, decide_eq_true_eq] at hd
        exact ⟨exists_eq_padded hd.1.2 (by simpa using hd.1.1), hd.2⟩
      · cases h
    unfold word? at h
    split at h
    · next cs hs =>
      obtain ⟨⟨zeros, rfl⟩, hn⟩ := hdigits h
      exact ⟨⟨zeros, .inr hs⟩, hn⟩
    · obtain ⟨⟨zeros, hs⟩, hn⟩ := hdigits h
      exact ⟨⟨zeros, .inl hs⟩, hn⟩
  · rintro ⟨h, hn⟩
    rw [← String.ofList_toList (s := text), h.word?, if_pos hn]

theorem isBlank_of_isDigit (h : c.isDigit = true) : Text.isBlank c = false := by
  have hd : 0x30 ≤ c.toNat ∧ c.toNat ≤ 0x39 := Char.isDigit_iff_toNat.mp h
  simp only [Text.isBlank, Bool.or_eq_false_iff, Bool.and_eq_false_iff, decide_eq_false_iff_not]
  omega

theorem Spells.isWord (h : Spells n word) : Text.Word word := by
  have hm (zeros : Nat) : ∀ c ∈ padded zeros n, Text.isBlank c = false := fun c hc =>
    isBlank_of_isDigit (isDigit_of_mem_padded hc)
  obtain ⟨zeros, rfl | rfl⟩ := h
  · exact ⟨padded_ne_nil zeros n, hm zeros⟩
  · exact ⟨List.cons_ne_nil _ _, List.forall_mem_cons.mpr ⟨by decide, hm zeros⟩⟩

theorem Spells.unique {m : Nat} (h : Spells n word) (h' : Spells m word) : n = m := by
  have hsign {zeros n : Nat} {cs : List Char} (h : padded zeros n = '+' :: cs) : False := by
    have hd : '+'.isDigit = true := isDigit_of_mem_padded (h ▸ List.mem_cons_self)
    exact absurd hd (by decide)
  have hvalue {zeros zeros' : Nat} (h : padded zeros n = padded zeros' m) : n = m := by
    rw [← value_padded zeros n, h, value_padded]
  obtain ⟨zeros, rfl | rfl⟩ := h
  · obtain ⟨zeros', h' | h'⟩ := h'
    · exact hvalue h'
    · exact (hsign h').elim
  · obtain ⟨zeros', h' | h'⟩ := h'
    · exact (hsign h'.symm).elim
    · exact hvalue (List.cons.inj h').2

theorem spells_toString (n : Nat) : Spells n (toString n).toList := ⟨0, .inl rfl⟩

end Numeral
end Xref
