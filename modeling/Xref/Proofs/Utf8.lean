import Mathlib.Algebra.Group.Nat.Defs
import Xref.Text.Utf8

/-!
# Text written and read back

The bytes of a character lead a reader from between two scalar values to the place after that one,
whatever follows. Both readings therefore give an encoded text back. Lossy reading puts in no ASCII
character of its own.
-/

namespace Xref.Text.Utf8

-- ---------------------------------------------------------------------------
-- First bytes
-- ---------------------------------------------------------------------------

namespace State

variable {b : UInt8}

theorem enter_one (h : b.toNat < 0x80) : enter b = (.between, [.scalar (Char.ofNat b.toNat)]) := by
  rw [enter, if_pos (UInt8.lt_iff_toNat_lt.mpr h)]

theorem enter_two (hl : 0xC2 ≤ b.toNat) (hh : b.toNat < 0xE0) :
    enter b = (.inside (b.toNat - 0xC0) 1 0 0x80 0xBF, []) := by
  simp only [enter, UInt8.lt_iff_toNat_lt]
  rw [if_neg, if_neg, if_pos] <;> simp <;> omega

/-- The next byte rules out overlong forms and surrogates. -/
theorem enter_three (hl : 0xE0 ≤ b.toNat) (hh : b.toNat < 0xF0) :
    enter b =
      (.inside (b.toNat - 0xE0) 1 1 (if b = 0xE0 then 0xA0 else 0x80)
        (if b = 0xED then 0x9F else 0xBF), []) := by
  simp only [enter, UInt8.lt_iff_toNat_lt]
  rw [if_neg, if_neg, if_neg]
  · split
    · next h => simp [h]
    · split
      · next h => simp [h]
      · rw [if_pos]
        simpa using hh
  all_goals simp; omega

theorem enter_four (hl : 0xF0 ≤ b.toNat) (hh : b.toNat < 0xF5) :
    enter b =
      (.inside (b.toNat - 0xF0) 1 2 (if b = 0xF0 then 0x90 else 0x80)
        (if b = 0xF4 then 0x8F else 0xBF), []) := by
  have hinj (n : UInt8) : b = n ↔ b.toNat = n.toNat := UInt8.toNat_inj.symm
  simp only [enter, UInt8.lt_iff_toNat_lt]
  rw [if_neg, if_neg, if_neg, if_neg, if_neg, if_neg]
  · split
    · next h => simp [h]
    · split
      · next h =>
        have h4 : b ≠ 0xF4 := by
          rintro rfl
          simp at h
        simp [h4]
      · next hn h =>
        have h4 : b = 0xF4 := by
          rw [hinj]
          simp only [UInt8.reduceToNat] at h ⊢
          omega
        simp [h4]
  all_goals simp only [hinj, UInt8.reduceToNat]; omega

theorem enter_illFormed (hl : 0x80 ≤ b.toNat) (h : b.toNat < 0xC2 ∨ 0xF5 ≤ b.toNat) :
    enter b = (.between, [.illFormed 1]) := by
  have hinj (n : UInt8) : b = n ↔ b.toNat = n.toNat := UInt8.toNat_inj.symm
  simp only [enter, UInt8.lt_iff_toNat_lt, hinj, UInt8.reduceToNat]
  rw [if_neg (by omega)]
  rcases h with h | h
  · rw [if_pos h]
  · repeat rw [if_neg (by omega)]

-- ---------------------------------------------------------------------------
-- Further bytes
-- ---------------------------------------------------------------------------

variable {bits seen more : Nat} {low high : UInt8}

theorem step_last (hl : low ≤ b) (hh : b ≤ high) :
    step (.inside bits seen 0 low high) b =
      (.between, [.scalar (Char.ofNat (bits * 64 + (b.toNat - 0x80)))]) := by
  rw [step, if_pos ⟨hl, hh⟩]

theorem step_more (hl : low ≤ b) (hh : b ≤ high) :
    step (.inside bits seen (more + 1) low high) b =
      (.inside (bits * 64 + (b.toNat - 0x80)) (seen + 1) more 0x80 0xBF, []) := by
  rw [step, if_pos ⟨hl, hh⟩]

end State

-- ---------------------------------------------------------------------------
-- Characters
-- ---------------------------------------------------------------------------

theorem segmentsFrom_cons (state : State) (found : List Segment) (b : UInt8) (rest : Bytes) :
    segmentsFrom state found (b :: rest) =
      segmentsFrom (state.step b).1 ((state.step b).2.reverse ++ found) rest := rfl

theorem segmentsFrom_step (state : State) (b : UInt8) (rest : Bytes) :
    segmentsFrom state [] (b :: rest) =
      (state.step b).2 ++ segmentsFrom (state.step b).1 [] rest := by
  rw [segmentsFrom_cons, segmentsFrom_found, List.append_nil, List.reverse_reverse]

theorem toNat_byte {n : Nat} (h : n < 256) : (UInt8.ofNat n).toNat = n :=
  UInt8.toNat_ofNat_of_lt' h

/-- Six bits, as each byte but the first carries them. -/
def tail (n : Nat) : UInt8 := UInt8.ofNat (n % 64 + 128)

theorem tail_eq (n : Nat) : UInt8.ofNat (n % 64 + 128) = tail n := rfl

theorem toNat_tail (n : Nat) : (tail n).toNat = n % 64 + 128 := toNat_byte (by omega)

theorem le_tail (n : Nat) : 0x80 ≤ tail n := by
  simp [UInt8.le_iff_toNat_le, toNat_tail]

theorem tail_le (n : Nat) : tail n ≤ 0xBF := by
  simp only [UInt8.le_iff_toNat_le, toNat_tail, UInt8.reduceToNat]
  omega

theorem ite_le_tail {first special low : UInt8} {n : Nat}
    (h : first.toNat = special.toNat → low.toNat ≤ n % 64 + 128) :
    (if first = special then low else 0x80) ≤ tail n := by
  split
  · next he => exact UInt8.le_iff_toNat_le.mpr ((toNat_tail n).symm ▸ h (congrArg _ he))
  · exact le_tail n

theorem tail_le_ite {first special high : UInt8} {n : Nat}
    (h : first.toNat = special.toNat → n % 64 + 128 ≤ high.toNat) :
    tail n ≤ (if first = special then high else 0xBF) := by
  split
  · next he => exact UInt8.le_iff_toNat_le.mpr ((toNat_tail n).symm ▸ h (congrArg _ he))
  · exact tail_le n

theorem segmentsFrom_encodeChar (c : Char) (found : List Segment) (rest : Bytes) :
    segmentsFrom .between found (String.utf8EncodeChar c ++ rest) =
      segmentsFrom .between (.scalar c :: found) rest := by
  have hvalid : c.toNat < 0xD800 ∨ 0xDFFF < c.toNat ∧ c.toNat < 0x110000 := c.valid
  have hc : Char.ofNat c.toNat = c := Char.ofNat_toNat c
  unfold String.utf8EncodeChar
  simp only [Char.toNat_val]
  generalize c.toNat = v at hvalid hc
  simp only [tail_eq]
  -- One to four bytes. Only the second can have a range of its own, for which the first and the
  -- bounds of the value leave no more than it holds.
  split
  · have h := toNat_byte (n := v) (by omega)
    rw [List.singleton_append, segmentsFrom_cons, State.step, State.enter_one (by omega), h, hc]
    rfl
  split
  · have h := toNat_byte (n := v / 64 % 32 + 192) (by omega)
    have hv : (v / 64 % 32 + 192 - 0xC0) * 64 + (v % 64 + 128 - 0x80) = v := by omega
    simp only [List.cons_append, List.nil_append, segmentsFrom_cons]
    rw [State.step, State.enter_two (by omega) (by omega), State.step_last (le_tail v) (tail_le v),
      h, toNat_tail, hv, hc]
    rfl
  split
  · have h := toNat_byte (n := v / 4096 % 16 + 224) (by omega)
    have hv : ((v / 4096 % 16 + 224 - 0xE0) * 64 + (v / 64 % 64 + 128 - 0x80)) * 64 +
        (v % 64 + 128 - 0x80) = v := by omega
    simp only [List.cons_append, List.nil_append, segmentsFrom_cons]
    rw [State.step, State.enter_three (by omega) (by omega),
      State.step_more (ite_le_tail fun he => ?_) (tail_le_ite fun he => ?_),
      State.step_last (le_tail v) (tail_le v), h, toNat_tail, toNat_tail, hv, hc]
    · rfl
    all_goals
      simp only [h, UInt8.reduceToNat] at he ⊢
      omega
  · have h := toNat_byte (n := v / 262144 % 8 + 240) (by omega)
    have hv : (((v / 262144 % 8 + 240 - 0xF0) * 64 + (v / 4096 % 64 + 128 - 0x80)) * 64 +
        (v / 64 % 64 + 128 - 0x80)) * 64 + (v % 64 + 128 - 0x80) = v := by omega
    simp only [List.cons_append, List.nil_append, segmentsFrom_cons]
    rw [State.step, State.enter_four (by omega) (by omega),
      State.step_more (ite_le_tail fun he => ?_) (tail_le_ite fun he => ?_),
      State.step_more (le_tail _) (tail_le _), State.step_last (le_tail v) (tail_le v), h,
      toNat_tail, toNat_tail, toNat_tail, hv, hc]
    · rfl
    all_goals
      simp only [h, UInt8.reduceToNat] at he ⊢
      omega

-- ---------------------------------------------------------------------------
-- Texts
-- ---------------------------------------------------------------------------

theorem segments_encode (text : String) :
    segments (encode text) = text.toList.map .scalar := by
  have run (cs : List Char) (found : List Segment) :
      segmentsFrom .between found (cs.flatMap String.utf8EncodeChar) =
        found.reverse ++ cs.map .scalar := by
    induction cs generalizing found with
    | nil => simp [segmentsFrom, State.close]
    | cons c cs ih => rw [List.flatMap_cons, segmentsFrom_encodeChar, ih]; simp
  exact run text.toList []

theorem lossy_encode (text : String) : lossy (encode text) = text := by
  have hc : Segment.char ∘ Segment.scalar = id := rfl
  rw [lossy, segments_encode, List.map_map, hc, List.map_id, String.ofList_toList]

theorem firstFault_scalars (cs : List Char) (index : Nat) :
    firstFault index (cs.map .scalar) = none := by
  induction cs generalizing index with
  | nil => rfl
  | cons c cs ih => exact ih _

theorem decode_encode (text : String) : decode (encode text) = .ok text := by
  have hc : Segment.char ∘ Segment.scalar = id := rfl
  simp [decode, segments_encode, firstFault_scalars, hc]

theorem length_encode (text : String) : (encode text).length = text.utf8ByteSize := by
  have h : text.toByteArray = (encode text).toByteArray := by
    rw [← String.ofList_toList (s := text), String.toByteArray_ofList, String.ofList_toList]
    rfl
  rw [← String.size_toByteArray, h, List.size_toByteArray]

-- ---------------------------------------------------------------------------
-- Bytes below 0x80
-- ---------------------------------------------------------------------------

theorem encodeChar_of_lt {c : Char} (h : c.toNat < 0x80) :
    String.utf8EncodeChar c = [UInt8.ofNat c.toNat] := by
  unfold String.utf8EncodeChar
  simp only [Char.toNat_val]
  rw [if_pos (by omega)]

theorem le_of_mem_encodeChar {c : Char} {b : UInt8} (hc : 0x80 ≤ c.toNat)
    (h : b ∈ String.utf8EncodeChar c) : 0x80 ≤ b.toNat := by
  have hle (n : Nat) (hl : 128 ≤ n) (hh : n < 256) : 0x80 ≤ (UInt8.ofNat n).toNat := by
    rw [toNat_byte hh]
    exact hl
  unfold String.utf8EncodeChar at h
  simp only [Char.toNat_val] at h
  rw [if_neg (by omega)] at h
  split at h
  · simp only [List.mem_cons, List.not_mem_nil, or_false] at h
    rcases h with rfl | rfl <;> exact hle _ (by omega) (by omega)
  split at h
  · simp only [List.mem_cons, List.not_mem_nil, or_false] at h
    rcases h with rfl | rfl | rfl <;> exact hle _ (by omega) (by omega)
  · simp only [List.mem_cons, List.not_mem_nil, or_false] at h
    rcases h with rfl | rfl | rfl | rfl <;> exact hle _ (by omega) (by omega)

theorem mem_of_mem_encode {b : UInt8} {text : String} (hb : b.toNat < 0x80)
    (h : b ∈ encode text) : Char.ofNat b.toNat ∈ text.toList := by
  obtain ⟨c, hc, hm⟩ := List.mem_flatMap.mp h
  by_cases hlt : c.toNat < 0x80
  · rw [encodeChar_of_lt hlt, List.mem_singleton] at hm
    rwa [hm, toNat_byte (by omega), Char.ofNat_toNat]
  · have := le_of_mem_encodeChar (by omega) hm
    omega

-- ---------------------------------------------------------------------------
-- What lossy reading adds
-- ---------------------------------------------------------------------------

theorem toNat_ofNat (n : Nat) : (Char.ofNat n).toNat = if n.isValidChar then n else 0 := by
  by_cases h : n.isValidChar
  · rw [if_pos h, Char.ofNat, dif_pos h]
    rfl
  · rw [if_neg h, Char.ofNat, dif_neg h]
    rfl

namespace State

/-- Whatever bytes complete the scalar value, it is past those of one byte. -/
def Wide : State → Prop
  | .between => True
  | .inside bits _ more low _ =>
    0x80 ≤ low.toNat ∧ 0x80 ≤ (bits * 64 + (low.toNat - 0x80)) * 64 ^ more

theorem enter_cases (b : UInt8) :
    (b.toNat < 0x80 ∧ enter b = (.between, [.scalar (Char.ofNat b.toNat)])) ∨
      enter b = (.between, [.illFormed 1]) ∨ ((enter b).1.Wide ∧ (enter b).2 = []) := by
  have hne {n : UInt8} (h : b ≠ n) : b.toNat ≠ n.toNat := fun he => h (UInt8.toNat_inj.mp he)
  by_cases h1 : b.toNat < 0x80
  · exact .inl ⟨h1, enter_one h1⟩
  by_cases h2 : b.toNat < 0xC2
  · exact .inr (.inl (enter_illFormed (by omega) (.inl h2)))
  by_cases h3 : b.toNat < 0xE0
  · rw [enter_two (by omega) h3]
    refine .inr (.inr ⟨?_, rfl⟩)
    simp only [Wide, UInt8.reduceToNat]
    omega
  by_cases h4 : b.toNat < 0xF0
  · rw [enter_three (by omega) h4]
    refine .inr (.inr ⟨?_, rfl⟩)
    by_cases he : b = 0xE0
    · simp [Wide, he]
    · have := hne he
      simp only [Wide, he, if_false, UInt8.reduceToNat] at this ⊢
      omega
  by_cases h5 : b.toNat < 0xF5
  · rw [enter_four (by omega) h5]
    refine .inr (.inr ⟨?_, rfl⟩)
    by_cases he : b = 0xF0
    · simp [Wide, he]
    · have := hne he
      simp only [Wide, he, if_false, UInt8.reduceToNat] at this ⊢
      omega
  · exact .inr (.inl (enter_illFormed (by omega) (.inr (by omega))))

theorem wide_step {state : State} (h : state.Wide) (b : UInt8) : (state.step b).1.Wide := by
  have henter : (enter b).1.Wide := by
    obtain ⟨-, he⟩ | he | ⟨hw, -⟩ := enter_cases b
    · rw [he]
      trivial
    · rw [he]
      trivial
    · exact hw
  cases state with
  | between => exact henter
  | inside bits seen more low high =>
    by_cases hb : low ≤ b ∧ b ≤ high
    · cases more with
      | zero =>
        rw [step_last hb.1 hb.2]
        trivial
      | succ more =>
        rw [step_more hb.1 hb.2]
        refine ⟨by decide, Nat.le_trans h.2 ?_⟩
        have hl := UInt8.le_iff_toNat_le.mp hb.1
        rw [Nat.pow_succ', ← Nat.mul_assoc]
        refine Nat.mul_le_mul_right _ ?_
        simp only [UInt8.reduceToNat]
        omega
    · rw [step, if_neg hb]
      exact henter

end State

/-- A byte that is a character of its own. NUL is left out, since `Char.ofNat` also gives it for
what is no scalar value. -/
structure Plain (b : UInt8) : Prop where
  ascii : b.toNat < 0x80
  pos : b ≠ 0

section
variable {b : UInt8}

theorem Plain.ofNat_ne (h : Plain b) {n : Nat} (hn : 0x80 ≤ n) :
    Char.ofNat n ≠ Char.ofNat b.toNat := by
  intro he
  have hv : b.toNat.isValidChar := .inl (by have := h.ascii; omega)
  have hz : b.toNat ≠ 0 := fun hz => h.pos (UInt8.toNat_inj.mp hz)
  have he := congrArg Char.toNat he
  rw [toNat_ofNat, toNat_ofNat, if_pos hv] at he
  have := h.ascii
  split at he <;> omega

theorem Plain.eq_of_ofNat_eq (h : Plain b) {c : UInt8} (hc : c.toNat < 0x80)
    (he : Char.ofNat c.toNat = Char.ofNat b.toNat) : c = b := by
  have hv {n : Nat} (hn : n < 0x80) : n.isValidChar := .inl (by omega)
  have he := congrArg Char.toNat he
  rw [toNat_ofNat, toNat_ofNat, if_pos (hv h.ascii), if_pos (hv hc)] at he
  exact UInt8.toNat_inj.mp he

theorem Plain.replacement_ne (h : Plain b) : '\uFFFD' ≠ Char.ofNat b.toNat :=
  h.ofNat_ne (n := 0xFFFD) (by decide)

theorem Plain.eq_of_mem_enter (h : Plain b) {c : UInt8} {segment : Segment}
    (hm : segment ∈ (State.enter c).2) (hs : segment.char = Char.ofNat b.toNat) : c = b := by
  obtain ⟨hc, he⟩ | he | ⟨-, he⟩ := State.enter_cases c
  · rw [he, List.mem_singleton] at hm
    subst hm
    exact h.eq_of_ofNat_eq hc hs
  · rw [he, List.mem_singleton] at hm
    subst hm
    exact absurd hs h.replacement_ne
  · rw [he] at hm
    cases hm

theorem Plain.eq_of_mem_step (h : Plain b) {state : State} (hw : state.Wide) {c : UInt8}
    {segment : Segment} (hm : segment ∈ (state.step c).2)
    (hs : segment.char = Char.ofNat b.toNat) : c = b := by
  cases state with
  | between => exact h.eq_of_mem_enter hm hs
  | inside bits seen more low high =>
    by_cases hb : low ≤ c ∧ c ≤ high
    · cases more with
      | zero =>
        rw [State.step_last hb.1 hb.2, List.mem_singleton] at hm
        subst hm
        have hl := UInt8.le_iff_toNat_le.mp hb.1
        have hn := hw.2
        rw [Nat.pow_zero, Nat.mul_one] at hn
        refine absurd hs (h.ofNat_ne ?_)
        omega
      | succ more =>
        rw [State.step_more hb.1 hb.2] at hm
        cases hm
    · rw [State.step, if_neg hb] at hm
      obtain rfl | hm := List.mem_cons.mp hm
      · exact absurd hs h.replacement_ne
      · exact h.eq_of_mem_enter hm hs

theorem Plain.mem_of_mem_lossy (h : Plain b) {bytes : Bytes}
    (hm : Char.ofNat b.toNat ∈ (lossy bytes).toList) : b ∈ bytes := by
  have run (bytes : Bytes) (state : State) (hw : state.Wide) (segment : Segment)
      (hm : segment ∈ segmentsFrom state [] bytes) (hs : segment.char = Char.ofNat b.toNat) :
      b ∈ bytes := by
    induction bytes generalizing state with
    | nil =>
      cases state with
      | between => cases hm
      | inside bits seen more low high =>
        obtain rfl := List.mem_singleton.mp hm
        exact absurd hs h.replacement_ne
    | cons c rest ih =>
      rw [segmentsFrom_step, List.mem_append] at hm
      obtain hm | hm := hm
      · rw [h.eq_of_mem_step hw hm hs]
        exact List.mem_cons_self
      · exact List.mem_cons_of_mem _ (ih _ (State.wide_step hw c) hm)
  rw [lossy, String.toList_ofList] at hm
  obtain ⟨segment, hm, hs⟩ := List.mem_map.mp hm
  exact run bytes .between trivial segment hm hs

end

end Xref.Text.Utf8
