import Mathlib.Algebra.GroupWithZero.Nat
import Xref.Proofs.Utf8

/-!
# The size of a text that was read

Each byte is in one segment, and a scalar value takes up as many bytes as its character. So a text
differs in size from its bytes only where U+FFFD stands for a part of fewer bytes. A valid text that
is cut anywhere has at most one such part, at the cut.
-/

namespace Xref.Text.Utf8

-- ---------------------------------------------------------------------------
-- Segments
-- ---------------------------------------------------------------------------

namespace Segment

def length : Segment → Nat
  | .scalar c => c.utf8Size
  | .illFormed length | .unfinished length => length

/-- By how much U+FFFD is longer than the part that it stands for. -/
def growth : Segment → Nat
  | .scalar _ => 0
  | .illFormed length | .unfinished length => 3 - length

/-- A part that is no scalar value is not empty, and no longer than U+FFFD. -/
def Sized : Segment → Prop
  | .scalar _ => True
  | .illFormed length | .unfinished length => 1 ≤ length ∧ length ≤ 3

theorem Sized.utf8Size_char {segment : Segment} (h : segment.Sized) :
    segment.char.utf8Size = segment.length + segment.growth := by
  have hr : '\uFFFD'.utf8Size = 3 := by decide
  cases segment with
  | scalar c => rfl
  | illFormed length =>
    obtain ⟨-, hle⟩ := h
    simp only [char, Segment.length, growth, hr]
    omega
  | unfinished length =>
    obtain ⟨-, hle⟩ := h
    simp only [char, Segment.length, growth, hr]
    omega

theorem Sized.growth_le {segment : Segment} (h : segment.Sized) :
    segment.growth ≤ 2 * segment.length := by
  cases segment with
  | scalar c => exact Nat.zero_le _
  | illFormed length =>
    obtain ⟨hle, -⟩ := h
    simp only [Segment.length, growth]
    omega
  | unfinished length =>
    obtain ⟨hle, -⟩ := h
    simp only [Segment.length, growth]
    omega

end Segment

theorem utf8Size_ofNat {n : Nat} (h : n.isValidChar) :
    (Char.ofNat n).utf8Size =
      if n < 0x80 then 1 else if n < 0x800 then 2 else if n < 0x10000 then 3 else 4 := by
  have hn : (Char.ofNat n).val.toNat = n := by
    have := toNat_ofNat n
    rwa [if_pos h] at this
  simp only [Char.utf8Size, UInt32.le_iff_toNat_le, hn]
  simp only [UInt32.toNat_ofNatLT]
  repeat' split
  all_goals omega

-- ---------------------------------------------------------------------------
-- The account of the bytes
-- ---------------------------------------------------------------------------

namespace State

def pending : State → Nat
  | .between => 0
  | .inside _ seen .. => seen

@[simp] theorem pending_between : State.between.pending = 0 := rfl

@[simp] theorem pending_inside (bits seen more : Nat) (low high : UInt8) :
    (State.inside bits seen more low high).pending = seen := rfl

/-- Whatever bytes complete the scalar value, it takes up just the bytes that were read for it. -/
def Exact : State → Prop
  | .between => True
  | .inside bits seen more low high =>
    0x80 ≤ low.toNat ∧ 1 ≤ seen ∧ seen + more ≤ 3 ∧
      ∀ n, (bits * 64 + (low.toNat - 0x80)) * 64 ^ more ≤ n →
        n < (bits * 64 + (high.toNat - 0x80) + 1) * 64 ^ more →
        n.isValidChar ∧ (Char.ofNat n).utf8Size = seen + more + 1

theorem exact_between : State.between.Exact := trivial

theorem exact_inside {bits seen more : Nat} {low high : UInt8} (hl : 0x80 ≤ low.toNat)
    (hs : 1 ≤ seen) (hm : seen + more ≤ 3)
    (h : ∀ n, (bits * 64 + (low.toNat - 0x80)) * 64 ^ more ≤ n →
      n < (bits * 64 + (high.toNat - 0x80) + 1) * 64 ^ more →
      n.isValidChar ∧
        (if n < 0x80 then 1 else if n < 0x800 then 2 else if n < 0x10000 then 3 else 4) =
          seen + more + 1) :
    (State.inside bits seen more low high).Exact := by
  refine ⟨hl, hs, hm, fun n hn hlt => ?_⟩
  obtain ⟨hv, hsize⟩ := h n hn hlt
  exact ⟨hv, (utf8Size_ofNat hv).trans hsize⟩

theorem toNat_ite (b special low other : UInt8) :
    b.toNat = special.toNat ∧ (if b = special then low else other).toNat = low.toNat ∨
      b.toNat ≠ special.toNat ∧ (if b = special then low else other).toNat = other.toNat := by
  by_cases h : b = special
  · exact .inl ⟨congrArg _ h, by rw [if_pos h]⟩
  · exact .inr ⟨fun he => h (UInt8.toNat_inj.mp he), by rw [if_neg h]⟩

theorem enter_exact (b : UInt8) :
    (b.toNat < 0x80 ∧ enter b = (.between, [.scalar (Char.ofNat b.toNat)])) ∨
      enter b = (.between, [.illFormed 1]) ∨
        ((enter b).2 = [] ∧ (enter b).1.pending = 1 ∧ (enter b).1.Exact) := by
  by_cases h1 : b.toNat < 0x80
  · exact .inl ⟨h1, enter_one h1⟩
  by_cases h2 : b.toNat < 0xC2
  · exact .inr (.inl (enter_illFormed (by omega) (.inl h2)))
  by_cases h3 : b.toNat < 0xE0
  · rw [enter_two (by omega) h3]
    refine .inr (.inr ⟨rfl, rfl, exact_inside (by decide) (by decide) (by decide) ?_⟩)
    intro n hl hh
    simp only [UInt8.reduceToNat, Nat.isValidChar] at hl hh ⊢
    refine ⟨by omega, ?_⟩
    rw [if_neg (by omega), if_pos (by omega)]
  by_cases h4 : b.toNat < 0xF0
  · rw [enter_three (by omega) h4]
    have hlow := toNat_ite b 0xE0 0xA0 0x80
    have hhigh := toNat_ite b 0xED 0x9F 0xBF
    simp only [UInt8.reduceToNat] at hlow hhigh
    refine .inr (.inr ⟨rfl, rfl, exact_inside (by omega) (by decide) (by decide) ?_⟩)
    intro n hl hh
    simp only [Nat.isValidChar]
    refine ⟨by omega, ?_⟩
    rw [if_neg (by omega), if_neg (by omega), if_pos (by omega)]
  by_cases h5 : b.toNat < 0xF5
  · rw [enter_four (by omega) h5]
    have hlow := toNat_ite b 0xF0 0x90 0x80
    have hhigh := toNat_ite b 0xF4 0x8F 0xBF
    simp only [UInt8.reduceToNat] at hlow hhigh
    refine .inr (.inr ⟨rfl, rfl, exact_inside (by omega) (by decide) (by decide) ?_⟩)
    intro n hl hh
    simp only [Nat.isValidChar]
    refine ⟨by omega, ?_⟩
    rw [if_neg (by omega), if_neg (by omega), if_neg (by omega)]
  · exact .inr (.inl (enter_illFormed (by omega) (.inr (by omega))))

/-- What a byte does to the account of the bytes: the state is exact again, and the byte is either
in a segment or pending. -/
structure Accounts (state : State) (b : UInt8) : Prop where
  exact : (state.step b).1.Exact
  sized : ∀ segment ∈ (state.step b).2, segment.Sized
  total : ((state.step b).2.map Segment.length).sum + (state.step b).1.pending = state.pending + 1

theorem accounts_between (b : UInt8) : State.between.Accounts b := by
  have hstep : State.between.step b = enter b := rfl
  obtain ⟨hb, he⟩ | he | ⟨hs, hp, he⟩ := enter_exact b
  · have hsize : (Char.ofNat b.toNat).utf8Size = 1 := by
      rw [utf8Size_ofNat (.inl (by omega)), if_pos hb]
    exact ⟨by rw [hstep, he]; trivial, by simp [hstep, he, Segment.Sized],
      by simp [hstep, he, Segment.length, hsize]⟩
  · exact ⟨by rw [hstep, he]; trivial, by simp [hstep, he, Segment.Sized],
      by simp [hstep, he, Segment.length]⟩
  · exact ⟨hstep ▸ he, by simp [hstep, hs], by simp [hstep, hs, hp]⟩

theorem Exact.more {bits seen more : Nat} {low high b : UInt8}
    (h : (State.inside bits seen (more + 1) low high).Exact) (hl : low ≤ b) (hh : b ≤ high) :
    (State.inside (bits * 64 + (b.toNat - 0x80)) (seen + 1) more 0x80 0xBF).Exact := by
  obtain ⟨hlow, hseen, hmore, hrange⟩ := h
  have hl := UInt8.le_iff_toNat_le.mp hl
  have hh := UInt8.le_iff_toNat_le.mp hh
  refine ⟨by decide, by omega, by omega, fun n hn hlt => ?_⟩
  simp only [UInt8.reduceToNat] at hn hlt
  have hfrom : (bits * 64 + (low.toNat - 0x80)) * 64 ^ (more + 1) ≤ n := by
    refine Nat.le_trans ?_ hn
    rw [Nat.pow_succ', ← Nat.mul_assoc]
    exact Nat.mul_le_mul_right _ (by omega)
  have hto : n < (bits * 64 + (high.toNat - 0x80) + 1) * 64 ^ (more + 1) := by
    refine Nat.lt_of_lt_of_le hlt ?_
    rw [Nat.pow_succ', ← Nat.mul_assoc]
    exact Nat.mul_le_mul_right _ (by omega)
  obtain ⟨hv, hsize⟩ := hrange n hfrom hto
  exact ⟨hv, by omega⟩

theorem Exact.accounts {state : State} (h : state.Exact) (b : UInt8) : state.Accounts b := by
  cases state with
  | between => exact accounts_between b
  | inside bits seen more low high =>
    obtain ⟨hlow, hseen, hmore, hrange⟩ := h
    by_cases hb : low ≤ b ∧ b ≤ high
    · cases more with
      | zero =>
        have hl := UInt8.le_iff_toNat_le.mp hb.1
        have hh := UInt8.le_iff_toNat_le.mp hb.2
        obtain ⟨-, hsize⟩ := hrange (bits * 64 + (b.toNat - 0x80)) (by omega) (by omega)
        refine ⟨?_, ?_, ?_⟩
        · rw [step_last hb.1 hb.2]
          trivial
        · simp [step_last hb.1 hb.2, Segment.Sized]
        · simpa [step_last hb.1 hb.2, Segment.length] using hsize
      | succ more =>
        have hstep : (State.inside bits seen (more + 1) low high).step b =
            (.inside (bits * 64 + (b.toNat - 0x80)) (seen + 1) more 0x80 0xBF, []) :=
          step_more hb.1 hb.2
        refine ⟨?_, by simp [hstep], by simp [hstep]⟩
        rw [hstep]
        exact Exact.more ⟨hlow, hseen, hmore, hrange⟩ hb.1 hb.2
    · -- The part before the byte is over, and the byte is read as a first one.
      obtain ⟨he, hs, ht⟩ := accounts_between b
      have hstep : (State.inside bits seen more low high).step b =
          ((enter b).1, .illFormed seen :: (enter b).2) := by
        rw [step, if_neg hb]
      refine ⟨by rw [hstep]; exact he, ?_, ?_⟩
      · rw [hstep]
        exact List.forall_mem_cons.mpr ⟨⟨hseen, by omega⟩, hs⟩
      · have ht : ((enter b).2.map Segment.length).sum + (enter b).1.pending = 0 + 1 := ht
        simp only [hstep, List.map_cons, List.sum_cons, Segment.length, pending_inside]
        omega

end State

-- ---------------------------------------------------------------------------
-- Texts
-- ---------------------------------------------------------------------------

theorem sized_segmentsFrom {state : State} (h : state.Exact) (bytes : Bytes) :
    (∀ segment ∈ segmentsFrom state [] bytes, segment.Sized) ∧
      ((segmentsFrom state [] bytes).map Segment.length).sum = state.pending + bytes.length := by
  induction bytes generalizing state with
  | nil =>
    cases state with
    | between => simp [segmentsFrom, State.close]
    | inside bits seen more low high =>
      obtain ⟨-, hseen, hmore, -⟩ := h
      simp [segmentsFrom, State.close, Segment.Sized, Segment.length]
      omega
  | cons b rest ih =>
    obtain ⟨he, hs, ht⟩ := h.accounts b
    obtain ⟨hsized, htotal⟩ := ih he
    rw [segmentsFrom_step]
    refine ⟨List.forall_mem_append.mpr ⟨hs, hsized⟩, ?_⟩
    rw [List.map_append, List.sum_append, htotal, List.length_cons]
    omega

theorem sized_of_mem_segments {bytes : Bytes} {segment : Segment} (h : segment ∈ segments bytes) :
    segment.Sized :=
  (sized_segmentsFrom State.exact_between bytes).1 segment h

theorem sum_length_segments (bytes : Bytes) :
    ((segments bytes).map Segment.length).sum = bytes.length := by
  have h := (sized_segmentsFrom State.exact_between bytes).2
  rwa [State.pending_between, Nat.zero_add] at h

/-- By how much a text is longer than the bytes that it was read from. -/
def growth (bytes : Bytes) : Nat := ((segments bytes).map Segment.growth).sum

/-- Lossy reading makes a text longer just by what U+FFFD is longer than the parts it stands for. -/
theorem utf8ByteSize_lossy (bytes : Bytes) :
    (lossy bytes).utf8ByteSize = bytes.length + growth bytes := by
  have hsum : ∀ found : List Segment, (∀ segment ∈ found, segment.Sized) →
      (found.map fun segment => segment.char.utf8Size).sum =
        (found.map Segment.length).sum + (found.map Segment.growth).sum := by
    intro found hf
    induction found with
    | nil => rfl
    | cons segment rest ih =>
      obtain ⟨hs, hr⟩ := List.forall_mem_cons.mp hf
      simp only [List.map_cons, List.sum_cons, ih hr, hs.utf8Size_char]
      omega
  have hsize : (lossy bytes).utf8ByteSize =
      ((segments bytes).map fun segment => segment.char.utf8Size).sum := by
    rw [← length_encode, encode, lossy, String.toList_ofList, List.length_flatMap, List.map_map]
    simp [Function.comp_def, String.length_utf8EncodeChar]
  rw [hsize, hsum _ fun _ => sized_of_mem_segments, sum_length_segments, growth]

theorem growth_le (bytes : Bytes) : growth bytes ≤ 2 * bytes.length := by
  have hsum : ∀ found : List Segment, (∀ segment ∈ found, segment.Sized) →
      (found.map Segment.growth).sum ≤ 2 * (found.map Segment.length).sum := by
    intro found hf
    induction found with
    | nil => exact Nat.le_refl _
    | cons segment rest ih =>
      obtain ⟨hs, hr⟩ := List.forall_mem_cons.mp hf
      have := hs.growth_le
      have := ih hr
      simp only [List.map_cons, List.sum_cons]
      omega
  rw [growth, ← sum_length_segments bytes]
  exact hsum _ fun _ => sized_of_mem_segments

theorem growth_replicate (n : Nat) : growth (List.replicate n 0xFF) = 2 * n := by
  induction n with
  | zero => rfl
  | succ n ih =>
    have hs : segments (List.replicate (n + 1) 0xFF) =
        .illFormed 1 :: segments (List.replicate n 0xFF) := by
      rw [segments, List.replicate_succ, segmentsFrom_step]
      rfl
    rw [growth, hs, List.map_cons, List.sum_cons, ← growth, ih, Segment.growth]
    omega

-- ---------------------------------------------------------------------------
-- Parts of a valid text
-- ---------------------------------------------------------------------------

def Scalars (found : List Segment) : Prop := ∀ segment ∈ found, ∃ c, segment = .scalar c

def Valid (bytes : Bytes) : Prop := Scalars (segments bytes)

theorem Scalars.sum_growth {found : List Segment} (h : Scalars found) :
    (found.map Segment.growth).sum = 0 := by
  induction found with
  | nil => rfl
  | cons segment rest ih =>
    obtain ⟨⟨c, rfl⟩, hr⟩ := List.forall_mem_cons.mp h
    simpa [Segment.growth] using ih hr

theorem scalars_of_firstFault {found : List Segment} {index : Nat}
    (h : firstFault index found = none) : Scalars found := by
  induction found generalizing index with
  | nil => exact List.forall_mem_nil _
  | cons segment rest ih =>
    cases segment with
    | scalar c => exact List.forall_mem_cons.mpr ⟨⟨c, rfl⟩, ih h⟩
    | illFormed length => cases h
    | unfinished length => cases h

theorem exists_decode {bytes : Bytes} (h : firstFault 0 (segments bytes) = none) :
    ∃ text, decode bytes = .ok text := by
  rw [decode, h]
  exact ⟨_, rfl⟩

theorem valid_of_decode {bytes : Bytes} {text : String} (h : decode bytes = .ok text) :
    Valid bytes := by
  simp only [decode] at h
  split at h
  · cases h
  · next hf => exact scalars_of_firstFault hf

theorem Valid.growth_eq {bytes : Bytes} (h : Valid bytes) : growth bytes = 0 :=
  Scalars.sum_growth h

def State.after (state : State) (bytes : Bytes) : State :=
  bytes.foldl (fun state b => (state.step b).1) state

theorem State.Exact.after {state : State} (h : state.Exact) (bytes : Bytes) :
    (state.after bytes).Exact := by
  induction bytes generalizing state with
  | nil => exact h
  | cons b rest ih => exact ih (h.accounts b).exact

/-- What follows has no part in the segments before it, but for the one that is not over. -/
theorem segmentsFrom_append (state : State) (front rest : Bytes) :
    ∃ found, segmentsFrom state [] front = found ++ (state.after front).close ∧
      segmentsFrom state [] (front ++ rest) =
        found ++ segmentsFrom (state.after front) [] rest := by
  induction front generalizing state with
  | nil =>
    refine ⟨[], ?_, rfl⟩
    cases state <;> rfl
  | cons b front ih =>
    obtain ⟨found, hf, hr⟩ := ih (state.step b).1
    refine ⟨(state.step b).2 ++ found, ?_, ?_⟩
    · rw [segmentsFrom_step, hf, List.append_assoc]
      rfl
    · rw [List.cons_append, segmentsFrom_step, hr, List.append_assoc]
      rfl

/-- A valid text that is cut has no more than a start of one character in the place of that one. -/
theorem Valid.growth_front {front rest : Bytes} (h : Valid (front ++ rest)) : growth front ≤ 2 := by
  obtain ⟨found, hf, hr⟩ := segmentsFrom_append .between front rest
  have hfound : Scalars found := fun segment hs =>
    h segment (by rw [segments, hr]; exact List.mem_append_left _ hs)
  have hexact : (State.between.after front).Exact := State.exact_between.after front
  rw [growth, segments, hf, List.map_append, List.sum_append, hfound.sum_growth]
  revert hexact
  cases State.between.after front with
  | between => simp [State.close]
  | inside bits seen more low high =>
    rintro ⟨-, hseen, -, -⟩
    simp only [State.close, List.map_cons, List.map_nil, List.sum_cons, List.sum_nil,
      Segment.growth]
    omega

/-- No byte below 0x80 is inside a character, so that a valid text can be taken apart at it. -/
theorem Valid.split {front rest : Bytes} {b : UInt8} (hb : b.toNat < 0x80)
    (h : Valid (front ++ b :: rest)) : Valid front ∧ Valid rest := by
  obtain ⟨found, hf, hr⟩ := segmentsFrom_append .between front (b :: rest)
  have hall : Scalars (found ++ segmentsFrom (State.between.after front) [] (b :: rest)) := by
    rw [← hr]
    exact h
  obtain ⟨hfound, hrest⟩ := List.forall_mem_append.mp hall
  have hexact : (State.between.after front).Exact := State.exact_between.after front
  rw [segmentsFrom_step] at hrest
  obtain ⟨hnew, hrest⟩ := List.forall_mem_append.mp hrest
  cases hs : State.between.after front with
  | between =>
    rw [hs] at hf hrest
    have hstep : State.between.step b = (.between, [.scalar (Char.ofNat b.toNat)]) :=
      State.enter_one hb
    rw [hstep] at hrest
    refine ⟨?_, hrest⟩
    unfold Valid
    rw [segments, hf]
    simpa [State.close, Scalars] using hfound
  | inside bits seen more low high =>
    rw [hs] at hexact hnew
    obtain ⟨hlow, -⟩ := hexact
    have hout : ¬(low ≤ b ∧ b ≤ high) := by
      rw [UInt8.le_iff_toNat_le]
      omega
    rw [State.step, if_neg hout] at hnew
    obtain ⟨c, hc⟩ := hnew (.illFormed seen) List.mem_cons_self
    cases hc

end Xref.Text.Utf8
