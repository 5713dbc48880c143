import Mathlib.Data.List.Induction
import Mathlib.Order.Nat
import Xref.History

/-!
# Pushes and pops as brackets

A push that is accepted opens a bracket, and the first pop after it that brings the depth back to
what it was closes it. The depth is counted from the answers, and the brackets are read off the
answers alone. Those that are open say what a history lists and what it answers next.
-/

namespace Xref.History

inductive Use where
  | push (mark : Mark)
  | pop
  deriving DecidableEq, Repr

inductive Act where
  | pushed (mark : Mark)
  | refused (mark : Mark) (error : HistoryError)
  | popped (mark : Mark)
  | missed (error : HistoryError)
  deriving DecidableEq, Repr

/-- A use that fails leaves the history as it was. -/
def act (h : History) : Use → Act × History
  | .push mark =>
    match h.push mark with
    | .ok later => (.pushed mark, later)
    | .error e => (.refused mark e, h)
  | .pop =>
    match h.pop with
    | .ok (mark, later) => (.popped mark, later)
    | .error e => (.missed e, h)

def after (h : History) (uses : List Use) : History := uses.foldl (fun h use => (h.act use).2) h

def acts (h : History) : List Use → List Act
  | [] => []
  | use :: rest => (h.act use).1 :: (h.act use).2.acts rest

section
variable (h : History) (first second : List Use) (use : Use)

theorem after_append : h.after (first ++ second) = (h.after first).after second :=
  List.foldl_append

theorem acts_append : h.acts (first ++ second) = h.acts first ++ (h.after first).acts second := by
  induction first generalizing h with
  | nil => rfl
  | cons use rest ih => simp [acts, after, ih]

theorem after_concat : h.after (first ++ [use]) = ((h.after first).act use).2 := by
  simp [after]

theorem acts_concat : h.acts (first ++ [use]) = h.acts first ++ [((h.after first).act use).1] := by
  simp [acts_append, acts]

theorem length_acts : (h.acts first).length = first.length := by
  induction first generalizing h with
  | nil => rfl
  | cons use rest ih => simp [acts, ih]

end

-- ---------------------------------------------------------------------------
-- Brackets
-- ---------------------------------------------------------------------------

def Act.change : Act → Int
  | .pushed _ => 1
  | .popped _ => -1
  | .refused .. | .missed _ => 0

def Act.saved? : Act → Option Mark
  | .pushed mark => some mark
  | .refused .. | .popped _ | .missed _ => none

def Act.isPopped : Act → Bool
  | .popped _ => true
  | .pushed _ | .refused .. | .missed _ => false

/-- The pushes that were accepted, less the pops that gave a mark. -/
def level (acts : List Act) : Int := acts.foldl (fun depth a => depth + a.change) 0

/-- The mark whose push was accepted at a position. -/
def savedAt? (acts : List Act) (i : Nat) : Option Mark := acts[i]?.bind Act.saved?

/-- A later pop that gives a mark, with the depth then back at what it was before a push. -/
structure Returns (acts : List Act) (i j : Nat) : Prop where
  later : i < j
  popped : acts[j]?.any Act.isPopped = true
  back : level (acts.take (j + 1)) = level (acts.take i)

structure Closes (acts : List Act) (i j : Nat) : Prop extends Returns acts i j where
  first : ∀ k, Returns acts i k → j ≤ k

/-- An accepted push that no pop matches. -/
def Unmatched (acts : List Act) (i : Nat) : Prop :=
  (savedAt? acts i).isSome = true ∧ ∀ j, ¬Closes acts i j

section
variable {acts : List Act} {a : Act} {i j : Nat}

instance : Decidable (Returns acts i j) :=
  decidable_of_iff (i < j ∧ acts[j]?.any Act.isPopped = true ∧
      level (acts.take (j + 1)) = level (acts.take i))
    ⟨fun ⟨hl, hp, hb⟩ => ⟨hl, hp, hb⟩, fun ⟨hl, hp, hb⟩ => ⟨hl, hp, hb⟩⟩

theorem Returns.lt_length (h : Returns acts i j) : j < acts.length := by
  by_contra hn
  have hp := h.popped
  rw [List.getElem?_eq_none (Nat.not_lt.mp hn)] at hp
  cases hp

theorem unmatched_iff :
    Unmatched acts i ↔ (savedAt? acts i).isSome = true ∧ ∀ j < acts.length, ¬Returns acts i j := by
  refine and_congr_right fun _ => ⟨?_, ?_⟩
  · intro h j _ hj
    have hex : ∃ k, Returns acts i k := ⟨j, hj⟩
    exact h (Nat.find hex) ⟨Nat.find_spec hex, fun k hk => Nat.find_min' hex hk⟩
  · intro h j hj
    exact h j hj.toReturns.lt_length hj.toReturns

instance : Decidable (Unmatched acts i) := decidable_of_iff _ unmatched_iff.symm

end

def openPositions (acts : List Act) : List Nat :=
  (List.range acts.length).filter fun i => Unmatched acts i

def openMarks (acts : List Act) : List Mark := (openPositions acts).filterMap (savedAt? acts)

-- ---------------------------------------------------------------------------
-- One more answer
-- ---------------------------------------------------------------------------

section
variable {acts : List Act} {a : Act} {i j : Nat}

theorem level_concat (acts : List Act) (a : Act) : level (acts ++ [a]) = level acts + a.change := by
  simp [level]

theorem savedAt?_concat (hi : i < acts.length) : savedAt? (acts ++ [a]) i = savedAt? acts i := by
  simp [savedAt?, List.getElem?_append_left hi]

/-- Whether an answer is a pop that brings the depth back to what it was before a position. -/
def Brings (acts : List Act) (a : Act) (i : Nat) : Prop :=
  a.isPopped = true ∧ level (acts ++ [a]) = level (acts.take i)

instance : Decidable (Brings acts a i) := inferInstanceAs (Decidable (_ ∧ _))

theorem returns_concat_of_lt (hi : i ≤ acts.length) (hj : j < acts.length) :
    Returns (acts ++ [a]) i j ↔ Returns acts i j := by
  have ht : (acts ++ [a]).take i = acts.take i := List.take_append_of_le_length hi
  have hs : (acts ++ [a]).take (j + 1) = acts.take (j + 1) := List.take_append_of_le_length hj
  have hg : (acts ++ [a])[j]? = acts[j]? := List.getElem?_append_left hj
  constructor
  · rintro ⟨hl, hp, hb⟩
    exact ⟨hl, hg ▸ hp, by rw [← hs, ← ht, hb]⟩
  · rintro ⟨hl, hp, hb⟩
    exact ⟨hl, hg ▸ hp, by rw [hs, ht, hb]⟩

theorem returns_concat_length (hi : i < acts.length) :
    Returns (acts ++ [a]) i acts.length ↔ Brings acts a i := by
  have ht : (acts ++ [a]).take i = acts.take i := List.take_append_of_le_length (Nat.le_of_lt hi)
  have hs : (acts ++ [a]).take (acts.length + 1) = acts ++ [a] :=
    List.take_of_length_le (by simp)
  constructor
  · rintro ⟨-, hp, hb⟩
    rw [hs, ht] at hb
    exact ⟨by simpa using hp, hb⟩
  · rintro ⟨hp, hb⟩
    exact ⟨hi, by simpa using hp, by rw [hs, ht, hb]⟩

theorem unmatched_concat (hi : i < acts.length) :
    Unmatched (acts ++ [a]) i ↔ Unmatched acts i ∧ ¬Brings acts a i := by
  rw [unmatched_iff, unmatched_iff, savedAt?_concat hi, and_assoc]
  refine and_congr_right fun _ => ?_
  rw [List.length_append, List.length_singleton]
  simp only [Nat.forall_lt_succ_right, returns_concat_length hi]
  refine and_congr_left fun _ => forall₂_congr fun j hj => ?_
  rw [returns_concat_of_lt (Nat.le_of_lt hi) hj]

theorem unmatched_concat_length : Unmatched (acts ++ [a]) acts.length ↔ a.saved?.isSome = true := by
  have hs : savedAt? (acts ++ [a]) acts.length = a.saved? := by simp [savedAt?]
  rw [Unmatched, hs, and_iff_left_iff_imp]
  intro _ j hj
  have hl := hj.toReturns.later
  have hlt := hj.toReturns.lt_length
  simp only [List.length_append, List.length_singleton] at hlt
  omega

theorem openPositions_concat (acts : List Act) (a : Act) :
    openPositions (acts ++ [a]) =
      (openPositions acts).filter (fun i => ¬Brings acts a i) ++
        if a.saved?.isSome = true then [acts.length] else [] := by
  have hold : ∀ i ∈ List.range acts.length,
      decide (Unmatched (acts ++ [a]) i) =
        (decide (¬Brings acts a i) && decide (Unmatched acts i)) := by
    intro i hi
    simp [unmatched_concat (List.mem_range.mp hi), and_comm]
  simp only [openPositions, List.length_append, List.length_singleton, List.range_succ,
    List.filter_append, List.filter_filter, List.filter_congr hold]
  congr 1
  simp [List.filter_cons, unmatched_concat_length]

end

-- ---------------------------------------------------------------------------
-- One more use
-- ---------------------------------------------------------------------------

/-- What a history has to do with the answers before: its marks are those of the unmatched pushes,
and before each of these the depth was the number of those before it. -/
structure Bracketed (h : History) (acts : List Act) : Prop where
  marks : (openPositions acts).map (savedAt? acts) = h.toList.map some
  levels : (openPositions acts).map (fun i => level (acts.take i)) =
    (List.range h.depth).map Nat.cast
  depth : level acts = h.depth
  room : h.depth ≤ h.capacity

section
variable {h later : History} {acts : List Act} {a : Act} {mark : Mark} {i : Nat}

theorem lt_length_of_mem (hi : i ∈ openPositions acts) : i < acts.length :=
  List.mem_range.mp (List.mem_filter.mp hi).1

theorem map_savedAt?_concat (positions : List Nat) (h : ∀ i ∈ positions, i < acts.length) :
    positions.map (savedAt? (acts ++ [a])) = positions.map (savedAt? acts) :=
  List.map_congr_left fun i hi => savedAt?_concat (h i hi)

theorem map_level_concat (positions : List Nat) (h : ∀ i ∈ positions, i < acts.length) :
    positions.map (fun i => level ((acts ++ [a]).take i)) =
      positions.map fun i => level (acts.take i) :=
  List.map_congr_left fun i hi => by
    rw [List.take_append_of_le_length (Nat.le_of_lt (h i hi))]

theorem bracketed_nil (capacity : Nat) : Bracketed { capacity } [] :=
  ⟨rfl, rfl, rfl, Nat.zero_le capacity⟩

theorem Bracketed.idle (hb : Bracketed h acts) (hs : a.saved? = none) (hp : a.isPopped = false)
    (hc : a.change = 0) : Bracketed h (acts ++ [a]) := by
  have ho : openPositions (acts ++ [a]) = openPositions acts := by
    simp [openPositions_concat, Brings, hs, hp]
  constructor
  · rw [ho, map_savedAt?_concat _ fun _ => lt_length_of_mem, hb.marks]
  · rw [ho, map_level_concat _ fun _ => lt_length_of_mem, hb.levels]
  · rw [level_concat, hc, Int.add_zero, hb.depth]
  · exact hb.room

theorem Bracketed.pushed (hb : Bracketed h acts) (hp : h.push mark = .ok later) :
    Bracketed later (acts ++ [.pushed mark]) := by
  obtain ⟨hlt, hc, hm⟩ := push_eq_ok_iff.mp hp
  have hd : later.depth = h.depth + 1 := by rw [later.depth_eq, hm, h.depth_eq, List.length_cons]
  have ho : openPositions (acts ++ [.pushed mark]) = openPositions acts ++ [acts.length] := by
    simp [openPositions_concat, Brings, Act.saved?, Act.isPopped]
  constructor
  · rw [ho, List.map_append, map_savedAt?_concat _ fun _ => lt_length_of_mem, hb.marks]
    simp [toList, hm, savedAt?, Act.saved?]
  · rw [ho, List.map_append, map_level_concat _ fun _ => lt_length_of_mem, hb.levels]
    simp [hd, List.range_succ, hb.depth]
  · rw [level_concat, hb.depth, hd]
    simp [Act.change]
  · rw [hd, hc]
    exact hlt

/-- Among unmatched pushes that start at the levels from zero on, a pop finds the last. -/
theorem filter_levels {positions : List Nat} {f : Nat → Int} {n : Nat}
    (h : positions.map f = (List.range (n + 1)).map Nat.cast) :
    positions.filter (fun i => ¬(n : Int) = f i) = positions.dropLast := by
  induction positions using List.reverseRecOn with
  | nil => rfl
  | append_singleton front last =>
    rw [List.range_succ, List.map_append, List.map_append] at h
    obtain ⟨hfront, hlast⟩ := List.append_inj' h rfl
    have hkeep : ∀ i ∈ front, ¬(n : Int) = f i := by
      intro i hi
      obtain ⟨k, hk, he⟩ := List.mem_map.mp (hfront ▸ List.mem_map_of_mem hi)
      have hlt := List.mem_range.mp hk
      omega
    have hdrop : (n : Int) = f last := by simpa using hlast.symm
    rw [List.filter_append, List.filter_eq_self.mpr (by simpa using hkeep), List.dropLast_concat]
    simp [hdrop]

theorem Bracketed.popped (hb : Bracketed h acts) (hp : h.pop = .ok (mark, later)) :
    Bracketed later (acts ++ [.popped mark]) := by
  obtain ⟨hm, hc⟩ := pop_eq_ok_iff.mp hp
  have hd : h.depth = later.depth + 1 := by rw [later.depth_eq, h.depth_eq, hm, List.length_cons]
  have hlevel : level (acts ++ [.popped mark]) = later.depth := by
    rw [level_concat, hb.depth, hd]
    simp only [Act.change]
    omega
  have ho : openPositions (acts ++ [.popped mark]) = (openPositions acts).dropLast := by
    rw [← filter_levels (hd ▸ hb.levels), openPositions_concat]
    simp [Brings, hlevel, Act.saved?, Act.isPopped]
  have hlt : ∀ i ∈ (openPositions acts).dropLast, i < acts.length := fun i hi =>
    lt_length_of_mem (List.dropLast_subset _ hi)
  constructor
  · rw [ho, map_savedAt?_concat _ hlt, List.map_dropLast, hb.marks]
    simp [toList, hm]
  · rw [ho, map_level_concat _ hlt, List.map_dropLast, hb.levels, hd]
    simp [List.range_succ]
  · exact hlevel
  · have := hb.room
    omega

theorem Bracketed.act (hb : Bracketed h acts) (use : Use) :
    Bracketed (h.act use).2 (acts ++ [(h.act use).1]) := by
  cases use with
  | push mark =>
    simp only [History.act]
    cases hp : h.push mark with
    | ok later => exact hb.pushed hp
    | error e => exact hb.idle rfl rfl rfl
  | pop =>
    simp only [History.act]
    cases hp : h.pop with
    | ok popped => exact hb.popped hp
    | error e => exact hb.idle rfl rfl rfl

end

-- ---------------------------------------------------------------------------
-- All uses
-- ---------------------------------------------------------------------------

theorem bracketed (capacity : Nat) (uses : List Use) :
    Bracketed (({ capacity } : History).after uses) (({ capacity } : History).acts uses) := by
  induction uses using List.reverseRecOn with
  | nil => exact bracketed_nil capacity
  | append_singleton uses use ih =>
    rw [after_concat, acts_concat]
    exact ih.act use

theorem capacity_act (h : History) (use : Use) : (h.act use).2.capacity = h.capacity := by
  cases use with
  | push mark =>
    simp only [act]
    cases hp : h.push mark with
    | ok later => exact (push_eq_ok_iff.mp hp).2.1
    | error e => rfl
  | pop =>
    simp only [act]
    cases hp : h.pop with
    | ok popped => exact (pop_eq_ok_iff.mp hp).2
    | error e => rfl

theorem capacity_after (h : History) (uses : List Use) : (h.after uses).capacity = h.capacity := by
  induction uses generalizing h with
  | nil => rfl
  | cons use rest ih => exact (ih _).trans (capacity_act h use)

theorem Bracketed.toList_eq {h : History} {acts : List Act} (hb : Bracketed h acts) :
    h.toList = openMarks acts := by
  have hm := congrArg (List.filterMap id) hb.marks
  simpa [List.filterMap_map, openMarks, Function.comp_def] using hm.symm

def answer (capacity : Nat) (marks : List Mark) : Use → Act
  | .push mark =>
    if marks.length < capacity then .pushed mark else .refused mark (.full capacity)
  | .pop =>
    match marks.getLast? with
    | some mark => .popped mark
    | none => .missed .empty

theorem act_eq_answer (h : History) (use : Use) :
    (h.act use).1 = answer h.capacity h.toList use := by
  cases use with
  | push mark =>
    have hl : h.toList.length = h.depth := by simp [toList, h.depth_eq]
    by_cases hlt : h.depth < h.capacity
    · simp [act, answer, push, hl, hlt]
    · simp [act, answer, push, hl, hlt]
  | pop =>
    obtain ⟨capacity, marks, depth, hd⟩ := h
    cases marks with
    | nil => rfl
    | cons top rest => simp [act, answer, pop, toList]

theorem exists_push_iff {h : History} {mark : Mark} :
    (∃ later, h.push mark = .ok later) ↔ h.depth < h.capacity := by
  unfold push
  split
  · next hlt => simp [hlt]
  · next hlt => simp [hlt]

theorem exists_pop_iff {h : History} {mark : Mark} :
    (∃ later, h.pop = .ok (mark, later)) ↔ h.toList.getLast? = some mark := by
  obtain ⟨capacity, marks, depth, hd⟩ := h
  cases marks with
  | nil => simp [pop, toList]
  | cons top rest => simp [pop, toList]

theorem pop_eq_error_iff {h : History} {e : HistoryError} :
    h.pop = .error e ↔ h.toList = [] ∧ e = .empty := by
  obtain ⟨capacity, marks, depth, hd⟩ := h
  cases marks with
  | nil => simp [pop, toList, eq_comm]
  | cons top rest => simp [pop, toList]

theorem act_of_full {h : History} (hf : h.capacity ≤ h.depth) (mark : Mark) :
    h.act (.push mark) = (.refused mark (.full h.capacity), h) := by
  simp [act, push_eq_error_iff.mpr ⟨hf, rfl⟩]

/-- Whatever was done to a history, its marks are those of the accepted pushes that no pop matches,
in the order of the pushes: so many as the depth says, and no more than the capacity. They decide
the next answer. A push is accepted as long as there are fewer than the capacity, and one that is
refused might as well not have been made: it has a refusal for itself, and all the rest is as
without it. A pop gives the last of them, and fails if there is none. -/
theorem answers_by_brackets (capacity : Nat) (uses : List Use) :
    let start : History := { capacity }
    let h := start.after uses
    let marks := openMarks (start.acts uses)
    h.toList = marks ∧ h.depth = marks.length ∧ level (start.acts uses) = h.depth ∧
      marks.length ≤ capacity ∧ h.peek? = marks.getLast? ∧
      (∀ use, start.acts (uses ++ [use]) = start.acts uses ++ [answer capacity marks use]) ∧
      (∀ mark, (∃ later, h.push mark = .ok later) ↔ marks.length < capacity) ∧
      (∀ mark, capacity ≤ marks.length → ∀ rest,
        (start.acts (uses ++ .push mark :: rest))[uses.length]? =
            some (.refused mark (.full capacity)) ∧
          (start.acts (uses ++ .push mark :: rest)).eraseIdx uses.length =
            start.acts (uses ++ rest) ∧
          start.after (uses ++ .push mark :: rest) = start.after (uses ++ rest)) ∧
      (∀ mark, (∃ later, h.pop = .ok (mark, later)) ↔ marks.getLast? = some mark) ∧
      ((∃ e, h.pop = .error e) ↔ marks = []) := by
  intro start h marks
  have hb : Bracketed h (start.acts uses) := bracketed capacity uses
  have hcapacity : h.capacity = capacity := capacity_after start uses
  have hlist : h.toList = marks := hb.toList_eq
  have hdepth : h.depth = marks.length := by
    rw [← hlist, toList, List.length_reverse, h.depth_eq]
  have hpeek : h.peek? = marks.getLast? := by
    rw [← hlist, toList, List.getLast?_reverse, peek?]
  refine ⟨hlist, hdepth, hb.depth, ?_, hpeek, ?_, ?_, ?_, ?_, ?_⟩
  · rw [← hdepth, ← hcapacity]
    exact hb.room
  · intro use
    rw [acts_concat, act_eq_answer, hlist, hcapacity]
  · intro mark
    rw [exists_push_iff, hdepth, hcapacity]
  · intro mark hf rest
    have hact : h.act (.push mark) = (.refused mark (.full capacity), h) :=
      hcapacity ▸ act_of_full (hcapacity ▸ hdepth ▸ hf) mark
    have hlength : (start.acts uses).length = uses.length := length_acts start uses
    have hacts : start.acts (uses ++ .push mark :: rest) =
        start.acts uses ++ .refused mark (.full capacity) :: h.acts rest := by
      rw [acts_append, acts]
      change _ ++ (h.act (.push mark)).1 :: (h.act (.push mark)).2.acts rest = _
      rw [hact]
    refine ⟨?_, ?_, ?_⟩
    · simp [hacts, ← hlength]
    · rw [hacts, acts_append, ← hlength, List.eraseIdx_append_of_length_le (Nat.le_refl _)]
      simp only [Nat.sub_self, List.eraseIdx_cons_zero]
      rfl
    · rw [after_append, after_append]
      change (h.act (.push mark)).2.after rest = h.after rest
      rw [hact]
  · intro mark
    rw [exists_pop_iff, hlist]
  · simp [pop_eq_error_iff, hlist]

/-- In a history for two marks, with one returned to before, a third push is refused. Both pops
after it give what they would have given. -/
theorem answers_by_brackets_full :
    let start : History := { capacity := 2 }
    let uses : List Use := [.push ⟨"a.c", 1⟩, .push ⟨"b.c", 2⟩, .pop, .push ⟨"c.c", 3⟩]
    openMarks (start.acts uses) = [⟨"a.c", 1⟩, ⟨"c.c", 3⟩] ∧
      (start.acts (uses ++ [.push ⟨"d.c", 4⟩, .pop, .pop])).eraseIdx 4 =
        start.acts (uses ++ [.pop, .pop]) := by
  intro start uses
  have hmarks : openMarks (start.acts uses) = [⟨"a.c", 1⟩, ⟨"c.c", 3⟩] := by decide
  have hfull : 2 ≤ (openMarks (start.acts uses)).length := by rw [hmarks]; decide
  obtain ⟨-, -, -, -, -, -, -, hrefused, -⟩ := answers_by_brackets 2 uses
  exact ⟨hmarks, (hrefused ⟨"d.c", 4⟩ hfull [.pop, .pop]).2.1⟩

end Xref.History
