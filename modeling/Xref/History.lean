/-!
# Navigation history

A bounded stack of marks. A push onto a full stack is refused; no mark is evicted or reordered.
-/

namespace Xref

/-- A location in an editor: a buffer, known by its name, and an offset in it. -/
structure Mark where
  buffer : String
  offset : Nat
  deriving DecidableEq, Repr

inductive HistoryError where
  | full (capacity : Nat)
  | empty
  deriving DecidableEq, Repr

def HistoryError.message : HistoryError → String
  | .full capacity => "navigation history full (" ++ toString capacity ++ " marks)"
  | .empty => "navigation history empty"

/-- The marks stand with the latest first. Their number is kept, so that a push does not count. -/
structure History where
  capacity : Nat
  marks : List Mark := []
  depth : Nat := marks.length
  depth_eq : depth = marks.length := by rfl
  deriving DecidableEq, Repr

namespace History

def defaultCapacity : Nat := 1024

def push (h : History) (mark : Mark) : Except HistoryError History :=
  if h.depth < h.capacity then
    .ok ⟨h.capacity, mark :: h.marks, h.depth + 1, congrArg (· + 1) h.depth_eq⟩
  else .error (.full h.capacity)

def pop (h : History) : Except HistoryError (Mark × History) :=
  match h with
  | ⟨_, [], _, _⟩ => .error .empty
  | ⟨capacity, mark :: rest, depth, depth_eq⟩ =>
    .ok (mark, ⟨capacity, rest, depth - 1, by simp [depth_eq]⟩)

def peek? (h : History) : Option Mark := h.marks.head?

def toList (h : History) : List Mark := h.marks.reverse

theorem push_eq_error_iff {h : History} {mark : Mark} {e : HistoryError} :
    h.push mark = .error e ↔ h.capacity ≤ h.depth ∧ e = .full h.capacity := by
  unfold push
  split
  · simp
    omega
  · simp [eq_comm]
    omega

@[ext] theorem ext {h h' : History} (hc : h.capacity = h'.capacity) (hm : h.marks = h'.marks) :
    h = h' := by
  obtain ⟨capacity, marks, depth, hd⟩ := h
  obtain ⟨capacity', marks', depth', hd'⟩ := h'
  cases hc
  cases hm
  cases hd
  cases hd'
  rfl

theorem push_eq_ok_iff {h h' : History} {mark : Mark} :
    h.push mark = .ok h' ↔
      h.depth < h.capacity ∧ h'.capacity = h.capacity ∧ h'.marks = mark :: h.marks := by
  unfold push
  split
  · next hlt =>
    simp only [Except.ok.injEq, hlt, true_and]
    constructor
    · rintro rfl
      exact ⟨rfl, rfl⟩
    · rintro ⟨hc, hm⟩
      exact ext hc.symm hm.symm
  · next hlt => simp [hlt]

theorem pop_eq_ok_iff {h h' : History} {mark : Mark} :
    h.pop = .ok (mark, h') ↔ h.marks = mark :: h'.marks ∧ h'.capacity = h.capacity := by
  obtain ⟨capacity, marks, depth, hd⟩ := h
  cases marks with
  | nil => simp [pop]
  | cons top rest =>
    simp only [pop, Except.ok.injEq, Prod.mk.injEq, List.cons.injEq]
    constructor
    · rintro ⟨rfl, rfl⟩
      exact ⟨⟨rfl, rfl⟩, rfl⟩
    · rintro ⟨⟨rfl, hm⟩, hc⟩
      exact ⟨rfl, ext hc.symm hm⟩

theorem pop_push {h h' : History} {mark : Mark} (hp : h.push mark = .ok h') :
    h'.pop = .ok (mark, h) := by
  unfold push at hp
  split at hp
  · cases hp
    rfl
  · cases hp

end History
end Xref
