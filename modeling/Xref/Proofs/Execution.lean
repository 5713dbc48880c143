import Mathlib.Logic.Function.Iterate
import Xref.Proofs.Stream
import Xref.Query.Tool

/-!
# How a query ends

What the query program wrote decides, and how it ended only where it wrote nothing. Its two streams
are drained together. In whatever order their reads come, each gives what it gives alone.
-/

namespace Xref.Query

-- ---------------------------------------------------------------------------
-- Diagnostics
-- ---------------------------------------------------------------------------

def Piece.speaks : Piece → Bool
  | .data bytes => bytes ≠ []
  | .failure _ => false

/-- The bytes before the end of a stream or its first failure, an interruption included. -/
def remarks (pieces : List Piece) : Bytes := (pieces.takeWhile Piece.speaks).flatMap Piece.bytes

theorem salvage_eq_remarks (pieces : List Piece) : salvage pieces = remarks pieces := by
  induction pieces with
  | nil => rfl
  | cons piece rest ih =>
    cases piece with
    | failure e => rfl
    | data bytes =>
      by_cases hb : bytes = []
      · simp [salvage, remarks, Piece.speaks, hb]
      · simpa [salvage, remarks, Piece.speaks, Piece.bytes, hb] using ih

def listen : Bytes × List Piece → Bytes ⊕ (Bytes × List Piece)
  | (gathered, .data bytes :: rest) =>
    if bytes = [] then .inl gathered else .inr (gathered ++ bytes, rest)
  | (gathered, _) => .inl gathered

-- ---------------------------------------------------------------------------
-- Turns
-- ---------------------------------------------------------------------------

section
variable {σ ρ : Type} (step : σ → ρ ⊕ σ)

def once : ρ ⊕ σ → ρ ⊕ σ := Sum.elim .inl step

theorem once_inr (s : σ) : once step (.inr s) = step s := rfl

theorem once_ended (result : ρ) (n : Nat) : (once step)^[n] (.inl result) = .inl result :=
  Function.iterate_fixed rfl n

/-- What every step keeps, and what it makes of an end. -/
theorem result_of_iterate (P : σ → Prop) (Q : ρ → Prop)
    (hend : ∀ s result, P s → step s = .inl result → Q result)
    (hon : ∀ s next, P s → step s = .inr next → P next) {s : σ} (hs : P s) {n : Nat} {result : ρ}
    (h : (once step)^[n] (.inr s) = .inl result) : Q result := by
  induction n generalizing s with
  | zero => cases h
  | succ n ih =>
    rw [Function.iterate_succ_apply, once_inr] at h
    cases hstep : step s with
    | inl ended =>
      rw [hstep, once_ended] at h
      cases h
      exact hend s _ hs hstep
    | inr next =>
      rw [hstep] at h
      exact ih (hon s next hs hstep) h

theorem isLeft_iterate (amount : σ → Nat)
    (hon : ∀ s next, step s = .inr next → amount next < amount s) {s : σ} {n : Nat}
    (h : amount s < n) : ((once step)^[n] (.inr s)).isLeft = true := by
  induction n generalizing s with
  | zero => exact absurd h (Nat.not_lt_zero _)
  | succ n ih =>
    rw [Function.iterate_succ_apply, once_inr]
    cases hstep : step s with
    | inl ended =>
      rw [once_ended]
      rfl
    | inr next => exact ih (Nat.lt_of_lt_of_le (hon s next hstep) (Nat.le_of_lt_succ h))

end

inductive Turn where
  | output
  | diagnostics
  deriving DecidableEq, Repr

abbrev Draining := (Except SystemError Bytes ⊕ Reader) × (Bytes ⊕ (Bytes × List Piece))

def Draining.advance (chunk : Nat) (d : Draining) : Turn → Draining
  | .output => (once (Reader.read chunk) d.1, d.2)
  | .diagnostics => (d.1, once listen d.2)

def Child.start (child : Child) (chunk : Nat) : Draining :=
  (.inr (.start chunk child.output), .inr ([], child.diagnostics))

/-- Of the turns only their numbers count. -/
theorem foldl_advance (chunk : Nat) (d : Draining) (turns : List Turn) :
    turns.foldl (Draining.advance chunk) d =
      ((once (Reader.read chunk))^[turns.count .output] d.1,
        (once listen)^[turns.count .diagnostics] d.2) := by
  induction turns generalizing d with
  | nil => rfl
  | cons turn rest ih => cases turn <;> simp [ih, Draining.advance, Function.iterate_succ_apply]

section
variable {child : Child} {turns : List Turn} {chunk : Nat}

theorem listen_ended {s : Bytes × List Piece} {gathered : Bytes} (h : listen s = .inl gathered) :
    gathered = s.1 ++ remarks s.2 := by
  obtain ⟨before, coming⟩ := s
  unfold listen at h
  split at h
  · next earlier bytes rest hs =>
    cases hs
    split at h
    · next hb =>
      cases h
      simp [remarks, Piece.speaks, hb]
    · cases h
  · next earlier coming hn hs =>
    cases hs
    cases h
    cases coming with
    | nil => simp [remarks]
    | cons piece rest =>
      cases piece with
      | failure e => simp [remarks, Piece.speaks]
      | data bytes => exact (hn bytes rest rfl).elim

theorem listen_on {s next : Bytes × List Piece} (h : listen s = .inr next) :
    next.1 ++ remarks next.2 = s.1 ++ remarks s.2 ∧ weight next.2 < weight s.2 := by
  obtain ⟨before, coming⟩ := s
  unfold listen at h
  split at h
  · next earlier bytes rest hs =>
    cases hs
    split at h
    · cases h
    · next hb =>
      cases h
      simp [remarks, Piece.speaks, Piece.bytes, hb, weight, Piece.weight]
  · cases h

theorem output_of_turns (hc : 0 < chunk) {result : Except SystemError Bytes}
    (h : (turns.foldl (Draining.advance chunk) (child.start chunk)).1 = .inl result) :
    result = content child.output := by
  rw [foldl_advance] at h
  let P (r : Reader) : Prop := r.buffer.Sound ∧ r.holds = content child.output
  have hstart : P (.start chunk child.output) := ⟨⟨rfl, Nat.zero_le _⟩, holds_start chunk _⟩
  refine result_of_iterate _ P (· = content child.output) ?_ ?_ hstart h
  · rintro r ended ⟨hs, hh⟩ he
    exact (Reader.read_ended hc hs he).trans hh
  · rintro r next ⟨hs, hh⟩ hn
    obtain ⟨hsound, hholds, -⟩ := Reader.read_on hs hn
    exact ⟨hsound, hholds.trans hh⟩

theorem diagnostics_of_turns {gathered : Bytes}
    (h : (turns.foldl (Draining.advance chunk) (child.start chunk)).2 = .inl gathered) :
    gathered = remarks child.diagnostics := by
  rw [foldl_advance] at h
  let P (s : Bytes × List Piece) : Prop := s.1 ++ remarks s.2 = remarks child.diagnostics
  refine result_of_iterate _ P (· = remarks child.diagnostics) ?_ ?_ rfl h
  · intro s ended hs he
    exact (listen_ended he).trans hs
  · intro s next hs hn
    exact (listen_on hn).1.trans hs

theorem isLeft_output (h : weight child.output < turns.count .output) :
    (turns.foldl (Draining.advance chunk) (child.start chunk)).1.isLeft = true := by
  rw [foldl_advance]
  exact isLeft_iterate _ (fun r : Reader => weight r.coming) (fun _ _ => Reader.weight_read) h

theorem isLeft_diagnostics (h : weight child.diagnostics < turns.count .diagnostics) :
    (turns.foldl (Draining.advance chunk) (child.start chunk)).2.isLeft = true := by
  rw [foldl_advance]
  exact isLeft_iterate _ (fun s : Bytes × List Piece => weight s.2)
    (fun _ _ hn => (listen_on hn).2) h

end

-- ---------------------------------------------------------------------------
-- Outcomes
-- ---------------------------------------------------------------------------

def Child.silence (child : Child) (program : String) : Error :=
  match child.wait with
  | .ok status =>
    if status.success then .noOutput
    else .failed program status (Text.trim (Text.Utf8.lossy (remarks child.diagnostics)))
  | .error _ => .noOutput

section
variable {child : Child} {program : String}

theorem Child.silence_eq_failed_iff {named : String} {status : ExitStatus} {diagnostics : String} :
    child.silence program = .failed named status diagnostics ↔
      child.wait = .ok status ∧ status.success = false ∧ named = program ∧
        diagnostics = Text.trim (Text.Utf8.lossy (remarks child.diagnostics)) := by
  unfold silence
  cases child.wait with
  | error e => simp
  | ok ended =>
    by_cases hs : ended.success = true
    · simp only [hs, if_true, reduceCtorEq, Except.ok.injEq, false_iff]
      rintro ⟨rfl, hf, -⟩
      exact absurd (hs.symm.trans hf) (by simp)
    · simp only [hs, Bool.false_eq_true, if_false, Error.failed.injEq, Except.ok.injEq]
      constructor
      · rintro ⟨rfl, rfl, rfl⟩
        exact ⟨rfl, Bool.eq_false_iff.mpr hs, rfl, rfl⟩
      · rintro ⟨rfl, -, rfl, rfl⟩
        exact ⟨rfl, rfl, rfl⟩

theorem Child.silence_eq_noOutput_iff :
    child.silence program = .noOutput ↔
      ¬∃ status, child.wait = .ok status ∧ status.success = false := by
  unfold silence
  cases child.wait with
  | error e => simp
  | ok ended => cases hs : ended.success <;> simp [hs]

theorem Child.outcome_eq (child : Child) (program : String) (chunk : Nat) :
    child.outcome program chunk =
      match content child.output with
      | .error e => .error (.readFailed e)
      | .ok bytes => if bytes = [] then .error (child.silence program) else .ok bytes := by
  unfold Child.outcome silence
  rw [result_drain, salvage_eq_remarks]
  cases content child.output with
  | error e => rfl
  | ok bytes =>
    cases bytes with
    | cons b rest => rfl
    | nil =>
      cases child.wait with
      | error e => rfl
      | ok status => cases hs : status.success <;> simp [hs]

end

/-- A program that was started gives its output, complete and unaltered, if there is any and it can
be read. Without output it failed if it was seen to end badly, and then it is told what it remarked;
otherwise it gave none. Where the output cannot be read nothing else counts. Both streams are
drained in turns, and however these fall they end with what the outcome is made of. -/
theorem Tool.execute_outcome {tool : Tool} {w : World} {request : Request} {launch : Launch}
    (hl : tool.launch w request = .ok launch) :
    let child := w.program
    let size := max 1 tool.chunkSize
    (∀ bytes, content child.output = .ok bytes → bytes ≠ [] →
        tool.execute w request = .ok bytes) ∧
      (content child.output = .ok [] →
        (∀ program status diagnostics,
          tool.execute w request = .error (.failed program status diagnostics) ↔
            child.wait = .ok status ∧ status.success = false ∧ program = tool.program ∧
              diagnostics = Text.trim (Text.Utf8.lossy (remarks child.diagnostics))) ∧
        (tool.execute w request = .error .noOutput ↔
          ¬∃ status, child.wait = .ok status ∧ status.success = false)) ∧
      (∀ e, content child.output = .error e →
        tool.execute w request = .error (.readFailed e)) ∧
      tool.execute w request ≠ .ok [] ∧
      ∀ turns : List Turn,
        let drained := turns.foldl (Draining.advance size) (child.start size)
        (∀ result, drained.1 = .inl result → result = content child.output) ∧
          (∀ gathered, drained.2 = .inl gathered → gathered = remarks child.diagnostics) ∧
          (weight child.output < turns.count .output → drained.1.isLeft = true) ∧
          (weight child.diagnostics < turns.count .diagnostics → drained.2.isLeft = true) := by
  intro child size
  have hexecute : tool.execute w request = child.outcome tool.program tool.chunkSize := by
    rw [Tool.execute, hl]
  rw [hexecute, Child.outcome_eq]
  refine ⟨?_, ?_, ?_, ?_, ?_⟩
  · intro bytes hb hne
    rw [hb]
    exact if_neg hne
  · intro hb
    rw [hb]
    simp only [if_true, Except.error.injEq]
    exact ⟨fun _ _ _ => Child.silence_eq_failed_iff, Child.silence_eq_noOutput_iff⟩
  · intro e he
    rw [he]
  · cases content child.output with
    | error e => simp
    | ok bytes => by_cases hb : bytes = [] <;> simp [hb]
  · intro turns drained
    exact ⟨fun _ h => output_of_turns (Nat.le_max_left 1 _) h, fun _ h => diagnostics_of_turns h,
      isLeft_output, isLeft_diagnostics⟩

end Xref.Query

namespace Xref.Sample

def workshop (child : Query.Child) : World where
  files :=
    (FileSystem.empty.put ["p"] (some .directory)).put ["cscope", "p"] (some (.file [] true))
  workingDirectory := ⟨["p"], 0⟩
  home := "/home"
  searchPath := ["/p"]
  program := child

def request : Query.Request := ⟨.callers, "run", "/p"⟩

def killed (output : List Query.Piece) : Query.Child where
  output
  diagnostics := [.data (Text.Utf8.encode " bad \n"), .failure .interrupted]
  wait := .ok (.signaled 9)

end Xref.Sample

namespace Xref.Query

theorem Tool.execute_outcome_killed :
    ({} : Tool).execute (Sample.workshop (Sample.killed [.failure .interrupted, .data [1, 2]]))
        Sample.request = .ok [1, 2] ∧
      ({} : Tool).execute (Sample.workshop (Sample.killed [])) Sample.request =
        .error (.failed "cscope" (.signaled 9) "bad") := by
  have hl (child : Child) : ({} : Tool).launch (Sample.workshop child) Sample.request =
      .ok ⟨["-p8", "-d", "-f", "/p/cscope.out", "-L3", "run"], "/p"⟩ := by
    rfl
  obtain ⟨hwrote, -⟩ :=
    Tool.execute_outcome (hl (Sample.killed [.failure .interrupted, .data [1, 2]]))
  obtain ⟨-, hsilent, -⟩ := Tool.execute_outcome (hl (Sample.killed []))
  refine ⟨hwrote [1, 2] rfl (by simp), ?_⟩
  exact ((hsilent rfl).1 _ _ _).mpr ⟨rfl, rfl, rfl, by decide +kernel⟩

end Xref.Query
