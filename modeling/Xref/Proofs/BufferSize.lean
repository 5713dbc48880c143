import Xref.Proofs.Session
import Xref.Proofs.SingleQuery
import Xref.Proofs.Stream

/-!
# The size of the buffer

The buffer has a whole number of chunks, at each read the least that leaves room, so its length
follows from what was read. The sums of the reader stay in their words as long as the last of these
lengths can be had. A chunk that cannot be had ends the program at the first request of all, and
the settings admit such chunks.
-/

namespace Xref.Query

/-- A whole number of chunks, of which none is empty but the last may be. -/
structure Buffer.Chunked (chunk : Nat) (b : Buffer) : Prop where
  whole : chunk ∣ b.length
  filled_le : b.filled ≤ b.length
  length_le : b.length ≤ b.filled + chunk

section
variable {chunk : Nat} {b : Buffer}

theorem Buffer.filled_grow (chunk : Nat) (b : Buffer) : (b.grow chunk).filled = b.filled := by
  unfold grow
  split <;> rfl

theorem Buffer.Chunked.grow (h : b.Chunked chunk) : (b.grow chunk).Chunked chunk := by
  unfold Buffer.grow
  split
  · next he =>
    constructor
    · exact Nat.dvd_add h.whole (Nat.dvd_refl chunk)
    · simp [he]
    · simp [he]
  · exact h

theorem Buffer.Chunked.filled_lt (hc : 0 < chunk) (h : b.Chunked chunk) :
    (b.grow chunk).filled < (b.grow chunk).length := by
  unfold Buffer.grow
  split
  · next he => simpa [he] using hc
  · next hne => exact Nat.lt_of_le_of_ne h.filled_le hne

theorem Buffer.Chunked.length_grow (hc : 0 < chunk) (h : b.Chunked chunk) :
    (b.grow chunk).length = chunk * ((b.grow chunk).filled / chunk + 1) := by
  have hlt := h.filled_lt hc
  obtain ⟨⟨chunks, hw⟩, -, hle⟩ := h.grow
  have hpos : chunks ≠ 0 := by
    rintro rfl
    simp [hw] at hlt
  obtain ⟨before, rfl⟩ := Nat.exists_eq_succ_of_ne_zero hpos
  have hd : (b.grow chunk).filled / chunk = before := by
    apply Nat.div_eq_of_lt_le
    · rw [hw, Nat.mul_succ] at hle
      rw [Nat.mul_comm]
      exact Nat.le_of_add_le_add_right hle
    · rw [Nat.mul_comm]
      exact hw ▸ hlt
  rw [hd, hw]

theorem Buffer.Chunked.add {more : Bytes} (h : b.Chunked chunk) (hm : more.length ≤ b.room chunk) :
    (b.add more).Chunked chunk := by
  have hl := b.limit_le chunk
  obtain ⟨hw, hf, hle⟩ := h
  simp only [Buffer.room] at hm
  refine ⟨hw, ?_, ?_⟩
  · simp only [Buffer.add]
    omega
  · simp only [Buffer.add]
    omega

end

-- ---------------------------------------------------------------------------
-- Along the reads
-- ---------------------------------------------------------------------------

section
variable {bytes : Bytes} {rest : List Piece}

theorem received_take (h : bytes ≠ []) (n : Nat) :
    (bytes.take n).length +
        received (if bytes.drop n = [] then rest else .data (bytes.drop n) :: rest) =
      received (.data bytes :: rest) := by
  have hl : (bytes.take n).length + (bytes.drop n).length = bytes.length := by
    rw [← List.length_append, List.take_append_drop]
  split
  · next hd =>
    rw [hd, List.length_nil] at hl
    simp only [received, h, if_false]
    omega
  · next hd =>
    simp only [received, h, hd, if_false]
    omega

end

namespace Reader

def total (r : Reader) : Nat := r.buffer.filled + received r.coming

section
variable {chunk : Nat} {r next : Reader}

theorem total_of_ended {result : Except SystemError Bytes} (hc : 0 < chunk)
    (hb : r.buffer.Chunked chunk) (h : r.read chunk = .inl result) :
    r.total = r.buffer.filled := by
  have hroom : (r.offered chunk).room chunk ≠ 0 :=
    Nat.sub_ne_zero_of_lt (Nat.lt_min.mpr ⟨Nat.lt_add_of_pos_right hc, hb.filled_lt hc⟩)
  unfold read at h
  split at h
  · next hp => simp [total, hp, received]
  · next e rest hp =>
    split at h
    · cases h
    · next he => simp [total, hp, received, he]
  · next bytes rest hp =>
    dsimp only at h
    split at h
    · next hn => simp [total, hp, received, hn.resolve_right hroom]
    · cases h

theorem read_chunked (hb : r.buffer.Chunked chunk) (h : r.read chunk = .inr next) :
    next.buffer.Chunked chunk ∧ next.total = r.total := by
  have hf : (r.offered chunk).filled = r.buffer.filled := Buffer.filled_grow chunk r.buffer
  have hgrown : (r.offered chunk).Chunked chunk := hb.grow
  unfold read at h
  split at h
  · cases h
  · next e rest hp =>
    split at h
    · next he =>
      cases h
      exact ⟨hgrown, by simp [total, hp, received, he, hf]⟩
    · cases h
  · next bytes rest hp =>
    dsimp only at h
    split at h
    · cases h
    · next hn =>
      rw [not_or] at hn
      cases h
      refine ⟨hgrown.add (List.length_take_le _ _), ?_⟩
      rw [total, total, hp, ← received_take hn.1 ((r.offered chunk).room chunk), ← hf]
      exact Nat.add_assoc _ _ _

/-- What holds of the buffer at every read of a reader that comes to its end. -/
structure Fills (chunk : Nat) (r : Reader) : Prop where
  chunked : ∀ pass ∈ r.passes chunk, pass.buffer.Chunked chunk
  total : ∀ pass ∈ r.passes chunk, pass.total = r.total
  last : ∃ pass ∈ r.passes chunk, pass.buffer.filled = r.total

theorem fills (hc : 0 < chunk) (hb : r.buffer.Chunked chunk) : r.Fills chunk := by
  -- Along the reads themselves: the total is carried from one to the next.
  induction r using passes.induct chunk with
  | case1 r result h =>
    have hp := passes_ended h
    constructor
    · simpa [hp] using hb
    · simp [hp]
    · simpa [hp] using (total_of_ended hc hb h).symm
  | case2 r next h ih =>
    obtain ⟨hchunked, htotal⟩ := read_chunked hb h
    obtain ⟨hcs, hts, pass, hm, hl⟩ := ih hchunked
    have hp := passes_on h
    constructor
    · rw [hp]
      exact List.forall_mem_cons.mpr ⟨hb, hcs⟩
    · rw [hp]
      exact List.forall_mem_cons.mpr ⟨rfl, fun pass hm => (hts pass hm).trans htotal⟩
    · rw [hp]
      exact ⟨pass, List.mem_cons_of_mem _ hm, hl.trans htotal⟩

end
end Reader

section
variable (chunk : Nat) (pieces : List Piece)

theorem fills_start : (Reader.start (max 1 chunk) pieces).Fills (max 1 chunk) :=
  Reader.fills (Nat.le_max_left 1 chunk) ⟨Nat.dvd_refl _, Nat.zero_le _, Nat.le_add_left _ _⟩

theorem total_start (size : Nat) : (Reader.start size pieces).total = received pieces :=
  Nat.zero_add _

-- ---------------------------------------------------------------------------
-- What fits into a word
-- ---------------------------------------------------------------------------

/-- The buffers of all reads can be had, and the ends of the parts they may fill are words. -/
def InRange : Prop :=
  let size := max 1 chunk
  ∀ r ∈ (Reader.start size pieces).passes size,
    (r.offered size).length ≤ maxBufferLength ∧ (r.offered size).filled + size < UInt64.size

variable {chunk pieces} {r : Reader}

theorem length_offered (hr : r ∈ (Reader.start (max 1 chunk) pieces).passes (max 1 chunk)) :
    (r.offered (max 1 chunk)).length = max 1 chunk * (r.buffer.filled / max 1 chunk + 1) := by
  have hlen := ((fills_start chunk pieces).chunked r hr).length_grow (Nat.le_max_left 1 chunk)
  rwa [Buffer.filled_grow] at hlen

theorem filled_le_received
    (hr : r ∈ (Reader.start (max 1 chunk) pieces).passes (max 1 chunk)) :
    r.buffer.filled ≤ received pieces := by
  have htotal := (fills_start chunk pieces).total r hr
  rw [total_start] at htotal
  exact htotal ▸ Nat.le_add_right _ _

theorem inRange_iff : InRange chunk pieces ↔ lastLength chunk pieces ≤ maxBufferLength := by
  have hfills := fills_start chunk pieces
  constructor
  · intro h
    obtain ⟨pass, hm, hl⟩ := hfills.last
    have hlen := length_offered hm
    rw [hl, total_start] at hlen
    exact Nat.le_trans (Nat.le_of_eq hlen.symm) (h pass hm).1
  · intro h r hr
    have hlen := length_offered hr
    have hle : (r.offered (max 1 chunk)).length ≤ maxBufferLength := by
      rw [hlen]
      apply Nat.le_trans _ h
      exact Nat.mul_le_mul_left _ (Nat.succ_le_succ (Nat.div_le_div_right (filled_le_received hr)))
    refine ⟨hle, ?_⟩
    have hlt := (hfills.chunked r hr).filled_lt (Nat.le_max_left 1 chunk)
    have hsize : max 1 chunk ≤ (r.offered (max 1 chunk)).length := by
      rw [hlen]
      exact Nat.le_mul_of_pos_right _ (Nat.succ_pos _)
    calc (r.offered (max 1 chunk)).filled + max 1 chunk
        < (r.offered (max 1 chunk)).length + (r.offered (max 1 chunk)).length :=
          Nat.add_lt_add_of_lt_of_le hlt hsize
      _ ≤ maxBufferLength + maxBufferLength := Nat.add_le_add hle hle
      _ ≤ UInt64.size := by decide

theorem lastLength_le (chunk : Nat) (pieces : List Piece) :
    lastLength chunk pieces ≤ max 1 chunk + received pieces := by
  rw [lastLength, Nat.mul_succ, Nat.add_comm]
  exact Nat.add_le_add_left (Nat.mul_div_le _ _) _

theorem outgrows_eq_false_iff : outgrows chunk pieces = false ↔ InRange chunk pieces := by
  rw [inRange_iff, outgrows, decide_eq_false_iff_not, Nat.not_lt]

theorem Tool.breaksOff_iff {tool : Tool} {w : World} {request : Request} :
    tool.breaksOff w request = true ↔
      ¬InRange tool.chunkSize w.program.output ∧ ∃ launch, tool.launch w request = .ok launch := by
  rw [breaksOff, Bool.and_eq_true, ← outgrows_eq_false_iff, Bool.not_eq_false]
  refine and_congr_right fun _ => ?_
  cases tool.launch w request <;> simp [Except.toOption]

end
end Xref.Query

-- ---------------------------------------------------------------------------
-- Runs that break off
-- ---------------------------------------------------------------------------

namespace Xref.Terminal.Session

section
variable {w : World} {answers : Answers} {fatal : Query.Request → Bool} {line : Bytes}

theorem toList_requests_next (s : Session) (line : Bytes) :
    (s.next w answers line).requests.toList = s.requests.toList ++ s.asked w answers line := by
  rw [next_requests, Array.toList_appendList]

theorem breakOff?_cons (h : Continues line) (s : Session) (rest : List Bytes) :
    breakOff? w answers fatal s (line :: rest) =
      if (s.asked w answers line).any fatal then (command? line).map (s.approach w)
      else breakOff? w answers fatal (s.next w answers line) rest := by
  obtain ⟨text, hd, hq⟩ := h
  have hn : Entry.ofLine text ≠ .quit := (ofLine_eq_quit_iff text).not.mpr (not_or.mpr hq)
  cases he : Entry.ofLine text with
  | quit => exact absurd he hn
  | command command =>
    have hc : command? line = some command := command?_eq_some.mpr ⟨text, hd, he⟩
    have hasked : (s.enter w answers (.command command)).requests.toList.drop s.requests.size =
        s.asked w answers line := by
      have hrequests : (s.enter w answers (.command command)).requests.toList =
          s.requests.toList ++ s.asked w answers line := by
        rw [← toList_requests_next]
        simp only [next, hd, he, print]
      rw [hrequests, ← Array.length_toList, List.drop_left]
    simp only [breakOff?, hd, he, hasked, hc, next, Option.map_some]
  | blank | help | unknown =>
    have hc : command? line = none := by simp [command?, hd, he]
    simp [breakOff?, next, asked, hd, he, hc]

theorem mem_requests_follow {request : Query.Request} (lines : List Bytes) (s : Session)
    (h : request ∈ s.requests.toList) :
    request ∈ (follow w answers s lines).2.requests.toList := by
  induction lines generalizing s with
  | nil => exact h
  | cons line rest ih =>
    obtain hc | hq | ⟨fault, hd⟩ := continues_or_quits_or_unreadable line
    · rw [follow_cons_continues w answers hc]
      apply ih
      rw [toList_requests_next]
      exact List.mem_append_left _ h
    · rw [follow_cons_quits w answers hq]
      exact h
    · rw [follow_cons_unreadable w answers hd]
      exact h

/-- A session breaks off just if without that it would make a fatal request. -/
theorem isSome_breakOff?_iff (lines : List Bytes) (s : Session)
    (hs : ∀ request ∈ s.requests.toList, fatal request = false) :
    (breakOff? w answers fatal s lines).isSome = true ↔
      ∃ request ∈ (follow w answers s lines).2.requests.toList, fatal request = true := by
  induction lines generalizing s with
  | nil => simpa [breakOff?, follow, print] using hs
  | cons line rest ih =>
    obtain hc | hq | ⟨fault, hd⟩ := continues_or_quits_or_unreadable line
    · rw [breakOff?_cons hc, follow_cons_continues w answers hc]
      split
      · next ha =>
        obtain ⟨request, hm, hf⟩ := List.any_eq_true.mp ha
        have hmade : request ∈ (s.next w answers line).requests.toList := by
          rw [toList_requests_next]
          exact List.mem_append_right _ hm
        have hcommand : (command? line).isSome = true := by
          cases hn : command? line with
          | none => simp [asked, hn] at ha
          | some command => rfl
        rw [Option.isSome_map, hcommand]
        exact iff_of_true rfl ⟨request, mem_requests_follow rest _ hmade, hf⟩
      · next ha =>
        apply ih
        rw [toList_requests_next]
        exact List.forall_mem_append.mpr ⟨hs, by simpa using ha⟩
    · obtain ⟨text, hd, hq⟩ := hq
      simpa [breakOff?, follow, hd, (ofLine_eq_quit_iff text).mpr hq, print] using hs
    · simpa [breakOff?, follow, hd] using hs

end

end Xref.Terminal.Session

namespace Xref.CommandLine

open Query (InRange maxBufferLength received)

section
variable {w : World} {config : Config}

theorem exitCode_runQuery (command symbol : String) (json : Bool) :
    (runQuery w config command symbol json).exitCode ≤ 1 := by
  unfold runQuery
  split
  · exact Nat.le_refl 1
  · exact Nat.zero_le 1

theorem exitCode_runSession (input : Bytes) : (runSession w config input).exitCode ≤ 1 := by
  unfold runSession
  split
  · exact Nat.le_refl 1
  · dsimp only
    split
    · exact Nat.le_refl 1
    · exact Nat.zero_le 1

def Launched (w : World) (outcome : Outcome) : Prop :=
  ∃ request ∈ outcome.requests, ∃ launch, outcome.tool.launch w request = .ok launch

theorem any_breaksOff_iff (w : World) (outcome : Outcome) :
    outcome.requests.any (outcome.tool.breaksOff w) = true ↔
      ¬InRange outcome.tool.chunkSize w.program.output ∧ Launched w outcome := by
  simp only [List.any_eq_true, Query.Tool.breaksOff_iff, Launched]
  constructor
  · rintro ⟨request, hm, hr, hl⟩
    exact ⟨hr, request, hm, hl⟩
  · rintro ⟨hr, request, hm, hl⟩
    exact ⟨request, hm, hr, hl⟩

theorem tool_runQuery (command symbol : String) (json : Bool) :
    (runQuery w config command symbol json).tool = config.tool := by
  unfold runQuery
  split
  · rfl
  · rfl

theorem exitCode_attemptQuery (command symbol : String) (json : Bool) :
    (attemptQuery w config command symbol json).exitCode = 101 ↔
      ¬InRange config.tool.chunkSize w.program.output ∧
        Launched w (runQuery w config command symbol json) := by
  have hany := any_breaksOff_iff w (runQuery w config command symbol json)
  rw [tool_runQuery] at hany
  rw [← hany, attemptQuery]
  split
  · next h => exact iff_of_true rfl h
  · next h =>
    have hcode : (runQuery w config command symbol json).exitCode ≤ 1 :=
      exitCode_runQuery command symbol json
    refine iff_of_false ?_ h
    omega

theorem isSome_sessionBreakOff?_iff (input : Bytes) :
    (sessionBreakOff? w config input).isSome = true ↔
      ¬InRange config.tool.chunkSize w.program.output ∧
        Launched w (runSession w config input) := by
  cases hn : navigator w config with
  | error report => simp [sessionBreakOff?, hn, Except.toOption, Launched, runSession, failed]
  | ok nav =>
    let s := ({ navigator := nav } : Terminal.Session).print Terminal.promptText
    let outcome := runSession w config input
    have htool : outcome.tool = config.tool := by simp only [outcome, runSession, hn]
    have hbroken : (s.breakOff? w (fun _ => config.tool.execute w) (config.tool.breaksOff w)
        (Terminal.lines input)).isSome = true ↔
          outcome.requests.any (config.tool.breaksOff w) = true := by
      have hrequests : outcome.requests =
          (s.follow w (fun _ => config.tool.execute w)
            (Terminal.lines input)).2.requests.toList := by
        simp only [outcome, runSession, hn]
        rfl
      rw [hrequests, List.any_eq_true]
      exact Terminal.Session.isSome_breakOff?_iff _ s (List.forall_mem_nil _)
    have hany := any_breaksOff_iff w outcome
    rw [htool] at hany
    rw [← hany]
    cases ho : Query.outgrows config.tool.chunkSize w.program.output with
    | true => simpa [sessionBreakOff?, hn, ho, Except.toOption] using hbroken
    | false =>
      have hnone (request : Query.Request) : config.tool.breaksOff w request = false := by
        simp [Query.Tool.breaksOff, ho]
      have hstart : sessionBreakOff? w config input = none := by
        simp only [sessionBreakOff?, ho]
        rfl
      simp [hstart, hnone]

theorem exitCode_attemptSession (input : Bytes) :
    (attemptSession w config input).exitCode = 101 ↔
      ¬InRange config.tool.chunkSize w.program.output ∧
        Launched w (runSession w config input) := by
  rw [← isSome_sessionBreakOff?_iff, attemptSession]
  split
  · next h => simp [h, brokenOff]
  · next h =>
    have hcode : (runSession w config input).exitCode ≤ 1 := exitCode_runSession input
    refine iff_of_false ?_ (by simp [h])
    omega

/-- At each read the buffer is the shortest whole number of chunks with room left, so it can be had
at all reads, and all sums are words, just if the last buffer can. A chunk and the stream that fit
together are enough, and a chunk that does not fit alone is too long already for the first read. A
run ends early just if it starts the tool where a buffer cannot be had. -/
theorem buffer_in_range_iff (chunk : Nat) (pieces : List Query.Piece) (w : World)
    (config : Config) :
    let size := max 1 chunk
    ((∀ r ∈ (Query.Reader.start size pieces).passes size,
        (r.offered size).length = size * (r.buffer.filled / size + 1)) ∧
      (InRange chunk pieces ↔ size * (received pieces / size + 1) ≤ maxBufferLength) ∧
      (size + received pieces ≤ maxBufferLength → InRange chunk pieces) ∧
      (maxBufferLength < size →
        maxBufferLength < ((Query.Reader.start size pieces).offered size).length)) ∧
    (∀ command symbol json,
      (attemptQuery w config command symbol json).exitCode = 101 ↔
        ¬InRange config.tool.chunkSize w.program.output ∧
          Launched w (runQuery w config command symbol json)) ∧
    ∀ input,
      (attemptSession w config input).exitCode = 101 ↔
        ¬InRange config.tool.chunkSize w.program.output ∧
          Launched w (runSession w config input) := by
  refine ⟨⟨?_, Query.inRange_iff, ?_, ?_⟩, exitCode_attemptQuery, exitCode_attemptSession⟩
  · exact fun r hr => Query.length_offered hr
  · intro h
    exact Query.inRange_iff.mpr (Nat.le_trans (Query.lastLength_le chunk pieces) h)
  · intro h
    have hpos : 0 ≠ max 1 chunk := Nat.ne_of_lt (Nat.le_max_left 1 chunk)
    simpa [Query.Reader.offered, Query.Reader.start, Query.Buffer.grow, hpos] using h

end

end Xref.CommandLine

namespace Xref.Sample

def greedy : Config := { chunkSize := 0xFFFFFFFFFFFFFFFF }

def greedyWorld : World :=
  { equipped with
    files := equipped.files.put [Config.fileName, "p"]
      (some (.file (Text.Utf8.encode "\x7b\"chunkSize\": 18446744073709551615\x7d") false)) }

end Xref.Sample

namespace Xref.CommandLine

open Query (InRange maxBufferLength)

theorem buffer_in_range_iff_greedy :
    InRange 2 [.data [1, 2, 3], .failure .interrupted, .data [4, 5]] ∧
      ((Query.Reader.start 2 [.data [1, 2]]).offered 2).length = 2 ∧
      maxBufferLength <
        ((Query.Reader.start Sample.greedy.tool.chunkSize []).offered
          Sample.greedy.tool.chunkSize).length := by
  have h (chunk : Nat) (pieces : List Query.Piece) :=
    (buffer_in_range_iff chunk pieces Sample.equipped Sample.greedy).1
  obtain ⟨-, -, hfits, -⟩ := h 2 [.data [1, 2, 3], .failure .interrupted, .data [4, 5]]
  obtain ⟨hlength, -⟩ := h 2 [.data [1, 2]]
  obtain ⟨-, -, -, hlong⟩ := h Sample.greedy.tool.chunkSize []
  exact ⟨hfits (by decide), hlength _ (by decide +kernel), hlong (by decide +kernel)⟩

theorem settings_break_off :
    Config.load Sample.greedyWorld none = .ok Sample.greedy ∧
      ¬InRange Sample.greedy.tool.chunkSize Sample.greedyWorld.program.output ∧
      (run Sample.greedyWorld ["query", "find-callers", "run"] []).exitCode = 101 := by
  refine ⟨by decide +kernel, ?_, by decide +kernel⟩
  rw [← Query.outgrows_eq_false_iff]
  decide +kernel

end Xref.CommandLine
