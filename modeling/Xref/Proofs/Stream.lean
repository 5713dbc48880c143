import Xref.Query.Stream

/-!
# What reading a stream gives

A stream holds the bytes before its end, unless a failure stands there that is no interruption.
Reading in chunks gives just that. Neither the size of a chunk nor the way in which the bytes fall
into pieces has a part in it. Sizes are natural numbers here: that they fit into a machine word is
not claimed.
-/

namespace Xref.Query

-- ---------------------------------------------------------------------------
-- What a stream holds
-- ---------------------------------------------------------------------------

def Piece.bytes : Piece → Bytes
  | .data bytes => bytes
  | .failure _ => []

/-- The failure that a piece stands for. An interruption is none. -/
def Piece.fault? : Piece → Option SystemError
  | .data _ => none
  | .failure e => if e = .interrupted then none else some e

def beforeEnd (pieces : List Piece) : List Piece := pieces.takeWhile (· ≠ .data [])

/-- The bytes before the end, or the first failure there. -/
def content (pieces : List Piece) : Except SystemError Bytes :=
  match (beforeEnd pieces).findSome? Piece.fault? with
  | some e => .error e
  | none => .ok ((beforeEnd pieces).flatMap Piece.bytes)

theorem content_nil : content [] = .ok [] := rfl

theorem content_end (rest : List Piece) : content (.data [] :: rest) = .ok [] := by
  simp [content, beforeEnd]

theorem content_data {bytes : Bytes} (h : bytes ≠ []) (rest : List Piece) :
    content (.data bytes :: rest) = (content rest).map (bytes ++ ·) := by
  have hb : beforeEnd (.data bytes :: rest) = .data bytes :: beforeEnd rest := by
    simp [beforeEnd, h]
  simp only [content, hb, List.findSome?_cons, List.flatMap_cons, Piece.fault?, Piece.bytes]
  cases (beforeEnd rest).findSome? Piece.fault? <;> rfl

theorem content_interrupted (rest : List Piece) :
    content (.failure .interrupted :: rest) = content rest := by
  have hb : beforeEnd (.failure .interrupted :: rest) =
      .failure .interrupted :: beforeEnd rest := by
    simp [beforeEnd]
  simp only [content, hb, List.findSome?_cons, List.flatMap_cons, Piece.fault?, Piece.bytes,
    if_true, List.nil_append]

theorem content_failure {e : SystemError} (h : e ≠ .interrupted) (rest : List Piece) :
    content (.failure e :: rest) = .error e := by
  simp [content, beforeEnd, Piece.fault?, h]

theorem map_append_map_append (held : Except SystemError Bytes) (first second : Bytes) :
    (held.map (second ++ ·)).map (first ++ ·) = held.map (first ++ second ++ ·) := by
  cases held <;> simp [Except.map]

theorem content_data_append {first : Bytes} (h : first ≠ []) (second : Bytes)
    (rest : List Piece) :
    content (.data (first ++ second) :: rest) =
      (content (if second = [] then rest else .data second :: rest)).map (first ++ ·) := by
  rw [content_data (List.append_ne_nil_of_left_ne_nil h second)]
  split
  · next hs => rw [hs, List.append_nil]
  · next hs =>
    rw [content_data hs, map_append_map_append]

/-- The same stream, come in another way: data may be cut anywhere, and interruptions may come
anywhere. -/
inductive SameStream : List Piece → List Piece → Prop
  | refl (pieces : List Piece) : SameStream pieces pieces
  | symm {first second : List Piece} : SameStream first second → SameStream second first
  | trans {first second third : List Piece} :
      SameStream first second → SameStream second third → SameStream first third
  | cons (piece : Piece) {first second : List Piece} :
      SameStream first second → SameStream (piece :: first) (piece :: second)
  | cut {first second : Bytes} (hf : first ≠ []) (hs : second ≠ []) (rest : List Piece) :
      SameStream (.data (first ++ second) :: rest) (.data first :: .data second :: rest)
  | interrupted (rest : List Piece) : SameStream (.failure .interrupted :: rest) rest

theorem SameStream.content_eq {first second : List Piece} (h : SameStream first second) :
    content first = content second := by
  induction h with
  | refl => rfl
  | symm _ ih => exact ih.symm
  | trans _ _ ih ih' => exact ih.trans ih'
  | cons piece _ ih =>
    cases piece with
    | data bytes =>
      by_cases hb : bytes = []
      · rw [hb, content_end, content_end]
      · rw [content_data hb, content_data hb, ih]
    | failure e =>
      by_cases he : e = .interrupted
      · rw [he, content_interrupted, content_interrupted, ih]
      · rw [content_failure he, content_failure he]
  | cut hf hs rest => rw [content_data_append hf, if_neg hs, content_data hf]
  | interrupted rest => exact content_interrupted rest

-- ---------------------------------------------------------------------------
-- The buffer
-- ---------------------------------------------------------------------------

/-- The bytes that were read are all that the buffer counts as filled, and it has room for them. -/
structure Buffer.Sound (b : Buffer) : Prop where
  length_bytes : b.bytes.length = b.filled
  filled_le : b.filled ≤ b.length

section
variable {chunk : Nat} {b : Buffer}

theorem Buffer.Sound.grow (h : b.Sound) : (b.grow chunk).Sound := by
  constructor
  · rw [bytes_grow, h.length_bytes]
    unfold Buffer.grow
    split <;> rfl
  · have := h.filled_le
    unfold Buffer.grow
    split
    · exact Nat.le_trans this (Nat.le_add_right _ _)
    · exact this

/-- Once a full buffer was lengthened, there is always a part to offer. -/
theorem Buffer.Sound.filled_lt_limit (hc : 0 < chunk) (h : b.Sound) :
    (b.grow chunk).filled < (b.grow chunk).limit chunk := by
  have hf := h.filled_le
  have hg : (b.grow chunk).filled < (b.grow chunk).length := by
    unfold Buffer.grow
    split
    · next he => exact he ▸ Nat.lt_add_of_pos_right hc
    · next he => exact Nat.lt_of_le_of_ne hf he
  exact Nat.lt_min.mpr ⟨Nat.lt_add_of_pos_right hc, hg⟩

theorem Buffer.limit_le (chunk : Nat) (b : Buffer) : b.limit chunk ≤ b.length :=
  Nat.min_le_right _ _

theorem Buffer.Sound.add (h : b.Sound) {more : Bytes} (hm : more.length ≤ b.room chunk) :
    (b.add more).Sound := by
  have hl := b.limit_le chunk
  have hf := h.filled_le
  constructor
  · rw [bytes_add, List.length_append, h.length_bytes]
    rfl
  · simp only [Buffer.add]
    simp only [Buffer.room] at hm
    omega

end

-- ---------------------------------------------------------------------------
-- One read
-- ---------------------------------------------------------------------------

/-- A reader between two reads: its buffer, and the pieces that are still to come. -/
structure Reader where
  buffer : Buffer
  coming : List Piece
  deriving DecidableEq, Repr

namespace Reader

def offered (chunk : Nat) (r : Reader) : Buffer := r.buffer.grow chunk

def read (chunk : Nat) (r : Reader) : Except SystemError Bytes ⊕ Reader :=
  let buffer := r.offered chunk
  match r.coming with
  | [] => .inl (.ok buffer.bytes)
  | .failure e :: rest => if e = .interrupted then .inr ⟨buffer, rest⟩ else .inl (.error e)
  | .data bytes :: rest =>
    let room := buffer.room chunk
    if bytes = [] ∨ room = 0 then .inl (.ok buffer.bytes)
    else
      let left := bytes.drop room
      .inr ⟨buffer.add (bytes.take room), if left = [] then rest else .data left :: rest⟩

def holds (r : Reader) : Except SystemError Bytes := (content r.coming).map (r.buffer.bytes ++ ·)

section
variable {chunk : Nat} {r next : Reader}

theorem weight_read (h : r.read chunk = .inr next) : weight next.coming < weight r.coming := by
  obtain ⟨buffer, coming⟩ := r
  unfold read at h
  cases coming with
  | nil => cases h
  | cons piece rest =>
    cases piece with
    | failure e =>
      simp only at h
      split at h
      · cases h
        simp [weight, Piece.weight]
      · cases h
    | data bytes =>
      simp only at h
      split at h
      · cases h
      · next hn =>
        rw [not_or] at hn
        have hb := List.length_pos_iff.mpr hn.1
        have hr := Nat.pos_of_ne_zero hn.2
        cases h
        simp only [weight, Piece.weight]
        split
        · omega
        · simp only [weight, Piece.weight, List.length_drop]
          omega

theorem read_ended {result : Except SystemError Bytes} (hc : 0 < chunk) (hs : r.buffer.Sound)
    (h : r.read chunk = .inl result) : result = r.holds := by
  have hroom : (r.offered chunk).room chunk ≠ 0 := Nat.sub_ne_zero_of_lt (hs.filled_lt_limit hc)
  have hbytes : (r.offered chunk).bytes = r.buffer.bytes := Buffer.bytes_grow chunk r.buffer
  have hend : Except.ok (r.offered chunk).bytes =
      (Except.ok [] : Except SystemError Bytes).map (r.buffer.bytes ++ ·) := by
    simp [Except.map, hbytes]
  unfold read at h
  unfold holds
  split at h
  · next hp =>
    cases h
    rw [hp, content_nil, hend]
  · next e rest hp =>
    split at h
    · cases h
    · next he =>
      cases h
      rw [hp, content_failure he, Except.map]
  · next bytes rest hp =>
    dsimp only at h
    split at h
    · next hn =>
      cases h
      rw [hp, hn.resolve_right hroom, content_end, hend]
    · cases h

theorem read_on (hs : r.buffer.Sound) (h : r.read chunk = .inr next) :
    next.buffer.Sound ∧ next.holds = r.holds ∧ r.buffer.bytes <+: next.buffer.bytes := by
  have hbytes : (r.offered chunk).bytes = r.buffer.bytes := Buffer.bytes_grow chunk r.buffer
  have hsound : (r.offered chunk).Sound := hs.grow
  unfold read at h
  split at h
  · cases h
  · next e rest hp =>
    split at h
    · next he =>
      cases h
      refine ⟨hsound, ?_, ?_⟩
      · rw [holds, holds, hp, he, content_interrupted, hbytes]
      · exact ⟨[], by rw [List.append_nil, hbytes]⟩
    · cases h
  · next bytes rest hp =>
    dsimp only at h
    generalize hroom : (r.offered chunk).room chunk = room at h
    split at h
    · cases h
    · next hn =>
      cases h
      have htaken : bytes.take room ≠ [] := by
        simpa [List.take_eq_nil_iff, not_or, and_comm] using hn
      have hadded : ((r.offered chunk).add (bytes.take room)).bytes =
          r.buffer.bytes ++ bytes.take room := by
        rw [Buffer.bytes_add, hbytes]
      have hfits : (bytes.take room).length ≤ (r.offered chunk).room chunk := by
        rw [hroom]
        exact List.length_take_le _ _
      refine ⟨hsound.add hfits, ?_, ?_⟩
      · rw [holds, holds, hp, hadded, ← map_append_map_append, ← content_data_append htaken,
          List.take_append_drop]
      · rw [hadded]
        exact List.prefix_append _ _

end

-- ---------------------------------------------------------------------------
-- All reads
-- ---------------------------------------------------------------------------

def passes (chunk : Nat) (r : Reader) : List Reader :=
  match _h : r.read chunk with
  | .inl _ => [r]
  | .inr next => r :: next.passes chunk
termination_by weight r.coming
decreasing_by exact weight_read _h

section
variable {chunk : Nat} {r : Reader}

theorem passes_ended {result : Except SystemError Bytes} (h : r.read chunk = .inl result) :
    r.passes chunk = [r] := by
  rw [passes]
  split
  · rfl
  · next hn =>
    rw [h] at hn
    cases hn

theorem passes_on {next : Reader} (h : r.read chunk = .inr next) :
    r.passes chunk = r :: next.passes chunk := by
  rw [passes]
  split
  · next he =>
    rw [h] at he
    cases he
  · next hn =>
    rw [h] at hn
    cases hn
    rfl

theorem drainFrom_eq (chunk : Nat) (r : Reader) (asked : List Nat) :
    drainFrom chunk r.buffer asked r.coming =
      match r.read chunk with
      | .inl result => ⟨result, ((r.offered chunk).room chunk :: asked).reverse⟩
      | .inr next =>
        drainFrom chunk next.buffer ((r.offered chunk).room chunk :: asked) next.coming := by
  obtain ⟨buffer, coming⟩ := r
  rw [drainFrom.eq_def]
  cases coming with
  | nil => rfl
  | cons piece rest =>
    cases piece with
    | failure e => by_cases he : e = .interrupted <;> simp [read, offered, he]
    | data bytes =>
      by_cases hn : bytes = [] ∨ (buffer.grow chunk).room chunk = 0
      · simp [read, offered, hn]
      · simp [read, offered, hn]

/-- What holds at every read of a reader that comes to its end. -/
structure Drains (chunk : Nat) (r : Reader) : Prop where
  result : ∀ asked, (drainFrom chunk r.buffer asked r.coming).result = r.holds
  asked : ∀ asked, (drainFrom chunk r.buffer asked r.coming).asked =
    asked.reverse ++ (r.passes chunk).map fun pass => (pass.offered chunk).room chunk
  sound : ∀ pass ∈ r.passes chunk, pass.buffer.Sound
  holds : ∀ pass ∈ r.passes chunk, pass.holds = r.holds
  grows : ∀ pass ∈ r.passes chunk, r.buffer.bytes <+: pass.buffer.bytes
  kept : (r.passes chunk).Pairwise fun earlier later =>
    earlier.buffer.bytes <+: later.buffer.bytes

theorem drains (hc : 0 < chunk) (hs : r.buffer.Sound) : r.Drains chunk := by
  -- Along the reads themselves: what the reader holds is carried from one to the next.
  induction r using passes.induct chunk with
  | case1 r result h =>
    have hp := passes_ended h
    constructor
    · intro asked
      rw [drainFrom_eq, h]
      exact read_ended hc hs h
    · intro asked
      rw [drainFrom_eq, h, hp]
      simp
    all_goals simp [hp, hs]
  | case2 r next h ih =>
    obtain ⟨hsound, hholds, hprefix⟩ := read_on hs h
    have hnext := ih hsound
    have hp := passes_on h
    constructor
    · intro asked
      rw [drainFrom_eq, h, ← hholds]
      exact hnext.result _
    · intro asked
      rw [drainFrom_eq, h, hp]
      simp [hnext.asked]
    · rw [hp]
      exact List.forall_mem_cons.mpr ⟨hs, hnext.sound⟩
    · rw [hp]
      exact List.forall_mem_cons.mpr ⟨rfl, fun pass hm => (hnext.holds pass hm).trans hholds⟩
    · rw [hp]
      exact List.forall_mem_cons.mpr
        ⟨List.prefix_rfl, fun pass hm => hprefix.trans (hnext.grows pass hm)⟩
    · rw [hp, List.pairwise_cons]
      exact ⟨fun pass hm => hprefix.trans (hnext.grows pass hm), hnext.kept⟩

end

def start (chunk : Nat) (pieces : List Piece) : Reader := ⟨⟨chunk, 0, []⟩, pieces⟩

end Reader

theorem drains_start (chunk : Nat) (pieces : List Piece) :
    (Reader.start (max 1 chunk) pieces).Drains (max 1 chunk) :=
  Reader.drains (Nat.le_max_left 1 chunk) ⟨rfl, Nat.zero_le _⟩

theorem holds_start (chunk : Nat) (pieces : List Piece) :
    (Reader.start chunk pieces).holds = content pieces := by
  cases h : content pieces <;> simp [Reader.holds, Reader.start, Buffer.bytes, h, Except.map]

theorem result_drain (chunk : Nat) (pieces : List Piece) :
    (drain chunk pieces).result = content pieces :=
  ((drains_start chunk pieces).result []).trans (holds_start _ pieces)

/-- Reading gives what the stream holds, whatever the size of a chunk and in whatever way the stream
comes. No read is offered an empty part of the buffer, which could not be told from the end. The
part starts where the bytes that were read end, and these stay as they are, so that with what is
still to come they always make up the stream. -/
theorem drain_gives_content (chunk : Nat) (pieces : List Piece) :
    let size := max 1 chunk
    let passes := (Reader.start size pieces).passes size
    (drain chunk pieces).result = content pieces ∧
      (∀ other others, SameStream pieces others →
        (drain other others).result = (drain chunk pieces).result) ∧
      (drain chunk pieces).asked = (passes.map fun r => (r.offered size).room size) ∧
      (∀ r ∈ passes,
        (r.offered size).filled < (r.offered size).limit size ∧
          (r.offered size).limit size ≤ (r.offered size).length ∧
          (r.offered size).bytes.length = (r.offered size).filled ∧
          (content r.coming).map ((r.offered size).bytes ++ ·) = content pieces) ∧
      passes.Pairwise fun earlier later =>
        (earlier.offered size).bytes <+: (later.offered size).bytes := by
  intro size passes
  have hdrains : (Reader.start size pieces).Drains size := drains_start chunk pieces
  have hbytes (r : Reader) : (r.offered size).bytes = r.buffer.bytes :=
    Buffer.bytes_grow size r.buffer
  refine ⟨result_drain chunk pieces, ?_, ?_, ?_, ?_⟩
  · intro other others hsame
    rw [result_drain, result_drain, hsame.content_eq]
  · exact hdrains.asked []
  · intro r hr
    have hsound := hdrains.sound r hr
    refine ⟨hsound.filled_lt_limit (Nat.le_max_left 1 chunk), Buffer.limit_le _ _,
      hsound.grow.length_bytes, ?_⟩
    rw [hbytes]
    exact (hdrains.holds r hr).trans (holds_start size pieces)
  · simp only [hbytes]
    exact hdrains.kept

theorem drain_gives_content_cut :
    (drain 2 [.data [1, 2, 3], .failure .interrupted, .data [4, 5]]).result =
        .ok [1, 2, 3, 4, 5] ∧
      (drain 0 [.data [1, 2, 3, 4, 5]]).result = .ok [1, 2, 3, 4, 5] ∧
      (drain 2 [.data [1, 2, 3], .failure .interrupted, .data [4, 5]]).asked =
        [2, 2, 1, 1, 2, 1] := by
  have hcut : SameStream [.data [1, 2, 3, 4, 5]]
      [.data [1, 2, 3], .failure .interrupted, .data [4, 5]] := by
    have htwo : SameStream [.data ([1, 2, 3] ++ [4, 5])] [.data [1, 2, 3], .data [4, 5]] :=
      .cut (List.cons_ne_nil _ _) (List.cons_ne_nil _ _) []
    exact htwo.trans (.cons _ (.symm (.interrupted _)))
  have hwhole := drain_gives_content 0 [.data [1, 2, 3, 4, 5]]
  have hresult : (drain 0 [.data [1, 2, 3, 4, 5]]).result = .ok [1, 2, 3, 4, 5] :=
    hwhole.1.trans rfl
  exact ⟨(hwhole.2.1 2 _ hcut).trans hresult, hresult, by decide +kernel⟩

end Xref.Query
