/-
**Displaced readers.**

What a reader makes of the bytes that are left does not depend on where it stands. `Displacement`
compares two readers with the same bytes left: how many bytes and levels the second one is ahead,
and how many more levels are open to it. Two reads correspond if, on readers so displaced, they give
the same result or the same fault but for the place (`Fault.displace`), and leave readers that are
displaced alike (`Corresponds`).

More open levels can only help: then, and only then, nothing is said of the second read where the
first one ran out of levels.

* `Corresponds.bind`, `Corresponds.atomic`, `Corresponds.deeper`: composed reads correspond if their
  parts do;
* `Corresponds.fromOffset`: the one read that sees the place reports it, displaced.
-/

import RowLogic.Proofs.Wire.Composition

namespace RowLogic

/-- How a reader stands to another one with the same bytes left. -/
structure Displacement where
  /-- The number of bytes further on. -/
  offset : Nat := 0
  /-- The number of levels further in. -/
  depth : Nat := 0
  /-- The number of levels more that are open. -/
  levels : Nat := 0
  /-- Bytes may follow the value of this reader. -/
  allowTrailing : Bool

variable {move : Displacement}

/-- A wire fault as the displaced reader reports it. -/
def WireFault.displace (move : Displacement) : WireFault → WireFault
  | invalidBoolean byte offset => invalidBoolean byte (move.offset + offset)
  | unknownTypeTag tag offset => unknownTypeTag tag (move.offset + offset)
  | invalidUtf8 offset reason => invalidUtf8 (move.offset + offset) reason
  | invalidFloat offset => invalidFloat (move.offset + offset)
  | nestingTooDeep maxDepth => nestingTooDeep (move.depth + move.levels + maxDepth)
  | fault => fault

/-- A fault as the displaced reader reports it. -/
def Fault.displace (move : Displacement) : Fault → Fault
  | wire fault => wire (fault.displace move)
  | unknownExpressionTag tag offset => unknownExpressionTag tag (move.offset + offset)
  | fault => fault

theorem Fault.code_displace (fault : Fault) :
    (fault.displace move).notice.code = fault.notice.code := by
  cases fault with
  | wire fault =>
    cases fault <;> simp only [displace, WireFault.displace, notice, WireFault.notice,
      malformedNotice]
  | unknownExpressionTag => simp only [displace, notice, malformedNotice]
  | _ => rfl

/-- Only the place and the limit are displaced. -/
theorem Fault.displace_eq {fault : Fault} (still : move.offset = 0)
    (shallow : fault.notice.code ≠ "WIRE_005" ∨ move.depth + move.levels = 0) :
    fault.displace move = fault := by
  cases fault with
  | wire fault =>
    cases fault with
    | nestingTooDeep maxDepth =>
      have same := shallow.resolve_left fun other => other rfl
      simp only [displace, WireFault.displace, same, Nat.zero_add]
    | _ => simp only [displace, WireFault.displace, still, Nat.zero_add]
  | _ => simp only [displace, still, Nat.zero_add]

namespace Reader

/-- The displaced reader. -/
def displace (move : Displacement) (reader : Reader) : Reader where
  rest := reader.rest
  offset := move.offset + reader.offset
  depth := move.depth + reader.depth
  limits := ⟨move.depth + move.levels + reader.limits.maxDepth, move.allowTrailing⟩

theorem advance_displace (reader : Reader) (count : Nat) :
    (reader.displace move).advance count = (reader.advance count).displace move := by
  simp only [advance, displace, Nat.add_assoc]

theorem leave_displace {reader : Reader} (entered : 0 < reader.depth) :
    (reader.displace move).leave = reader.leave.displace move := by
  simp only [leave, displace, Nat.add_sub_assoc entered]

theorem levels_le_displace (reader : Reader) : reader.levels ≤ (reader.displace move).levels := by
  show reader.limits.maxDepth - reader.depth ≤
    move.depth + move.levels + reader.limits.maxDepth - (move.depth + reader.depth)
  omega

theorem levels_displace (reader : Reader) (same : move.levels = 0) :
    (reader.displace move).levels = reader.levels := by
  show move.depth + move.levels + reader.limits.maxDepth - (move.depth + reader.depth) =
    reader.limits.maxDepth - reader.depth
  omega

end Reader

namespace Read

variable {α β : Type} {body other : Read α} {reader : Reader}

/-- The end of a read, as of the displaced reader. -/
def displaceEnd (move : Displacement) :
    EStateM.Result Fault Reader α → EStateM.Result Fault Reader α
  | .ok result after => .ok result (after.displace move)
  | .error fault after => .error (fault.displace move) (after.displace move)

/-- The read fails for want of open levels. -/
def RunsTooDeep (body : Read α) (reader : Reader) : Prop :=
  ∃ maxDepth after, body reader = .error (.wire (.nestingTooDeep maxDepth)) after

/-- On a reader and its displaced counterpart, the reads end alike; where more levels are open to
the second one, only if the first one has enough of them. -/
def CorrespondAt (move : Displacement) (body other : Read α) (reader : Reader) : Prop :=
  (0 < move.levels ∧ RunsTooDeep body reader) ∨
    other (reader.displace move) = displaceEnd move (body reader)

/-- **The reads correspond**, wherever they begin. -/
def Corresponds (move : Displacement) (body other : Read α) : Prop :=
  ∀ reader, CorrespondAt move body other reader

/-! ### Composed reads -/

theorem Corresponds.pure (result : α) :
    Corresponds move (Pure.pure result) (Pure.pure result) :=
  fun _ => Or.inr rfl

theorem Corresponds.throw (fault : Fault) :
    Corresponds move (throw fault : Read α) (throw (fault.displace move)) :=
  fun _ => Or.inr rfl

theorem Corresponds.bind {next next' : α → Read β} (first : Corresponds move body other)
    (second : ∀ middle, Corresponds move (next middle) (next' middle)) :
    Corresponds move (body >>= next) (other >>= next') := by
  intro reader
  rcases first reader with ⟨more, maxDepth, after, run⟩ | same
  · exact Or.inl ⟨more, maxDepth, after, bind_error run⟩
  cases run : body reader with
  | error fault between =>
    rw [run] at same
    refine Or.inr ?_
    rw [bind_error run, bind_error same]
    rfl
  | ok middle between =>
    rw [run] at same
    unfold CorrespondAt RunsTooDeep
    rw [bind_ok run, bind_ok same]
    exact second middle between

theorem Corresponds.map (change : α → β) (correspond : Corresponds move body other) :
    Corresponds move (change <$> body) (change <$> other) := by
  rw [map_eq_bind, map_eq_bind]
  exact correspond.bind fun result => .pure (change result)

/-- What is read from a place on may report it. -/
theorem Corresponds.fromOffset {next next' : Nat → Read α}
    (correspond : ∀ start, Corresponds move (next start) (next' (move.offset + start))) :
    Corresponds move (offset >>= next) (offset >>= next') :=
  fun reader => correspond reader.offset reader

theorem Corresponds.atomic (correspond : Corresponds move body other) :
    Corresponds move (atomic body) (atomic other) := by
  intro reader
  rcases correspond reader with ⟨more, maxDepth, after, run⟩ | same
  · exact Or.inl ⟨more, maxDepth, reader, atomic_error run⟩
  refine Or.inr ?_
  cases run : body reader with
  | error fault between =>
    rw [run] at same
    rw [atomic_error run, atomic_error same]
    rfl
  | ok result after =>
    rw [run] at same
    rw [atomic_ok run, atomic_ok same]
    rfl

/-- A level that is refused to one of two readers is refused to the other one, unless more levels
are open to it. -/
theorem Corresponds.deeper (composed : Composed body) (correspond : Corresponds move body other) :
    Corresponds move (deeper body) (deeper other) := by
  intro reader
  by_cases full : reader.limits.maxDepth ≤ reader.depth
  · by_cases more : 0 < move.levels
    · exact Or.inl ⟨more, _, _, deeper_refused full⟩
    have full' : (reader.displace move).limits.maxDepth ≤ (reader.displace move).depth := by
      show move.depth + move.levels + reader.limits.maxDepth ≤ move.depth + reader.depth
      omega
    refine Or.inr ?_
    rw [deeper_refused full, deeper_refused full']
    rfl
  have room : reader.depth < reader.limits.maxDepth := Nat.lt_of_not_le full
  have room' : (reader.displace move).depth < (reader.displace move).limits.maxDepth := by
    show move.depth + reader.depth < move.depth + move.levels + reader.limits.maxDepth
    omega
  rcases correspond reader.inside with ⟨more, maxDepth, after, run⟩ | same
  · exact Or.inl ⟨more, maxDepth, after.leave, deeper_error room run⟩
  refine Or.inr ?_
  -- the body restores the depth, so there is a level to leave
  obtain ⟨count, _, moved⟩ := composed.advances reader.inside
  cases run : body reader.inside with
  | error fault after =>
    rw [run] at same
    rw [behind_error run] at moved
    have entered : 0 < after.depth := by rw [moved]; exact Nat.succ_pos _
    rw [deeper_error room run, deeper_error room' same, Reader.leave_displace entered]
    rfl
  | ok result after =>
    rw [run] at same
    rw [behind_ok run] at moved
    have entered : 0 < after.depth := by rw [moved]; exact Nat.succ_pos _
    rw [deeper_ok room run, deeper_ok room' same, Reader.leave_displace entered]
    rfl

/-! ### The fields -/

theorem corresponds_take (field : String) (count : Nat) :
    Corresponds move (take field count) (take field count) := by
  intro reader
  refine Or.inr ?_
  by_cases room : count ≤ reader.remaining
  · have room' : count ≤ (reader.displace move).remaining := room
    rw [take_ok room, take_ok room', Reader.advance_displace]
    rfl
  · have short : reader.remaining < count := Nat.lt_of_not_le room
    have short' : (reader.displace move).remaining < count := short
    rw [take_short short, take_short short']
    rfl

theorem corresponds_takeByte (field : String) :
    Corresponds move (takeByte field) (takeByte field) := by
  intro reader
  refine Or.inr ?_
  cases left : reader.rest with
  | nil =>
    have left' : (reader.displace move).rest = [] := left
    rw [takeByte_short left, takeByte_short left']
    rfl
  | cons byte rest =>
    have left' : (reader.displace move).rest = byte :: rest := left
    rw [takeByte_ok left, takeByte_ok left', Reader.advance_displace]
    rfl

theorem corresponds_byte : Corresponds move byte byte :=
  corresponds_takeByte "u8"

/-- A number of fixed width. -/
theorem corresponds_word (read : Nat → α) (field : String) (width : Nat) :
    Corresponds move (read <$> takeWord field width) (read <$> takeWord field width) :=
  ((corresponds_take field width).map LittleEndian.decode).map read

theorem corresponds_bool : Corresponds move bool bool := by
  refine .atomic (.fromOffset fun start => .bind (corresponds_takeByte "bool") fun byte => ?_)
  by_cases zero : byte = 0
  · rw [if_pos zero, if_pos zero]
    exact .pure false
  rw [if_neg zero, if_neg zero]
  by_cases one : byte = 1
  · rw [if_pos one, if_pos one]
    exact .pure true
  · rw [if_neg one, if_neg one]
    exact .throw _

theorem corresponds_text : Corresponds move text text := by
  refine .atomic (.fromOffset fun start => .bind (corresponds_word _ _ _) fun length =>
    .bind (corresponds_take "utf8" length.toNat) fun bytes => ?_)
  cases Utf8.decode bytes with
  | ok text => exact .pure text
  | error defect => exact .throw _

theorem corresponds_dataType : Corresponds move dataType dataType := by
  refine .atomic (.fromOffset fun start => .bind corresponds_byte fun tag => ?_)
  cases DataType.ofTag? tag with
  | some type => exact .pure type
  | none => exact .throw _

theorem corresponds_real64 : Corresponds move real64 real64 := by
  refine .fromOffset fun start => .bind (corresponds_word _ _ _) fun raw => ?_
  cases Real64.ofDouble? raw with
  | some number => exact .pure number
  | none => exact .throw _

theorem corresponds_content (type : DataType) : Corresponds move (content type) (content type) := by
  cases type with
  | undefined => exact .pure _
  | boolean => exact corresponds_bool.map _
  | int4 => exact (corresponds_word _ _ _).map _
  | int8 => exact (corresponds_word _ _ _).map _
  | float8 => exact corresponds_real64.map _
  | utf8 => exact corresponds_text.map _

theorem corresponds_value : Corresponds move value value :=
  .atomic (.bind corresponds_dataType corresponds_content)

end Read

end RowLogic
