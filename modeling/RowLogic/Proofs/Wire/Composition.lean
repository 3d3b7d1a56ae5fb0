/-
**Composed reads.**

Every read of the wire format is composed of a few primitive ones (`Composed`): it takes bytes, it
asks where it stands and how many levels are open, it fails, and it goes back where a part of it
promised to. So whatever is kept by each of these is kept by every read:

* `Composed.advances`: a read only goes forward, no further than there are bytes, and leaves depth
  and limits as they were, whether or not it fails;
* `Composed.extends`: a read looks at no bytes but those that it takes. Unless it runs out of bytes,
  it ends the same way on every longer stream.
-/

import RowLogic.Proofs.Wire.Recognition

namespace RowLogic

namespace Reader

/-- The reader with more bytes behind those that are left. -/
def extend (reader : Reader) (more : List UInt8) : Reader :=
  { reader with rest := reader.rest ++ more }

theorem remaining_advance (reader : Reader) (count : Nat) :
    (reader.advance count).remaining = reader.remaining - count :=
  List.length_drop

theorem extend_advance {reader : Reader} {count : Nat} (within : count ≤ reader.remaining)
    (more : List UInt8) :
    (reader.extend more).advance count = (reader.advance count).extend more := by
  unfold advance extend
  dsimp only
  rw [List.drop_append_of_le_length within]

end Reader

namespace Read

variable {α β : Type} {body : Read α} {reader after : Reader} {result : α} {fault : Fault}

/-- The reads that are composed of primitive ones. -/
inductive Composed : {α : Type} → Read α → Prop where
  | pure {α : Type} (result : α) : Composed (Pure.pure result : Read α)
  | throw {α : Type} (fault : Fault) : Composed (throw fault : Read α)
  | tooDeep {α : Type} :
    Composed fun reader : Reader =>
      (malformed (.nestingTooDeep reader.limits.maxDepth) : Read α) reader
  | offset : Composed offset
  | take (field : String) (count : Nat) : Composed (take field count)
  | takeByte (field : String) : Composed (takeByte field)
  | bind {α β : Type} {body : Read α} {next : α → Read β} (first : Composed body)
    (second : ∀ middle, Composed (next middle)) : Composed (body >>= next)
  | atomic {α : Type} {body : Read α} (composed : Composed body) : Composed (atomic body)
  | deeper {α : Type} {body : Read α} (composed : Composed body) : Composed (deeper body)
  | byLevels {α : Type} {body : Nat → Read α} (composed : ∀ levels, Composed (body levels)) :
    Composed fun reader => body reader.levels reader

theorem Composed.map (change : α → β) (composed : Composed body) : Composed (change <$> body) := by
  rw [map_eq_bind]
  exact composed.bind fun result => .pure (change result)

/-! ### Runs of the primitive reads -/

theorem take_ok {field : String} {count : Nat} (room : count ≤ reader.remaining) :
    take field count reader = .ok (reader.rest.take count) (reader.advance count) := by
  have width : (reader.rest.take count).length = count := List.length_take_of_le room
  exact if_neg (by rw [width]; exact Nat.lt_irrefl count)

theorem take_short {field : String} {count : Nat} (short : reader.remaining < count) :
    take field count reader = .error (.wire (.truncated field count reader.remaining)) reader := by
  refine if_pos ?_
  rw [List.length_take]
  exact Nat.lt_of_le_of_lt (Nat.min_le_right _ _) short

theorem takeByte_ok {field : String} {byte : UInt8} {rest : List UInt8}
    (left : reader.rest = byte :: rest) : takeByte field reader = .ok byte (reader.advance 1) := by
  unfold takeByte
  rw [left]

theorem takeByte_short {field : String} (left : reader.rest = []) :
    takeByte field reader = .error (.wire (.truncated field 1 0)) reader := by
  unfold takeByte
  rw [left]

theorem atomic_ok (run : body reader = .ok result after) :
    atomic body reader = .ok result after := by
  unfold atomic
  rw [run]

theorem atomic_error (run : body reader = .error fault after) :
    atomic body reader = .error fault reader := by
  unfold atomic
  rw [run]

theorem deeper_refused (full : reader.limits.maxDepth ≤ reader.depth) :
    deeper body reader = .error (.wire (.nestingTooDeep reader.limits.maxDepth)) reader := by
  have refused : enter reader = .error (.wire (.nestingTooDeep reader.limits.maxDepth)) reader :=
    if_pos full
  unfold deeper
  rw [refused]

/-! ### The reader behind a read -/

/-- The reader that a read leaves behind, whether or not it failed. -/
def behind (body : Read α) (reader : Reader) : Reader :=
  match body reader with
  | .ok _ after => after
  | .error _ after => after

theorem behind_ok (run : body reader = .ok result after) : behind body reader = after := by
  unfold behind
  rw [run]

theorem behind_error (run : body reader = .error fault after) : behind body reader = after := by
  unfold behind
  rw [run]

/-- The read goes forward by bytes that are there, or not at all. -/
def Advances (body : Read α) (reader : Reader) : Prop :=
  ∃ count, count ≤ reader.remaining ∧ behind body reader = reader.advance count

theorem Advances.of_stay (stay : behind body reader = reader) : Advances body reader :=
  ⟨0, Nat.zero_le _, stay⟩

theorem Advances.bind {next : α → Read β} (first : Advances body reader)
    (second : ∀ middle between, Advances (next middle) between) :
    Advances (body >>= next) reader := by
  obtain ⟨count, within, moved⟩ := first
  cases run : body reader with
  | error fault between =>
    rw [behind_error run] at moved
    exact ⟨count, within, by rw [behind_error (bind_error run), moved]⟩
  | ok middle between =>
    rw [behind_ok run] at moved
    obtain ⟨more, within', moved'⟩ := second middle between
    have whole : behind (body >>= next) reader = behind (next middle) between := by
      unfold behind
      rw [bind_ok run]
    rw [moved, Reader.remaining_advance] at within'
    refine ⟨count + more, by omega, ?_⟩
    rw [whole, moved', moved, Reader.advance_advance]

theorem Advances.atomic (advances : Advances body reader) : Advances (atomic body) reader := by
  cases run : body reader with
  | error fault between => exact .of_stay (behind_error (atomic_error run))
  | ok result after =>
    obtain ⟨count, within, moved⟩ := advances
    exact ⟨count, within, by rw [behind_ok (atomic_ok run), ← moved, behind_ok run]⟩

/-- What is read inside a level leaves the level again, so the depth is restored. -/
theorem Advances.deeper (advances : Advances body reader.inside) :
    Advances (deeper body) reader := by
  by_cases full : reader.limits.maxDepth ≤ reader.depth
  · exact .of_stay (behind_error (deeper_refused full))
  have room : reader.depth < reader.limits.maxDepth := Nat.lt_of_not_le full
  obtain ⟨count, within, moved⟩ := advances
  refine ⟨count, within, ?_⟩
  have back : (reader.inside.advance count).leave = reader.advance count := rfl
  cases run : body reader.inside with
  | error fault after =>
    rw [behind_error (deeper_error room run), ← back, ← moved, behind_error run]
  | ok result after => rw [behind_ok (deeper_ok room run), ← back, ← moved, behind_ok run]

/-- **A composed read only goes forward**, and no further than there are bytes. -/
theorem Composed.advances (composed : Composed body) (reader : Reader) : Advances body reader := by
  induction composed generalizing reader with
  | pure result => exact .of_stay rfl
  | throw fault => exact .of_stay rfl
  | tooDeep => exact .of_stay rfl
  | offset => exact .of_stay rfl
  | take field count =>
    by_cases room : count ≤ reader.remaining
    · exact ⟨count, room, behind_ok (take_ok room)⟩
    · exact .of_stay (behind_error (take_short (Nat.lt_of_not_le room)))
  | takeByte field =>
    cases left : reader.rest with
    | nil => exact .of_stay (behind_error (takeByte_short left))
    | cons byte rest =>
      refine ⟨1, ?_, behind_ok (takeByte_ok left)⟩
      rw [Reader.remaining, left]
      exact Nat.succ_pos _
  | bind _ _ first_ih second_ih => exact (first_ih reader).bind second_ih
  | atomic _ ih => exact (ih reader).atomic
  | deeper _ ih => exact (ih reader.inside).deeper
  | byLevels _ ih => exact ih reader.levels reader

/-! ### Longer streams -/

/-- The end of a read, with more bytes behind those that it left. -/
def extendEnd (more : List UInt8) : EStateM.Result Fault Reader α → EStateM.Result Fault Reader α
  | .ok result after => .ok result (after.extend more)
  | .error fault after => .error fault (after.extend more)

/-- The read needs more bytes than are left. -/
def RunsOut (body : Read α) (reader : Reader) : Prop :=
  ∃ field needed remaining after,
    body reader = .error (.wire (.truncated field needed remaining)) after

/-- The read runs out of bytes, or ends the same way with more bytes behind. -/
def Extends (body : Read α) (reader : Reader) (more : List UInt8) : Prop :=
  RunsOut body reader ∨ body (reader.extend more) = extendEnd more (body reader)

variable {more : List UInt8}

theorem Extends.bind {next : α → Read β} (first : Extends body reader more)
    (second : ∀ middle between, Extends (next middle) between more) :
    Extends (body >>= next) reader more := by
  rcases first with ⟨field, needed, remaining, after, run⟩ | same
  · exact Or.inl ⟨field, needed, remaining, after, bind_error run⟩
  cases run : body reader with
  | error fault between =>
    rw [run] at same
    refine Or.inr ?_
    rw [bind_error run, bind_error same]
    rfl
  | ok middle between =>
    rw [run] at same
    unfold Extends RunsOut
    rw [bind_ok run, bind_ok same]
    exact second middle between

theorem Extends.atomic (ends : Extends body reader more) :
    Extends (atomic body) reader more := by
  rcases ends with ⟨field, needed, remaining, after, run⟩ | same
  · exact Or.inl ⟨field, needed, remaining, reader, atomic_error run⟩
  refine Or.inr ?_
  cases run : body reader with
  | error fault between =>
    rw [run] at same
    rw [atomic_error run, atomic_error same]
    rfl
  | ok result after =>
    rw [run] at same
    rw [atomic_ok run, atomic_ok same]
    rfl

theorem Extends.deeper (ends : Extends body reader.inside more) :
    Extends (deeper body) reader more := by
  by_cases full : reader.limits.maxDepth ≤ reader.depth
  · refine Or.inr ?_
    rw [deeper_refused full]
    exact deeper_refused full
  have room : reader.depth < reader.limits.maxDepth := Nat.lt_of_not_le full
  rcases ends with ⟨field, needed, remaining, after, run⟩ | same
  · exact Or.inl ⟨field, needed, remaining, after.leave, deeper_error room run⟩
  refine Or.inr ?_
  have room' : (reader.extend more).depth < (reader.extend more).limits.maxDepth := room
  cases run : body reader.inside with
  | error fault after =>
    rw [run] at same
    rw [deeper_error room run, deeper_error room' same]
    rfl
  | ok result after =>
    rw [run] at same
    rw [deeper_ok room run, deeper_ok room' same]
    rfl

/-- **A composed read looks at no byte that it does not take.** -/
theorem Composed.extends (composed : Composed body) (reader : Reader) (more : List UInt8) :
    Extends body reader more := by
  induction composed generalizing reader with
  | pure result => exact Or.inr rfl
  | throw fault => exact Or.inr rfl
  | tooDeep => exact Or.inr rfl
  | offset => exact Or.inr rfl
  | take field count =>
    by_cases room : count ≤ reader.remaining
    · have room' : count ≤ (reader.extend more).remaining :=
        Nat.le_trans room (List.sublist_append_left _ _).length_le
      refine Or.inr ?_
      rw [take_ok room, take_ok room', Reader.extend_advance room]
      exact congrArg (EStateM.Result.ok · _) (List.take_append_of_le_length room)
    · exact Or.inl ⟨_, _, _, _, take_short (Nat.lt_of_not_le room)⟩
  | takeByte field =>
    cases left : reader.rest with
    | nil => exact Or.inl ⟨_, _, _, _, takeByte_short left⟩
    | cons byte rest =>
      have left' : (reader.extend more).rest = byte :: (rest ++ more) := by
        rw [Reader.extend, left]
        rfl
      have room : 1 ≤ reader.remaining := by
        rw [Reader.remaining, left]
        exact Nat.succ_pos _
      refine Or.inr ?_
      rw [takeByte_ok left, takeByte_ok left', Reader.extend_advance room]
      rfl
  | bind _ _ first_ih second_ih => exact (first_ih reader).bind second_ih
  | atomic _ ih => exact (ih reader).atomic
  | deeper _ ih => exact (ih reader.inside).deeper
  | byLevels _ ih => exact ih reader.levels reader

/-! ### Whole streams -/

section Whole

variable {spells : α → List UInt8 → Prop} {bytes front : List UInt8} {limits : DecodeLimits}

/-- What a read that succeeds makes of a whole stream. -/
theorem whole_after (run : body { rest := bytes, limits := limits } = .ok result after) :
    whole body bytes limits =
      if !after.limits.allowTrailing && !after.isEmpty then
        .error (.wire (.trailingBytes after.remaining))
      else .ok result := by
  have rest : complete body { rest := bytes, limits := limits } =
      (finish >>= fun _ => Pure.pure result) after := bind_ok run
  unfold whole
  rw [rest]
  by_cases refused : (!after.limits.allowTrailing && !after.isEmpty) = true
  · have end_run : finish after = .error (.wire (.trailingBytes after.remaining)) after :=
      if_pos refused
    rw [bind_error end_run, if_pos refused]
  · have end_run : finish after = .ok () after := if_neg refused
    rw [bind_ok end_run, if_neg refused]
    rfl

/-- A stream is refused for its value, or for the bytes behind it. -/
theorem whole_error_cases {fault : Fault} (failed : whole body bytes limits = .error fault) :
    (∃ after, body { rest := bytes, limits := limits } = .error fault after) ∨
      ∃ result after, body { rest := bytes, limits := limits } = .ok result after ∧
        after.limits.allowTrailing = false ∧ after.isEmpty = false ∧
        fault = .wire (.trailingBytes after.remaining) := by
  cases run : body { rest := bytes, limits := limits } with
  | error fault' after =>
    cases (whole_error run).symm.trans failed
    exact Or.inl ⟨after, rfl⟩
  | ok result after =>
    rw [whole_after run] at failed
    by_cases refused : (!after.limits.allowTrailing && !after.isEmpty) = true
    · rw [if_pos refused] at failed
      cases failed
      rw [Bool.and_eq_true_iff, Bool.not_eq_true', Bool.not_eq_true'] at refused
      exact Or.inr ⟨result, after, rfl, refused.1, refused.2, rfl⟩
    · rw [if_neg refused] at failed
      cases failed

/-- **A stream cut short is refused for it**, wherever it is cut. -/
theorem Composed.whole_of_cut (composed : Composed body)
    (recognises : Recognises limits.maxDepth body spells) (spelled : spells result bytes)
    (begins : front <+: bytes) (cut : front ≠ bytes) :
    ∃ field needed remaining,
      whole body front limits = .error (.wire (.truncated field needed remaining)) := by
  obtain ⟨back, rfl⟩ := begins
  let short : Reader := { rest := front, limits := limits }
  rcases composed.extends short back with ⟨field, needed, remaining, after, run⟩ | same
  · exact ⟨field, needed, remaining, whole_error run⟩
  -- otherwise the read of the stream would leave the part that was cut off
  have run : body (short.extend back) = .ok result _ :=
    (recognises _ rfl _ _).mpr ⟨front ++ back, spelled, List.prefix_refl _, rfl⟩
  rw [same] at run
  cases short_run : body short with
  | error fault after =>
    rw [short_run] at run
    cases run
  | ok found after =>
    rw [short_run] at run
    injection run with _ places
    have ends : after.rest ++ back = [] := by
      have rests := congrArg Reader.rest places
      exact rests.trans List.drop_length
    rw [(List.append_eq_nil_iff.mp ends).2, List.append_nil] at cut
    exact absurd rfl cut

/-- A stream with bytes behind it is refused for them, unless they are allowed. -/
theorem Recognises.whole_of_trailing (recognises : Recognises limits.maxDepth body spells)
    (spelled : spells result bytes) (behind : more ≠ []) (closed : limits.allowTrailing = false) :
    whole body (bytes ++ more) limits = .error (.wire (.trailingBytes more.length)) := by
  let start : Reader := { rest := bytes ++ more, limits := limits }
  have run : body start = .ok result (start.advance bytes.length) :=
    (recognises start rfl _ _).mpr ⟨bytes, spelled, List.prefix_append _ _, rfl⟩
  have left : (start.advance bytes.length).rest = more := List.drop_left
  have closed' : (start.advance bytes.length).limits.allowTrailing = false := closed
  have open_ : (start.advance bytes.length).isEmpty = false := by
    rw [Reader.isEmpty, left]
    exact List.isEmpty_eq_false_iff.mpr behind
  rw [whole_after run, closed', open_, Reader.remaining, left]
  rfl

/-- **A fault does not heal** with more bytes, unless bytes were missing or too many. -/
theorem Composed.whole_error_of_extend (composed : Composed body)
    (failed : whole body bytes limits = .error fault)
    (long : ∀ field needed remaining, fault ≠ .wire (.truncated field needed remaining))
    (inside : ∀ count, fault ≠ .wire (.trailingBytes count)) (more : List UInt8) :
    whole body (bytes ++ more) limits = .error fault := by
  let start : Reader := { rest := bytes, limits := limits }
  cases run : body start with
  | error fault' after =>
    obtain rfl : fault' = fault := Except.error.inj ((whole_error run).symm.trans failed)
    rcases composed.extends start more with ⟨field, needed, remaining, after', run'⟩ | same
    · rw [run] at run'
      injection run' with truncated
      exact absurd truncated (long field needed remaining)
    · rw [run] at same
      exact whole_error same
  | ok result after =>
    -- only the end of the stream can be at fault
    rw [whole_after run] at failed
    split at failed
    · exact absurd (Except.error.inj failed).symm (inside _)
    · cases failed

end Whole

/-! ### The fields -/

theorem composed_takeWord (field : String) (width : Nat) : Composed (takeWord field width) :=
  (Composed.take field width).map LittleEndian.decode

theorem composed_byte : Composed byte :=
  .takeByte "u8"

theorem composed_bool : Composed bool := by
  refine .atomic (.bind .offset fun start => .bind (.takeByte "bool") fun byte => ?_)
  by_cases zero : byte = 0
  · rw [if_pos zero]
    exact .pure false
  rw [if_neg zero]
  by_cases one : byte = 1
  · rw [if_pos one]
    exact .pure true
  · rw [if_neg one]
    exact .throw _

theorem composed_uint32 : Composed uint32 :=
  (composed_takeWord "u32" 4).map _

theorem composed_int32 : Composed int32 :=
  (composed_takeWord "i32" 4).map _

theorem composed_int64 : Composed int64 :=
  (composed_takeWord "i64" 8).map _

theorem composed_double : Composed double :=
  (composed_takeWord "f64" 8).map _

theorem composed_text : Composed text := by
  refine .atomic (.bind .offset fun start => .bind composed_uint32 fun length =>
    .bind (.take "utf8" length.toNat) fun bytes => ?_)
  cases Utf8.decode bytes with
  | ok text => exact .pure text
  | error defect => exact .throw _

theorem composed_dataType : Composed dataType := by
  refine .atomic (.bind .offset fun start => .bind composed_byte fun tag => ?_)
  cases DataType.ofTag? tag with
  | some type => exact .pure type
  | none => exact .throw _

theorem composed_real64 : Composed real64 := by
  refine .bind .offset fun start => .bind composed_double fun raw => ?_
  cases Real64.ofDouble? raw with
  | some number => exact .pure number
  | none => exact .throw _

theorem composed_content (type : DataType) : Composed (content type) := by
  cases type with
  | undefined => exact .pure _
  | boolean => exact composed_bool.map _
  | int4 => exact composed_int32.map _
  | int8 => exact composed_int64.map _
  | float8 => exact composed_real64.map _
  | utf8 => exact composed_text.map _

theorem composed_value : Composed value :=
  .atomic (.bind composed_dataType composed_content)

end Read

end RowLogic
