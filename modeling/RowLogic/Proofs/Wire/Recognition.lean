/-
**What a read accepts.**

`Recognises levels body spells` says all that a successful read does: with so many levels of nesting
open, `body` succeeds exactly where the bytes that are left begin with a spelling of some result,
and it then gives that result and stands behind the spelling. Read from right to left it says that
whatever was written is read back, with any bytes behind it; from left to right, that nothing else
is accepted.

* `Recognises.map`, `Recognises.bind`, `Recognises.atomic`, `Recognises.deeper`: the spellings of a
  composed read are composed of the spellings of its parts;
* `Recognises.unique`: no spelling is the beginning of another one.
-/

import RowLogic.Wire.Emission
import RowLogic.Wire.Reader

namespace RowLogic

namespace Reader

/-- The levels of nesting that are still open. -/
def levels (reader : Reader) : Nat :=
  reader.limits.maxDepth - reader.depth

/-- The reader one level further in. -/
def inside (reader : Reader) : Reader :=
  { reader with depth := reader.depth + 1 }

theorem levels_inside (reader : Reader) : reader.inside.levels = reader.levels - 1 :=
  Nat.sub_add_eq _ _ _

@[simp] theorem rest_advance (reader : Reader) (count : Nat) :
    (reader.advance count).rest = reader.rest.drop count := rfl

theorem advance_advance (reader : Reader) (first second : Nat) :
    (reader.advance first).advance second = reader.advance (first + second) := by
  simp only [advance, List.drop_drop, Nat.add_assoc]

end Reader

namespace Read

variable {α β : Type} {levels : Nat}

/-- **A read recognises spellings.** It succeeds exactly where the rest of the stream begins with
one, and leaves the reader behind it. -/
def Recognises (levels : Nat) (body : Read α) (spells : α → List UInt8 → Prop) : Prop :=
  ∀ reader : Reader, reader.levels = levels → ∀ result after,
    body reader = .ok result after ↔
      ∃ bytes, spells result bytes ∧ bytes <+: reader.rest ∧ after = reader.advance bytes.length

/-! ### Runs of composed reads -/

theorem bind_ok {body : Read α} {next : α → Read β} {reader between : Reader} {middle : α}
    (run : body reader = .ok middle between) :
    (body >>= next) reader = next middle between := by
  show EStateM.bind body next reader = _
  rw [EStateM.bind, run]

theorem bind_error {body : Read α} {next : α → Read β} {reader between : Reader} {fault : Fault}
    (run : body reader = .error fault between) :
    (body >>= next) reader = .error fault between := by
  show EStateM.bind body next reader = _
  rw [EStateM.bind, run]

theorem bind_ok_iff {body : Read α} {next : α → Read β} {reader after : Reader} {result : β} :
    (body >>= next) reader = .ok result after ↔
      ∃ middle between, body reader = .ok middle between ∧
        next middle between = .ok result after := by
  cases run : body reader with
  | ok middle between =>
    rw [bind_ok run]
    constructor
    · exact fun run' => ⟨middle, between, rfl, run'⟩
    · intro given
      obtain ⟨_, _, same, run'⟩ := given
      cases same
      exact run'
  | error fault between =>
    rw [bind_error run]
    constructor
    · exact fun run' => nomatch run'
    · intro given
      obtain ⟨_, _, same, _⟩ := given
      cases same

theorem map_eq_bind (change : α → β) (body : Read α) :
    change <$> body = body >>= fun result => pure (change result) := by
  funext reader
  show EStateM.map change body reader = EStateM.bind body _ reader
  rw [EStateM.map, EStateM.bind]
  cases body reader <;> rfl

theorem enter_ok {reader : Reader} (room : reader.depth < reader.limits.maxDepth) :
    enter reader = .ok () reader.inside :=
  if_neg (Nat.not_le_of_lt room)

theorem deeper_ok {body : Read α} {reader after : Reader} {result : α}
    (room : reader.depth < reader.limits.maxDepth)
    (run : body reader.inside = .ok result after) :
    deeper body reader = .ok result after.leave := by
  unfold deeper
  rw [enter_ok room]
  dsimp only
  rw [run]

theorem deeper_error {body : Read α} {reader after : Reader} {fault : Fault}
    (room : reader.depth < reader.limits.maxDepth)
    (run : body reader.inside = .error fault after) :
    deeper body reader = .error fault after.leave := by
  unfold deeper
  rw [enter_ok room]
  dsimp only
  rw [run]

/-! ### Spellings of composed reads -/

/-- One spelling behind another one. -/
theorem append_prefix_iff {first second rest : List UInt8} :
    first ++ second <+: rest ↔ first <+: rest ∧ second <+: rest.drop first.length := by
  constructor
  · intro given
    obtain ⟨behind, rfl⟩ := given
    rw [List.append_assoc, List.drop_left]
    exact ⟨List.prefix_append _ _, List.prefix_append _ _⟩
  · intro given
    obtain ⟨⟨behind, rfl⟩, second_first⟩ := given
    rw [List.drop_left] at second_first
    exact (List.prefix_append_right_inj first).mpr second_first

theorem Recognises.congr {body : Read α} {spells spells' : α → List UInt8 → Prop}
    (recognises : Recognises levels body spells)
    (same : ∀ result bytes, spells result bytes ↔ spells' result bytes) :
    Recognises levels body spells' := by
  intro reader open_ result after
  rw [recognises reader open_ result after]
  simp only [same]

theorem Recognises.pure (result : α) :
    Recognises levels (Pure.pure result) fun other bytes => other = result ∧ bytes = [] := by
  intro reader _ other after
  constructor
  · intro run
    cases run
    exact ⟨[], ⟨rfl, rfl⟩, List.nil_prefix, rfl⟩
  · intro given
    obtain ⟨_, ⟨rfl, rfl⟩, _, rfl⟩ := given
    rfl

theorem Recognises.throw (fault : Fault) :
    Recognises levels (throw fault : Read α) fun _ _ => False := by
  intro reader _ result after
  constructor
  · exact fun run => nomatch run
  · exact fun ⟨_, impossible, _⟩ => impossible.elim

theorem Recognises.bind {body : Read α} {next : α → Read β} {spells : α → List UInt8 → Prop}
    {spells' : α → β → List UInt8 → Prop} (first : Recognises levels body spells)
    (second : ∀ middle, Recognises levels (next middle) (spells' middle)) :
    Recognises levels (body >>= next) fun result bytes =>
      ∃ middle front back, spells middle front ∧ spells' middle result back ∧
        bytes = front ++ back := by
  intro reader open_ result after
  rw [bind_ok_iff]
  constructor
  · intro given
    obtain ⟨middle, between, run, run'⟩ := given
    obtain ⟨front, spelled, front_first, rfl⟩ := (first reader open_ _ _).mp run
    obtain ⟨back, spelled', back_first, rfl⟩ :=
      (second middle (reader.advance front.length) open_ _ _).mp run'
    exact ⟨front ++ back, ⟨middle, front, back, spelled, spelled', rfl⟩,
      append_prefix_iff.mpr ⟨front_first, back_first⟩,
      by rw [Reader.advance_advance, List.length_append]⟩
  · intro given
    obtain ⟨_, ⟨middle, front, back, spelled, spelled', rfl⟩, both, rfl⟩ := given
    obtain ⟨front_first, back_first⟩ := append_prefix_iff.mp both
    refine ⟨middle, reader.advance front.length, ?_, ?_⟩
    · exact (first reader open_ _ _).mpr ⟨front, spelled, front_first, rfl⟩
    · refine (second middle (reader.advance front.length) open_ _ _).mpr
        ⟨back, spelled', back_first, ?_⟩
      rw [Reader.advance_advance, List.length_append]

theorem Recognises.map {body : Read α} {spells : α → List UInt8 → Prop} (change : α → β)
    (recognises : Recognises levels body spells) :
    Recognises levels (change <$> body) fun result bytes =>
      ∃ middle, spells middle bytes ∧ change middle = result := by
  rw [map_eq_bind]
  refine (recognises.bind fun middle => Recognises.pure (change middle)).congr
    fun result bytes => ?_
  constructor
  · intro given
    obtain ⟨middle, front, back, spelled, ⟨rfl, rfl⟩, rfl⟩ := given
    exact ⟨middle, by rwa [List.append_nil], rfl⟩
  · intro given
    obtain ⟨middle, spelled, rfl⟩ := given
    exact ⟨middle, bytes, [], spelled, ⟨rfl, rfl⟩, (List.append_nil bytes).symm⟩

/-- The place where a read begins does not decide whether it succeeds. -/
theorem Recognises.fromOffset {next : Nat → Read α} {spells : α → List UInt8 → Prop}
    (recognises : ∀ start, Recognises levels (next start) spells) :
    Recognises levels (offset >>= next) spells :=
  fun reader open_ result after => recognises reader.offset reader open_ result after

theorem Recognises.atomic {body : Read α} {spells : α → List UInt8 → Prop}
    (recognises : Recognises levels body spells) : Recognises levels (atomic body) spells := by
  intro reader open_ result after
  rw [← recognises reader open_ result after]
  unfold Read.atomic
  cases body reader with
  | ok _ _ => rfl
  | error _ _ => exact ⟨(fun run => nomatch run), (fun run => nomatch run)⟩

theorem Recognises.deeper {body : Read α} {spells : α → List UInt8 → Prop}
    (recognises : Recognises levels body spells) :
    Recognises (levels + 1) (deeper body) spells := by
  intro reader open_ result after
  have room : reader.depth < reader.limits.maxDepth := by
    unfold Reader.levels at open_
    omega
  have inside_open : reader.inside.levels = levels := by
    rw [Reader.levels_inside, open_, Nat.add_sub_cancel]
  refine ⟨fun run => ?_, ?_⟩
  · cases inside_run : body reader.inside with
    | ok found behind =>
      rw [deeper_ok room inside_run] at run
      cases run
      obtain ⟨bytes, spelled, first, rfl⟩ := (recognises _ inside_open _ _).mp inside_run
      exact ⟨bytes, spelled, first, rfl⟩
    | error fault behind =>
      rw [deeper_error room inside_run] at run
      cases run
  · intro given
    obtain ⟨bytes, spelled, first, rfl⟩ := given
    exact deeper_ok room ((recognises _ inside_open _ _).mpr ⟨bytes, spelled, first, rfl⟩)

/-- **No spelling is the beginning of another one**, and each spells one result. -/
theorem Recognises.unique {body : Read α} {spells : α → List UInt8 → Prop}
    (recognises : Recognises levels body spells) {first second rest : List UInt8}
    {result result' : α} (spelled : spells result first) (spelled' : spells result' second)
    (first_first : first <+: rest) (second_first : second <+: rest) :
    result = result' ∧ first = second := by
  let reader : Reader := { rest := rest, limits := { maxDepth := levels } }
  have run := (recognises reader rfl result _).mpr ⟨first, spelled, first_first, rfl⟩
  have run' := (recognises reader rfl result' _).mpr ⟨second, spelled', second_first, rfl⟩
  rw [run] at run'
  injection run' with same places
  have lengths : first.length = second.length := by
    have offsets := congrArg Reader.offset places
    simpa only [Reader.advance, Nat.zero_add, reader] using offsets
  have inside := List.prefix_of_prefix_length_le first_first second_first (Nat.le_of_eq lengths)
  exact ⟨same, inside.eq_of_length lengths⟩

/-! ### Whole streams -/

theorem finish_ok_iff {reader after : Reader} :
    finish reader = .ok () after ↔
      (reader.limits.allowTrailing = true ∨ reader.rest = []) ∧ after = reader := by
  unfold finish Reader.isEmpty
  cases allowed : reader.limits.allowTrailing <;> cases left : reader.rest <;>
    simp [eq_comm]

/-- **A whole stream is read** when it is a spelling, or begins with one and may go on. -/
theorem Recognises.whole_ok_iff {body : Read α} {spells : α → List UInt8 → Prop}
    {limits : DecodeLimits} (recognises : Recognises limits.maxDepth body spells)
    {bytes : List UInt8} {result : α} :
    whole body bytes limits = .ok result ↔
      ∃ front, spells result front ∧ front <+: bytes ∧
        (limits.allowTrailing = true ∨ front = bytes) := by
  let start : Reader := { rest := bytes, limits := limits }
  have complete_iff : ∀ after, complete body start = .ok result after ↔
      ∃ front, spells result front ∧ front <+: bytes ∧
        (limits.allowTrailing = true ∨ front = bytes) ∧ after = start.advance front.length := by
    intro after
    unfold complete
    rw [bind_ok_iff]
    refine ⟨?_, ?_⟩
    · intro given
      obtain ⟨middle, between, run, run'⟩ := given
      obtain ⟨_, last, end_run, same⟩ := bind_ok_iff.mp run'
      cases same
      obtain ⟨front, spelled, first, rfl⟩ := (recognises start rfl _ _).mp run
      obtain ⟨ended, rfl⟩ := finish_ok_iff.mp end_run
      refine ⟨front, spelled, first, ended.imp_right fun empty => ?_, rfl⟩
      exact first.eq_of_length_le (List.drop_eq_nil_iff.mp empty)
    · intro given
      obtain ⟨front, spelled, first, ended, rfl⟩ := given
      refine ⟨result, _, (recognises start rfl _ _).mpr ⟨front, spelled, first, rfl⟩, ?_⟩
      refine bind_ok_iff.mpr ⟨(), _, finish_ok_iff.mpr ⟨ended.imp_right fun same => ?_, rfl⟩, rfl⟩
      rw [Reader.rest_advance, same]
      exact List.drop_length
  unfold whole
  refine ⟨fun read => ?_, ?_⟩
  · cases run : complete body start with
    | ok found after =>
      rw [run] at read
      cases read
      obtain ⟨front, spelled, first, ended, _⟩ := (complete_iff after).mp run
      exact ⟨front, spelled, first, ended⟩
    | error fault after =>
      rw [run] at read
      cases read
  · intro given
    obtain ⟨front, spelled, first, ended⟩ := given
    have run : complete body { rest := bytes, limits := limits } = _ :=
      (complete_iff _).mpr ⟨front, spelled, first, ended, rfl⟩
    rw [run]

theorem whole_error {body : Read α} {bytes : List UInt8} {limits : DecodeLimits} {fault : Fault}
    {after : Reader} (run : body { rest := bytes, limits := limits } = .error fault after) :
    whole body bytes limits = .error fault := by
  have failed : complete body { rest := bytes, limits := limits } = .error fault after :=
    bind_error run
  unfold whole
  rw [failed]

end Read

end RowLogic
