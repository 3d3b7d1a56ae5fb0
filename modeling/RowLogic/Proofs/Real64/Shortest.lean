/-
**The shortest decimal belongs to one number.**

The decimal that is chosen for a number rounds to this number (`Span.contains_shortest`), and no
point rounds to two numbers (`Span.magnitude_eq_of_contains`): the reals of a number end where
those of the next one begin (`Span.below_succ`), and the end between them belongs to the one whose
significand is even (`Span.closed_succ`).
-/

import RowLogic.Proofs.Real64.Denotation
import RowLogic.Real64.Shortest

namespace RowLogic

namespace Double

/-- The next magnitude has the next fraction under the same exponent, or none under the next one. -/
theorem fields_succ (magnitude : Nat) :
    exponent (magnitude + 1) = exponent magnitude ∧
        fraction (magnitude + 1) = fraction magnitude + 1 ∨
      exponent (magnitude + 1) = exponent magnitude + 1 ∧
        fraction magnitude = 0xfffffffffffff ∧ fraction (magnitude + 1) = 0 := by
  unfold exponent fraction
  omega

/-- **The distance between neighbours** is a power of two. -/
theorem unitsOf_succ (magnitude : Nat) :
    unitsOf (magnitude + 1) = unitsOf magnitude + 2 ^ (exponent magnitude - 1) := by
  unfold unitsOf
  simp only [Nat.shiftLeft_eq]
  rcases fields_succ magnitude with ⟨same, next⟩ | ⟨higher, full, empty⟩
  · rw [same, next]
    by_cases least : exponent magnitude = 0
    · rw [if_pos least, if_pos least, least]
      rfl
    · rw [if_neg least, if_neg least, Nat.add_right_comm, Nat.succ_mul]
  · rw [higher, empty, full, if_neg (Nat.succ_ne_zero _), Nat.add_sub_cancel]
    by_cases least : exponent magnitude = 0
    · rw [if_pos least, least]
      rfl
    · obtain ⟨below, counted⟩ := Nat.exists_eq_add_one_of_ne_zero least
      rw [if_neg least, counted, Nat.add_sub_cancel, Nat.pow_succ]
      omega

end Double

namespace Span

variable {span : Span} {tie : Tie} {grid multiple : Nat}

/-! ### The point that is found -/

/-- A point of a grid that is found rounds to the number. -/
theorem contains_hit? (found : span.hit? tie grid = some multiple) :
    span.contains (multiple * grid) = true := by
  unfold hit? at found
  dsimp only at found
  split at found
  case h_1 => cases found
  case h_2 floor _ =>
    cases found
    exact floor
  case h_3 _ next =>
    cases found
    exact next
  case h_4 floor next =>
    -- whichever of the two is nearer, it is one of them
    have either : multiple = span.value / grid ∨ multiple = span.value / grid + 1 := by
      split at found
      · exact .inl (Option.some.inj found).symm
      split at found
      · exact .inr (Option.some.inj found).symm
      cases tie with
      | up => exact .inr (Option.some.inj found).symm
      | toEven =>
        rw [← Option.some.inj found]
        split
        · exact .inl rfl
        · exact .inr rfl
    rcases either with rfl | rfl
    · exact floor
    · exact next

/-- **The chosen point rounds to the number**, if the number itself does. -/
theorem contains_shortest (own : span.contains span.value = true) (tie : Tie) (widest : Nat) :
    span.contains ((span.shortest tie widest).1 * Nat.pow 10 (span.shortest tie widest).2) =
      true := by
  induction widest with
  | zero =>
    show span.contains (span.value * 1) = true
    rwa [Nat.mul_one]
  | succ widest ih =>
    unfold shortest
    cases found : span.hit? tie (Nat.pow 10 (widest + 1)) with
    | none => exact ih
    | some multiple => exact contains_hit? found

/-! ### The reals of neighbours -/

section Neighbours

open Double

/-- A quarter of the distance to the next number. -/
def quarter (magnitude : Nat) : Nat :=
  Nat.pow 5 1076 <<< (exponent magnitude - 1)

/-- How far the reals of a number reach below it. -/
def margin (magnitude : Nat) : Nat :=
  if fraction magnitude = 0 ∧ 1 < exponent magnitude then quarter magnitude
  else 2 * quarter magnitude

theorem below_ofMagnitude (magnitude : Nat) :
    (ofMagnitude magnitude).below = (ofMagnitude magnitude).value - margin magnitude := rfl

theorem above_ofMagnitude (magnitude : Nat) :
    (ofMagnitude magnitude).above = (ofMagnitude magnitude).value + 2 * quarter magnitude := rfl

theorem closed_ofMagnitude (magnitude : Nat) :
    (ofMagnitude magnitude).closed = decide (fraction magnitude % 2 = 0) := rfl

theorem five_pow_pos (exponent : Nat) : 0 < Nat.pow 5 exponent :=
  Nat.pow_pos (by decide)

/-- A name for the power of five, which is too large a numeral to compute with. -/
theorem exists_unit : ∃ unit, 0 < unit ∧ Nat.pow 5 1076 = unit := by
  simp only [exists_eq_right', five_pow_pos]

theorem quarter_pos (magnitude : Nat) : 0 < quarter magnitude := by
  obtain ⟨unit, positive, named⟩ := exists_unit
  rw [quarter, named, Nat.shiftLeft_eq]
  exact Nat.mul_pos positive (Nat.two_pow_pos _)

theorem value_zero : (ofMagnitude 0).value = 0 := by
  obtain ⟨unit, -, named⟩ := exists_unit
  have none : unitsOf 0 = 0 := rfl
  unfold ofMagnitude
  dsimp only
  rw [named, none, Nat.mul_zero, Nat.zero_mul]

theorem value_succ (magnitude : Nat) :
    (ofMagnitude (magnitude + 1)).value =
      (ofMagnitude magnitude).value + 4 * quarter magnitude := by
  obtain ⟨unit, -, named⟩ := exists_unit
  unfold ofMagnitude quarter
  dsimp only
  rw [unitsOf_succ, named, Nat.shiftLeft_eq]
  ring

/-- The reals of the next number reach half way down to this one. -/
theorem margin_succ (magnitude : Nat) : margin (magnitude + 1) = 2 * quarter magnitude := by
  obtain ⟨unit, -, named⟩ := exists_unit
  unfold margin quarter
  simp only [named, Nat.shiftLeft_eq]
  rcases fields_succ magnitude with ⟨same, next⟩ | ⟨higher, -, empty⟩
  · rw [same, next, if_neg (fun narrow => Nat.succ_ne_zero _ narrow.1)]
  · rw [higher, empty, Nat.add_sub_cancel]
    by_cases least : exponent magnitude = 0
    · rw [least, if_neg (by decide)]
    · obtain ⟨below, counted⟩ := Nat.exists_eq_add_one_of_ne_zero least
      rw [counted, if_pos ⟨rfl, by omega⟩, Nat.add_sub_cancel, Nat.pow_succ]
      ring

/-- **The reals of a number begin where those of the one before end.** -/
theorem below_succ (magnitude : Nat) :
    (ofMagnitude (magnitude + 1)).below = (ofMagnitude magnitude).above := by
  rw [below_ofMagnitude, above_ofMagnitude, value_succ, margin_succ]
  omega

/-- **Of two neighbours one keeps its ends.** -/
theorem closed_succ (magnitude : Nat) :
    (ofMagnitude (magnitude + 1)).closed = !(ofMagnitude magnitude).closed := by
  rw [closed_ofMagnitude, closed_ofMagnitude, ← decide_not, decide_eq_decide]
  rcases fields_succ magnitude with ⟨-, next⟩ | ⟨-, full, empty⟩ <;> omega

theorem above_lt_succ (magnitude : Nat) :
    (ofMagnitude magnitude).above < (ofMagnitude (magnitude + 1)).above := by
  rw [← below_succ, below_ofMagnitude, above_ofMagnitude]
  have positive := quarter_pos (magnitude + 1)
  omega

/-- A number rounds to itself. -/
theorem contains_value (magnitude : Nat) :
    (ofMagnitude magnitude).contains (ofMagnitude magnitude).value = true := by
  have positive := quarter_pos magnitude
  have margin_pos : 0 < margin magnitude := by
    unfold margin
    split <;> omega
  unfold contains
  split
  case isTrue closed =>
    rw [below_ofMagnitude, above_ofMagnitude, Bool.and_eq_true, decide_eq_true_iff,
      decide_eq_true_iff]
    omega
  case isFalse opened =>
    -- the fraction is odd, so the number is not zero
    have odd : fraction magnitude % 2 ≠ 0 := by
      rwa [closed_ofMagnitude, decide_eq_true_iff] at opened
    have not_zero : 0 < magnitude := by
      refine Nat.pos_of_ne_zero fun zero => odd ?_
      rw [zero]
      rfl
    have value_pos : 0 < (ofMagnitude magnitude).value := by
      have units_pos : 0 < unitsOf magnitude := Nat.zero_lt_of_lt (unitsOf_lt not_zero)
      obtain ⟨unit, unit_pos, named⟩ := exists_unit
      show 0 < 4 * unitsOf magnitude * Nat.pow 5 1076
      rw [named]
      exact Nat.mul_pos (Nat.mul_pos (by decide) units_pos) unit_pos
    rw [below_ofMagnitude, above_ofMagnitude, Bool.and_eq_true, decide_eq_true_iff,
      decide_eq_true_iff]
    omega

theorem bounds_of_contains {point : Nat} (contained : span.contains point = true) :
    span.below ≤ point ∧ point ≤ span.above ∧
      (span.closed = false → span.below < point ∧ point < span.above) := by
  unfold contains at contained
  cases closed : span.closed <;> simp [closed] at contained ⊢ <;> omega

variable {first second point : Nat}

/-- No point rounds to a number and to a later one. -/
theorem not_lt_of_contains (own : (ofMagnitude first).contains point = true)
    (other : (ofMagnitude second).contains point = true) : ¬ first < second := by
  intro less
  obtain ⟨before, rfl⟩ := Nat.exists_eq_add_one_of_ne_zero (Nat.ne_of_gt (Nat.zero_lt_of_lt less))
  obtain ⟨-, upper, inner⟩ := bounds_of_contains own
  obtain ⟨lower, -, inner'⟩ := bounds_of_contains other
  rw [below_succ] at lower inner'
  rcases Nat.lt_or_eq_of_le (Nat.le_of_lt_succ less) with further | rfl
  · have beyond := strictMono_nat_of_lt_succ above_lt_succ further
    omega
  · cases closed : (ofMagnitude first).closed with
    | true =>
      have opened := (closed_succ first).trans (congrArg not closed)
      have beyond := inner' opened
      omega
    | false =>
      have beyond := inner closed
      omega

/-- **No point rounds to two numbers.** -/
theorem magnitude_eq_of_contains (own : (ofMagnitude first).contains point = true)
    (other : (ofMagnitude second).contains point = true) : first = second :=
  Nat.le_antisymm (Nat.le_of_not_lt (not_lt_of_contains other own))
    (Nat.le_of_not_lt (not_lt_of_contains own other))

end Neighbours

end Span

/-! ### Decimals -/

namespace Decimal

/-- The decimal in units of `10 ^ -1076`. -/
def multiple (decimal : Decimal) : Nat :=
  decimal.digits * 10 ^ (decimal.exponent + 1076).toNat

theorem multiple_mk (digits k : Nat) :
    (Decimal.mk digits ((k : Int) - 1076)).multiple = digits * Nat.pow 10 k := by
  rw [multiple, Int.sub_add_cancel, Int.toNat_natCast]
  rfl

/-- **The shortest decimal rounds to its number.** -/
theorem contains_multiple (tie : Tie) (magnitude : Nat) :
    (Span.ofMagnitude magnitude).contains (ofMagnitude tie magnitude).multiple = true := by
  have chosen := Span.contains_shortest (Span.contains_value magnitude) tie
    ((Span.ofMagnitude magnitude).above.log2 * 31 / 100 + 1)
  unfold ofMagnitude
  rw [multiple_mk]
  exact chosen

end Decimal

end RowLogic
