/-
**What a failed encoding leaves behind.**

Nothing is taken back when an encoding fails, so the buffer keeps what was written before it did.
An expression is written in steps from left to right (`Emission.ofExpr_eq_ofSteps`), and the first
probe is the first step that cannot be done. The bytes that are left are those of the steps in front
of it. They are short of every encoding in which something else has the place of the probes
(`Expr.Fills.begins`), and hence of a stream that could be decoded.
-/

import RowLogic.Proofs.Expr.Delimited
import RowLogic.Proofs.Expr.Encoded
import RowLogic.Proofs.Expr.Size

namespace RowLogic

namespace Expr

/-! ### Steps of an encoding -/

/-- A step of writing an expression. -/
inductive Step where
  /-- A connective is entered. -/
  | opens
  /-- A leaf is written. -/
  | leaf (expr : Expr)
  /-- Both operands of a connective are written. -/
  | closes (kind : Connective)

namespace Step

/-- The bytes of a step: the tag of a connective that is entered, the encoding of a leaf, and what
stands for a connective behind its operands. -/
def bytes : Step → List UInt8
  | opens => [ExprTag.connective.byte]
  | leaf expr => (Emission.ofExpr expr).bytes
  | closes kind => [if kind.isOr then 1 else 0]

/-- The leaf is a probe. -/
def isProbe : Step → Bool
  | leaf (.probe _) => true
  | _ => false

/-- What the step writes, and the fault that it may end with. -/
def emission : Step → Emission
  | opens => .ofTag .connective
  | leaf expr => .ofExpr expr
  | closes kind => .ofConnective kind

theorem bytes_emission (step : Step) : step.emission.bytes = step.bytes := by
  cases step <;> rfl

theorem emission_of_isProbe {step : Step} (isProbe : step.isProbe = true) :
    step.emission = .fail (.notEncodable "probe") := by
  cases step with
  | leaf expr =>
    cases expr with
    | probe leaf => rfl
    | _ => cases isProbe
  | _ => cases isProbe

end Step

/-- The steps of writing an expression, in their order. -/
def steps : Expr → List Step
  | connective left right kind _ _ => .opens :: (left.steps ++ (right.steps ++ [.closes kind]))
  | leaf => [.leaf leaf]

/-- The steps in front of the first probe. -/
def stepsBeforeProbe (expr : Expr) : List Step :=
  expr.steps.takeWhile fun step => !step.isProbe

theorem any_isProbe_steps (expr : Expr) :
    (expr.steps.any fun step => step.isProbe) = true ↔ ¬expr.ProbeFree := by
  induction expr with
  | connective left right kind leftChecked rightChecked left_ih right_ih =>
    have parts : (connective left right kind leftChecked rightChecked).ProbeFree ↔
        left.ProbeFree ∧ right.ProbeFree := Iff.rfl
    rw [steps, List.any_cons, List.any_append, List.any_append, parts,
      Classical.not_and_iff_not_or_not, ← left_ih, ← right_ih]
    simp [Step.isProbe]
  | probe leaf => exact iff_of_true rfl id
  | _ => exact iff_of_false Bool.false_ne_true fun probe => probe trivial

theorem complete_of_probeFree {expr : Expr} (probeFree : expr.ProbeFree) (fits : expr.TextsFit) :
    (Emission.ofExpr expr).fault = none := by
  obtain ⟨bytes, encoded⟩ := exists_encode probeFree fits
  exact (Emission.result_eq_ok_iff.mp encoded).1

/-- Only probes keep a step from being done, if the texts fit. -/
theorem complete_of_mem_steps {expr : Expr} (fits : expr.TextsFit) :
    ∀ step ∈ expr.steps, step.isProbe = false → step.emission.fault = none := by
  induction expr with
  | connective left right kind _ _ left_ih right_ih =>
    intro step member possible
    rw [steps, List.mem_cons, List.mem_append, List.mem_append, List.mem_singleton] at member
    rcases member with rfl | in_left | in_right | rfl
    · rfl
    · exact left_ih fits.1 step in_left possible
    · exact right_ih fits.2 step in_right possible
    · rfl
  | probe leaf =>
    intro step member possible
    cases List.mem_singleton.mp member
    cases possible
  | constant | column | parameter =>
    intro step member _
    cases List.mem_singleton.mp member
    exact complete_of_probeFree trivial fits

end Expr

namespace Emission

/-- Steps one after the other. -/
def ofSteps (steps : List Expr.Step) : Emission :=
  steps.foldr (fun step rest => step.emission ++ rest) nil

theorem ofSteps_append (first second : List Expr.Step) :
    ofSteps (first ++ second) = ofSteps first ++ ofSteps second := by
  induction first with
  | nil => exact (nil_append _).symm
  | cons step first ih =>
    show step.emission ++ ofSteps (first ++ second) = step.emission ++ ofSteps first ++ _
    rw [ih, append_assoc]

/-- **An expression is written in its steps.** -/
theorem ofExpr_eq_ofSteps (expr : Expr) : ofExpr expr = ofSteps expr.steps := by
  induction expr with
  | connective left right kind _ _ left_ih right_ih =>
    have last : ofSteps [.closes kind] = ofConnective kind := append_nil _
    show ofTag .connective ++ (ofExpr left ++ (ofExpr right ++ ofConnective kind)) =
      ofTag .connective ++ ofSteps (left.steps ++ (right.steps ++ [.closes kind]))
    rw [ofSteps_append, ofSteps_append, ← left_ih, ← right_ih, last]
  | _ => exact (append_nil _).symm

/-- Steps are done up to the first probe, if nothing else stops them. -/
theorem ofSteps_eq {steps : List Expr.Step}
    (complete : ∀ step ∈ steps, step.isProbe = false → step.emission.fault = none) :
    ofSteps steps = ⟨(steps.takeWhile fun step => !step.isProbe).flatMap Expr.Step.bytes,
      if steps.any fun step => step.isProbe then some (.notEncodable "probe") else none⟩ := by
  induction steps with
  | nil => rfl
  | cons step steps ih =>
    show step.emission ++ ofSteps steps = _
    rw [List.takeWhile_cons, List.any_cons]
    cases isProbe : step.isProbe with
    | true =>
      rw [Expr.Step.emission_of_isProbe isProbe]
      rfl
    | false =>
      have done := complete step (List.mem_cons_self ..) isProbe
      have rest := ih fun step member => complete step (List.mem_cons_of_mem _ member)
      rw [append_of_complete done, rest, step.bytes_emission]
      rfl

/-- **What is written of an expression** are its steps in front of the first probe, and a probe is
the fault. -/
theorem ofExpr_eq {expr : Expr} (fits : expr.TextsFit) :
    ofExpr expr = ⟨expr.stepsBeforeProbe.flatMap Expr.Step.bytes,
      if expr.steps.any fun step => step.isProbe then some (.notEncodable "probe") else none⟩ := by
  rw [ofExpr_eq_ofSteps, ofSteps_eq (Expr.complete_of_mem_steps fits), Expr.stepsBeforeProbe]

/-! ### Beginnings -/

/-- The emission writes the stream, or is stopped short of its end. -/
def Begins (emission : Emission) (stream : List UInt8) : Prop :=
  match emission.fault with
  | none => emission.bytes = stream
  | some _ => emission.bytes <+: stream ∧ emission.bytes.length < stream.length

theorem begins_of_result {emission : Emission} {stream : List UInt8}
    (complete : emission.result = .ok stream) : emission.Begins stream := by
  obtain ⟨complete, written⟩ := result_eq_ok_iff.mp complete
  unfold Begins
  rw [complete]
  exact written

theorem Begins.append {first second : Emission} {front back : List UInt8}
    (first_begins : first.Begins front) (second_begins : second.Begins back) :
    (first ++ second).Begins (front ++ back) := by
  unfold Begins at first_begins second_begins ⊢
  cases first_stopped : first.fault with
  | some fault =>
    rw [first_stopped] at first_begins
    rw [append_of_fault first_stopped, first_stopped]
    refine ⟨first_begins.1.trans (List.prefix_append _ _), ?_⟩
    rw [List.length_append]
    exact Nat.lt_add_right _ first_begins.2
  | none =>
    rw [first_stopped] at first_begins
    obtain rfl : first.bytes = front := first_begins
    rw [append_of_complete first_stopped]
    cases second_stopped : second.fault with
    | some fault =>
      rw [second_stopped] at second_begins
      refine ⟨(List.prefix_append_right_inj _).mpr second_begins.1, ?_⟩
      rw [List.length_append, List.length_append]
      exact Nat.add_lt_add_left second_begins.2 _
    | none =>
      rw [second_stopped] at second_begins
      obtain rfl : second.bytes = back := second_begins
      rfl

end Emission

namespace Expr

/-! ### Probes replaced -/

/-- The second expression is the first with something that can be encoded in the place of each
probe, whatever is marked. -/
inductive Fills : Expr → Expr → Prop where
  | constant (value : Value) : Fills (.constant value) (.constant value)
  | column (index : UInt32) (type : DataType) : Fills (.column index type) (.column index type)
  | parameter (index : UInt32) (type : DataType) :
    Fills (.parameter index type) (.parameter index type)
  | probe (leaf : Probe) {filler : Expr} {bytes : List UInt8}
    (encoded : filler.encode = .ok bytes) : Fills (.probe leaf) filler
  | connective {left right left' right' : Expr} (kind : Connective)
    (leftChecked rightChecked leftChecked' rightChecked' : Bool)
    (left_fills : Fills left left') (right_fills : Fills right right') :
    Fills (.connective left right kind leftChecked rightChecked)
      (.connective left' right' kind leftChecked' rightChecked')

theorem length_pos_of_encode {expr : Expr} {bytes : List UInt8}
    (encoded : expr.encode = .ok bytes) : 0 < bytes.length := by
  have size := (spells_of_encode encoded).size_le
  have leaves := expr.leaves_eq
  unfold nodes at size
  omega

/-- **An unfinished encoding begins every finished one.** -/
theorem Fills.begins {expr filled : Expr} (fills : Fills expr filled) (fits : expr.TextsFit) :
    ∃ bytes, filled.encode = .ok bytes ∧ (Emission.ofExpr expr).Begins bytes := by
  induction fills with
  | constant value =>
    have probeFree : (Expr.constant value).ProbeFree := trivial
    obtain ⟨bytes, encoded⟩ := exists_encode probeFree fits
    exact ⟨bytes, encoded, Emission.begins_of_result encoded⟩
  | column index type => exact ⟨_, rfl, Emission.begins_of_result rfl⟩
  | parameter index type => exact ⟨_, rfl, Emission.begins_of_result rfl⟩
  | @probe leaf filler bytes encoded =>
    exact ⟨bytes, encoded, List.nil_prefix, length_pos_of_encode encoded⟩
  | connective kind _ _ _ _ _ _ left_ih right_ih =>
    obtain ⟨front, left_encoded, left_begins⟩ := left_ih fits.1
    obtain ⟨back, right_encoded, right_begins⟩ := right_ih fits.2
    refine ⟨_, encode_connective_iff.mpr ⟨front, back, left_encoded, right_encoded, rfl⟩, ?_⟩
    have entered : (Emission.ofTag .connective).Begins [ExprTag.connective.byte] :=
      Emission.begins_of_result rfl
    have closed : (Emission.ofConnective kind).Begins [if kind.isOr then 1 else 0] :=
      Emission.begins_of_result rfl
    exact entered.append (left_begins.append (right_begins.append closed))

/-- The expression with undefined in the place of each probe. -/
def withoutProbes : Expr → Expr
  | probe _ => constant .undefined
  | connective left right kind _ _ => combine kind left.withoutProbes right.withoutProbes
  | leaf => leaf

theorem fills_withoutProbes (expr : Expr) : Fills expr expr.withoutProbes := by
  induction expr with
  | constant value => exact .constant value
  | column index type => exact .column index type
  | parameter index type => exact .parameter index type
  | probe leaf => exact .probe leaf rfl
  | connective left right kind _ _ left_ih right_ih =>
    exact .connective kind _ _ _ _ left_ih right_ih

theorem depth_withoutProbes (expr : Expr) : expr.withoutProbes.depth = expr.depth := by
  induction expr with
  | connective left right kind _ _ left_ih right_ih =>
    rw [withoutProbes, combine, depth, depth, left_ih, right_ih]
  | _ => rfl

theorem unmarked_withoutProbes (expr : Expr) : expr.withoutProbes.Unmarked := by
  induction expr with
  | connective left right kind _ _ left_ih right_ih => exact ⟨left_ih, right_ih, rfl, rfl⟩
  | _ => trivial

/-! ### Failed encodings -/

theorem encode_error_iff {expr : Expr} (fits : expr.TextsFit) {fault : Fault} :
    expr.encode = .error fault ↔ ¬expr.ProbeFree ∧ fault = .notEncodable "probe" := by
  unfold encode
  rw [Emission.result_eq_error_iff, Emission.ofExpr_eq fits, ← any_isProbe_steps]
  dsimp only
  split
  case isTrue probe =>
    exact ⟨fun failed => ⟨probe, (Option.some.inj failed).symm⟩, fun given => by rw [given.2]⟩
  case isFalse probeFree => exact iff_of_false nofun fun given => probeFree given.1

/-- **A failed encoding leaves the beginning of every repaired one.** If the texts fit, encoding
fails for probes alone, and what stood in the buffer stays. What a failure adds to it is what was
done in front of the first probe: the tag of each connective that was entered, the complete
encodings of the leaves, and the connectives whose operands were both written. It is short of the
encoding of each expression that has something else in the place of the probes, and decoding runs
out of it under every limit that the depth is within. -/
theorem encode_unfinished (expr : Expr) (fits : expr.TextsFit) (writer : Writer) :
    ((∃ fault, expr.encode = .error fault) ↔ ¬expr.ProbeFree) ∧
    writer.bytes <+: (writer.write (Emission.ofExpr expr)).bytes ∧
    ∀ fault, expr.encode = .error fault →
      fault = .notEncodable "probe" ∧ fault.notice.code = "ENCODE_001" ∧
      ∃ left, (writer.write (Emission.ofExpr expr)).bytes = writer.bytes ++ left ∧
        left = expr.stepsBeforeProbe.flatMap Step.bytes ∧
        (∀ leaf, .leaf leaf ∈ expr.stepsBeforeProbe →
          leaf.encode = .ok (Step.leaf leaf).bytes) ∧
        (∀ filled, Fills expr filled →
          ∃ bytes, filled.encode = .ok bytes ∧ left <+: bytes ∧ left ≠ bytes) ∧
        ∀ limits : DecodeLimits, expr.depth ≤ limits.maxDepth →
          ∃ fault, decode left limits = .error fault ∧ fault.notice.code = "WIRE_001" := by
  refine ⟨⟨fun ⟨fault, failed⟩ => ((encode_error_iff fits).mp failed).1,
    fun probe => ⟨_, (encode_error_iff fits).mpr ⟨probe, rfl⟩⟩⟩, List.prefix_append _ _,
    fun fault failed => ?_⟩
  obtain ⟨probe, rfl⟩ := (encode_error_iff fits).mp failed
  have written := Emission.ofExpr_eq fits
  rw [if_pos (expr.any_isProbe_steps.mpr probe)] at written
  have short : ∀ filled, Fills expr filled → ∃ bytes, filled.encode = .ok bytes ∧
      (Emission.ofExpr expr).bytes <+: bytes ∧ (Emission.ofExpr expr).bytes ≠ bytes := by
    intro filled fills
    obtain ⟨bytes, encoded, begins⟩ := fills.begins fits
    rw [written] at begins ⊢
    exact ⟨bytes, encoded, begins.1, fun whole => Nat.ne_of_lt begins.2 (congrArg _ whole)⟩
  refine ⟨rfl, rfl, (Emission.ofExpr expr).bytes, rfl, by rw [written], ?leaves, short, ?decoded⟩
  case leaves =>
    intro leaf before
    have possible := List.all_eq_true.mp List.all_takeWhile _ before
    have member := (List.takeWhile_prefix _).subset before
    have complete : (Emission.ofExpr leaf).fault = none :=
      complete_of_mem_steps fits _ member (by simpa using possible)
    exact Emission.result_eq_ok_iff.mpr ⟨complete, rfl⟩
  case decoded =>
    intro limits shallow
    obtain ⟨bytes, encoded, begins, cut⟩ := short _ expr.fills_withoutProbes
    have readable : Read.Readable limits.maxDepth expr.withoutProbes bytes :=
      ⟨by rwa [depth_withoutProbes], expr.unmarked_withoutProbes, spells_of_encode encoded⟩
    have recognises := Read.recognises_nested limits.maxDepth
    obtain ⟨field, needed, remaining, refused⟩ : ∃ field needed remaining,
        decode (Emission.ofExpr expr).bytes limits =
          .error (.wire (.truncated field needed remaining)) :=
      Read.composed_nested.whole_of_cut recognises readable begins cut
    exact ⟨_, refused, rfl⟩

/-- A conjunction in a disjunction, stopped at its right operand behind a byte in the buffer. -/
theorem encode_unfinished_conjunction :
    let hole : Expr := probe ⟨"p", .boolean, []⟩
    let whole (operand : Expr) : Expr :=
      combine .or (combine .and (constant (.utf8 "hi")) operand) (column 3 .boolean)
    let left : List UInt8 := [4, 4, 1, 5, 2, 0, 0, 0, 0x68, 0x69]
    ((whole hole).TextsFit ∧ (whole hole).encode = .error (.notEncodable "probe")) ∧
      (Writer.write ⟨[7]⟩ (Emission.ofExpr (whole hole))).bytes = 7 :: left ∧
      (Fills (whole hole) (whole (constant (.boolean true))) ∧
        ∃ bytes, (whole (constant (.boolean true))).encode = .ok bytes ∧ left <+: bytes ∧
          left ≠ bytes) ∧
      (whole hole).depth ≤ 3 ∧
        ∃ fault, decode left { maxDepth := 3 } = .error fault ∧
          fault.notice.code = "WIRE_001" := by
  intro hole whole left
  have short : (Utf8.encode "hi").length < 0x100000000 := by decide
  have fits : (whole hole).TextsFit := ⟨⟨short, trivial⟩, trivial⟩
  have failed : (whole hole).encode = .error (.notEncodable "probe") := rfl
  have fills : Fills (whole hole) (whole (constant (.boolean true))) :=
    .connective .or _ _ _ _ (.connective .and _ _ _ _ (.constant _) (.probe _ rfl)) (.column _ _)
  obtain ⟨-, -, stopped⟩ := encode_unfinished (whole hole) fits ⟨[7]⟩
  obtain ⟨-, -, added, buffer, -, -, begun, refused⟩ := stopped _ failed
  obtain rfl : left = added := List.cons.inj buffer |>.2
  exact ⟨⟨fits, failed⟩, buffer, ⟨fills, begun _ fills⟩, by decide,
    refused { maxDepth := 3 } (by decide)⟩

end Expr

end RowLogic
