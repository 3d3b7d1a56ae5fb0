/-
**Where and how bytes stop being UTF-8.**

`Reading` splits a list of bytes as the reader does: sequences of characters, and then the end, or
a sequence that goes wrong whatever follows, or one that the bytes end in. From this the defect that
is reported has its meaning:

* `index_isGreatest`: its index is the length of the longest part at the beginning that is a text;
* `incomplete_iff`: it is an incomplete sequence exactly when more bytes would make a text;
* `explains`: and the reason that is given says so, with the index in it.
-/

import Mathlib.Order.Bounds.Basic
import RowLogic.Proofs.Bytes.Text

namespace RowLogic.Utf8

variable {bytes : List UInt8} {defect : Defect} {index place : Nat}

/-! ### Bytes, taken apart -/

/-- The smallest byte that may stand second in a sequence may do so. -/
theorem opens_low {first low high : UInt8} {length : Nat}
    (announced : lead first = .sequence length low high) : Opens first low length := by
  refine ⟨low, high, announced, ?_⟩
  have table := announces_lead first
  rw [announced] at table
  cases table <;> decide

/-- A sequence of neither two nor three bytes has four. -/
theorem four_of_announced {first low high : UInt8} {length : Nat}
    (announced : lead first = .sequence length low high) (two : ¬ length = 2)
    (three : ¬ length = 3) : length = 4 := by
  rcases lead_length announced with rfl | rfl | rfl
  · exact absurd rfl two
  · exact absurd rfl three
  · rfl

/-- **Bytes as the reader takes them apart.** -/
inductive Reading : List UInt8 → Prop where
  /-- No byte is left. -/
  | finished : Reading []
  /-- A sequence, and what is behind it. -/
  | sequence {front rest : List UInt8} {char : Char} (passes : Sequence front char)
    (behind : Reading rest) : Reading (front ++ rest)
  /-- No sequence begins like this, whatever follows. -/
  | invalid {bytes : List UInt8} (length : Nat)
    (wrong : ∀ index more, decodeFrom index (bytes ++ more) = .error (.invalid index length)) :
    Reading bytes
  /-- The beginning of a sequence. -/
  | incomplete {bytes more : List UInt8} {char : Char} (passes : Sequence (bytes ++ more) char)
    (stops : ∀ index, decodeFrom index bytes = .error (.incomplete index)) : Reading bytes

/-- **Every list of bytes can be taken apart.** -/
theorem reading (bytes : List UInt8) : Reading bytes := by
  have trails : isTrail 0x80 = true := by decide
  -- the cases are the ends of the reader's own case analysis
  fun_induction decodeFrom 0 bytes with
  | case1 index => exact .finished
  | case2 index first rest single ih => exact .sequence (.one single) ih
  | case3 index first rest none =>
    refine .invalid 1 fun index more => ?_
    rw [List.cons_append, decodeFrom, none]
  | case4 index first length low high announced =>
    have stops : ∀ index, decodeFrom index [first] = .error (.incomplete index) := by
      intro index
      rw [decodeFrom, announced]
    have opens := opens_low announced
    rcases lead_length announced with rfl | rfl | rfl
    · have passes : Sequence ([first] ++ [low]) _ := .two opens
      exact .incomplete passes stops
    · have passes : Sequence ([first] ++ [low, 0x80]) _ := .three opens trails
      exact .incomplete passes stops
    · have passes : Sequence ([first] ++ [low, 0x80, 0x80]) _ := .four opens trails trails
      exact .incomplete passes stops
  | case5 index first length low high announced second rest refused =>
    refine .invalid 1 fun index more => ?_
    rw [List.cons_append, List.cons_append, decodeFrom, announced]
    simp only [refused, if_true]
  | case6 index first low high second rest allowed announced ih =>
    have opens : Opens first second 2 := ⟨low, high, announced, by simpa using allowed⟩
    exact .sequence (.two opens) ih
  | case7 index first length low high announced second allowed two =>
    have stops : ∀ index, decodeFrom index [first, second] = .error (.incomplete index) := by
      intro index
      rw [decodeFrom, announced]
      simp only [allowed, two, if_false, Bool.false_eq_true]
    have opens : Opens first second length := ⟨low, high, announced, by simpa using allowed⟩
    rcases lead_length announced with rfl | rfl | rfl
    · exact absurd rfl two
    · have passes : Sequence ([first, second] ++ [0x80]) _ := .three opens trails
      exact .incomplete passes stops
    · have passes : Sequence ([first, second] ++ [0x80, 0x80]) _ := .four opens trails trails
      exact .incomplete passes stops
  | case8 index first length low high announced second allowed two third rest refused =>
    refine .invalid 2 fun index more => ?_
    simp only [List.cons_append]
    rw [decodeFrom, announced]
    simp only [allowed, two, refused, if_true, if_false, Bool.false_eq_true]
  | case9 index first low high second allowed third rest third_trails announced _ ih =>
    have opens : Opens first second 3 := ⟨low, high, announced, by simpa using allowed⟩
    exact .sequence (.three opens (by simpa using third_trails)) ih
  | case10 index first length low high announced second allowed two third third_trails three =>
    have stops : ∀ index, decodeFrom index [first, second, third] = .error (.incomplete index) := by
      intro index
      rw [decodeFrom, announced]
      simp only [allowed, two, third_trails, three, if_false, Bool.false_eq_true]
    obtain rfl := four_of_announced announced two three
    have opens : Opens first second 4 := ⟨low, high, announced, by simpa using allowed⟩
    have passes : Sequence ([first, second, third] ++ [0x80]) _ :=
      .four opens (by simpa using third_trails) trails
    exact .incomplete passes stops
  | case11 index first length low high announced second allowed two third third_trails three
      fourth rest refused =>
    refine .invalid 3 fun index more => ?_
    simp only [List.cons_append]
    rw [decodeFrom, announced]
    simp only [allowed, two, third_trails, three, refused, if_true, if_false,
      Bool.false_eq_true]
  | case12 index first length low high announced second allowed two third third_trails three
      fourth rest fourth_trails ih =>
    obtain rfl := four_of_announced announced two three
    have opens : Opens first second 4 := ⟨low, high, announced, by simpa using allowed⟩
    exact .sequence (.four opens (by simpa using third_trails) (by simpa using fourth_trails)) ih

/-! ### What a defect says -/

/-- The reader takes characters off the front of its bytes. -/
theorem decodeFrom_encodeChars_append (chars : List Char) (index : Nat) (rest : List UInt8) :
    decodeFrom index (encodeChars chars ++ rest) =
      (decodeFrom (index + (encodeChars chars).length) rest).map (chars ++ ·) := by
  induction chars generalizing index with
  | nil =>
    show decodeFrom index rest = (decodeFrom index rest).map id
    cases decodeFrom index rest <;> rfl
  | cons char chars ih =>
    have split : encodeChars (char :: chars) = String.utf8EncodeChar char ++ encodeChars chars :=
      List.flatMap_cons
    rw [split, List.append_assoc, (sequence_encode char).decodeFrom_append, ih, List.length_append,
      ← Nat.add_assoc]
    cases decodeFrom _ rest <;> rfl

theorem error_of_map {α β : Type} {change : α → β} {result : Except Defect α}
    (failed : result.map change = .error defect) : result = .error defect := by
  cases result with
  | ok found => cases failed
  | error other => exact congrArg Except.error (Except.error.inj failed)

/-- The bytes in front of a defect are those of some characters. -/
theorem exists_front (failed : decodeFrom index bytes = .error defect) :
    ∃ chars stop, bytes = encodeChars chars ++ stop ∧
      defect.index = index + (encodeChars chars).length := by
  induction reading bytes generalizing index with
  | finished => cases failed
  | @sequence front rest char passes behind ih =>
    rw [passes.decodeFrom_append] at failed
    obtain ⟨chars, stop, rfl, place⟩ := ih (error_of_map failed)
    have split : encodeChars (char :: chars) = front ++ encodeChars chars :=
      passes.encodeChars_cons rfl
    refine ⟨char :: chars, stop, by rw [split, List.append_assoc], ?_⟩
    rw [place, split, List.length_append, Nat.add_assoc]
  | @invalid bytes length wrong =>
    have here := wrong index []
    rw [List.append_nil, failed] at here
    cases here
    exact ⟨[], bytes, rfl, rfl⟩
  | @incomplete bytes more char passes stops =>
    rw [stops index] at failed
    cases failed
    exact ⟨[], bytes, rfl, rfl⟩

/-- Nothing that follows mends a sequence that goes wrong. -/
theorem decodeFrom_append_of_invalid {length : Nat}
    (failed : decodeFrom index bytes = .error (.invalid place length)) (more : List UInt8) :
    decodeFrom index (bytes ++ more) = .error (.invalid place length) := by
  induction reading bytes generalizing index with
  | finished => cases failed
  | sequence passes behind ih =>
    rw [passes.decodeFrom_append] at failed
    rw [List.append_assoc, passes.decodeFrom_append, ih (error_of_map failed)]
    rfl
  | invalid length wrong =>
    have here := wrong index []
    rw [List.append_nil, failed] at here
    rw [wrong, here]
  | incomplete passes stops =>
    rw [stops index] at failed
    cases failed

/-- Some bytes complete what is incomplete. -/
theorem exists_completion (failed : decodeFrom index bytes = .error (.incomplete place)) :
    ∃ more chars, encodeChars chars = bytes ++ more := by
  induction reading bytes generalizing index with
  | finished => cases failed
  | @sequence front rest char passes behind ih =>
    rw [passes.decodeFrom_append] at failed
    obtain ⟨more, chars, completed⟩ := ih (error_of_map failed)
    refine ⟨more, char :: chars, ?_⟩
    rw [passes.encodeChars_cons completed, List.append_assoc]
  | @invalid bytes length wrong =>
    have here := wrong index []
    rw [List.append_nil, failed] at here
    cases here
  | @incomplete bytes more char passes stops =>
    exact ⟨more, [char], (passes.encodeChars_cons rfl).trans (List.append_nil _)⟩

/-- A sequence that goes wrong does so behind one to three of the bytes that are there. -/
theorem length_of_invalid {length : Nat}
    (failed : decodeFrom index bytes = .error (.invalid place length)) :
    0 < length ∧ length ≤ 3 ∧ place + length ≤ index + bytes.length := by
  fun_induction decodeFrom index bytes
  case case1 | case4 | case7 | case10 => cases failed
  case case2 ih | case6 ih | case9 ih | case12 ih =>
    have behind := ih (error_of_map failed)
    simp only [List.length_cons]
    omega
  case case3 | case5 | case8 | case11 =>
    -- the reader has seen at least as many bytes
    cases failed
    simp only [List.length_cons]
    omega

/-! ### Texts -/

theorem exists_text_iff : (∃ text, encode text = bytes) ↔ ∃ chars, encodeChars chars = bytes :=
  ⟨fun ⟨text, same⟩ => ⟨text.toList, same⟩,
    fun ⟨chars, same⟩ => ⟨String.ofList chars, by rw [encode, String.toList_ofList, same]⟩⟩

/-- **The index of a defect** is the length of the longest text at the beginning of the bytes. -/
theorem index_isGreatest (failed : decode bytes = .error defect) :
    IsGreatest {count | count ≤ bytes.length ∧ ∃ text, encode text = bytes.take count}
      defect.index := by
  have failed' := error_of_map failed
  refine ⟨?_, ?_⟩
  · obtain ⟨chars, stop, rfl, place⟩ := exists_front failed'
    rw [place, Nat.zero_add]
    refine ⟨(List.sublist_append_left _ _).length_le, exists_text_iff.mpr ⟨chars, ?_⟩⟩
    exact List.take_left.symm
  · intro count given
    obtain ⟨within, valid⟩ := given
    obtain ⟨chars, same⟩ := exists_text_iff.mp valid
    have size : (encodeChars chars).length = count := by
      rw [same, List.length_take, Nat.min_eq_left within]
    rw [← List.take_append_drop count bytes, ← same, decodeFrom_encodeChars_append] at failed'
    obtain ⟨_, _, _, place⟩ := exists_front (error_of_map failed')
    omega

/-- **A defect is an incomplete sequence** when more bytes would make a text. -/
theorem incomplete_iff (failed : decode bytes = .error defect) :
    defect = .incomplete defect.index ↔ ∃ more text, encode text = bytes ++ more := by
  have failed' := error_of_map failed
  simp only [exists_text_iff]
  cases defect with
  | incomplete place => exact iff_of_true rfl (exists_completion failed')
  | invalid place length =>
    refine iff_of_false nofun ?_
    intro given
    obtain ⟨more, chars, completed⟩ := given
    have wrong := decodeFrom_append_of_invalid failed' more
    rw [decodeFrom_eq_ok_iff.mpr completed] at wrong
    cases wrong

/-! ### Reasons -/

/-- **What the reason says of bytes that are no text.** It gives the length of the longest text that
they begin with; it speaks of an incomplete sequence exactly when more bytes would make a text, and
of an invalid one otherwise. -/
structure Explains (bytes : List UInt8) (index : Nat) (reason : String) : Prop where
  longest : IsGreatest {count | count ≤ bytes.length ∧ ∃ text, encode text = bytes.take count} index
  incomplete : reason = "incomplete utf-8 byte sequence from index " ++ toString index ↔
    ∃ more text, encode text = bytes ++ more
  invalid : (∀ more text, encode text ≠ bytes ++ more) → ∃ length, 0 < length ∧ length ≤ 3 ∧
    index + length ≤ bytes.length ∧ decode bytes = .error (.invalid index length) ∧
    reason = "invalid utf-8 sequence of " ++ toString length ++ " bytes from index " ++
      toString index

/-- The words for an invalid sequence are not those for an incomplete one. -/
theorem invalid_ne_incomplete (length joined index index' : String) :
    "invalid utf-8 sequence of " ++ length ++ joined ++ index ≠
      "incomplete utf-8 byte sequence from index " ++ index' := by
  have third (rest rest' : List Char) : "invalid utf-8 sequence of ".toList ++ rest ≠
      "incomplete utf-8 byte sequence from index ".toList ++ rest' := by
    intro same
    have letter : some 'v' = some 'c' := congrArg (fun chars : List Char => chars[2]?) same
    exact absurd letter (by decide)
  intro same
  have chars := congrArg String.toList same
  rw [String.toList_append, String.toList_append, String.toList_append, String.toList_append,
    List.append_assoc, List.append_assoc] at chars
  exact third _ _ chars

/-- **The words of a defect explain it.** -/
theorem explains (failed : decode bytes = .error defect) :
    Explains bytes defect.index defect.message := by
  have mended := incomplete_iff failed
  refine ⟨index_isGreatest failed, ?_, fun never => ?_⟩
  · cases defect with
    | incomplete place => exact iff_of_true rfl (mended.mp rfl)
    | invalid place length =>
      exact iff_of_false (invalid_ne_incomplete _ _ _ _) fun more =>
        nomatch mended.mpr more
  · cases defect with
    | incomplete place =>
      obtain ⟨more, text, completed⟩ := mended.mp rfl
      exact absurd completed (never more text)
    | invalid place length =>
      obtain ⟨some_byte, few, within⟩ := length_of_invalid (error_of_map failed)
      rw [Nat.zero_add] at within
      exact ⟨length, some_byte, few, within, failed, rfl⟩

end RowLogic.Utf8
