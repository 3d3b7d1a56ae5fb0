/-
**UTF-8 text is read back, and nothing else is text.**

`Utf8.decode` judges a sequence by its leading byte and the range of its second one. `Sequence`
lists the sequences that it lets pass, each with its character, and these are exactly the encodings
of characters (`Sequence.encode_eq`, `sequence_encode`): the ranges leave out the overlong forms,
the surrogates and the numbers above the last code point, and nothing more. So

* `decodeFrom_eq_ok_iff`: bytes are read as some characters exactly when they are the encoding of
  these characters;
* `decode_eq_ok_iff`: the same for texts.
-/

import RowLogic.Bytes.Utf8

namespace RowLogic.Utf8

/-! ### The first two bytes of a sequence -/

theorem within_iff {low high byte : UInt8} :
    within low high byte = true ↔ low.toNat ≤ byte.toNat ∧ byte.toNat ≤ high.toNat := by
  simp only [within, Bool.and_eq_true, decide_eq_true_eq, UInt8.le_iff_toNat_le]

theorem isTrail_iff {byte : UInt8} :
    isTrail byte = true ↔ 0x80 ≤ byte.toNat ∧ byte.toNat ≤ 0xbf :=
  within_iff

/-- **The table of leading bytes**: what each number announces. -/
inductive Announces (number : Nat) : Lead → Prop where
  | single (below : number < 0x80) : Announces number .single
  | trail (above : 0x80 ≤ number) (below : number < 0xc2) : Announces number .none
  | two (above : 0xc2 ≤ number) (below : number < 0xe0) :
    Announces number (.sequence 2 0x80 0xbf)
  | afterE0 (equal : number = 0xe0) : Announces number (.sequence 3 0xa0 0xbf)
  | afterEd (equal : number = 0xed) : Announces number (.sequence 3 0x80 0x9f)
  | three (above : 0xe0 < number) (below : number < 0xf0) (other : number ≠ 0xed) :
    Announces number (.sequence 3 0x80 0xbf)
  | afterF0 (equal : number = 0xf0) : Announces number (.sequence 4 0x90 0xbf)
  | four (above : 0xf0 < number) (below : number < 0xf4) :
    Announces number (.sequence 4 0x80 0xbf)
  | afterF4 (equal : number = 0xf4) : Announces number (.sequence 4 0x80 0x8f)
  | beyond (above : 0xf5 ≤ number) : Announces number .none

/-- The announcement of a leading byte is the one of the table. -/
theorem announces_lead (byte : UInt8) : Announces byte.toNat (lead byte) := by
  have equal : ∀ other : UInt8, byte = other ↔ byte.toNat = other.toNat :=
    fun other => UInt8.toNat_inj.symm
  simp only [lead, UInt8.lt_iff_toNat_lt, equal]
  generalize byte.toNat = number
  show Announces number
    (if number < 0x80 then .single else if number < 0xc2 then .none
    else if number < 0xe0 then .sequence 2 0x80 0xbf
    else if number = 0xe0 then .sequence 3 0xa0 0xbf
    else if number = 0xed then .sequence 3 0x80 0x9f
    else if number < 0xf0 then .sequence 3 0x80 0xbf
    else if number = 0xf0 then .sequence 4 0x90 0xbf
    else if number < 0xf4 then .sequence 4 0x80 0xbf
    else if number = 0xf4 then .sequence 4 0x80 0x8f else .none)
  by_cases single : number < 0x80
  · rw [if_pos single]
    exact .single single
  rw [if_neg single]
  by_cases trail : number < 0xc2
  · rw [if_pos trail]
    exact .trail (by omega) trail
  rw [if_neg trail]
  by_cases two : number < 0xe0
  · rw [if_pos two]
    exact .two (by omega) two
  rw [if_neg two]
  by_cases e0 : number = 0xe0
  · rw [if_pos e0]
    exact .afterE0 e0
  rw [if_neg e0]
  by_cases ed : number = 0xed
  · rw [if_pos ed]
    exact .afterEd ed
  rw [if_neg ed]
  by_cases three : number < 0xf0
  · rw [if_pos three]
    exact .three (by omega) three ed
  rw [if_neg three]
  by_cases f0 : number = 0xf0
  · rw [if_pos f0]
    exact .afterF0 f0
  rw [if_neg f0]
  by_cases four : number < 0xf4
  · rw [if_pos four]
    exact .four (by omega) four
  rw [if_neg four]
  by_cases f4 : number = 0xf4
  · rw [if_pos f4]
    exact .afterF4 f4
  · rw [if_neg f4]
    exact .beyond (by omega)

theorem lead_single_iff {byte : UInt8} : lead byte = .single ↔ byte.toNat < 0x80 := by
  have table := announces_lead byte
  constructor
  · intro found
    rw [found] at table
    cases table with
    | single below => exact below
  · intro below
    revert table
    generalize lead byte = announced
    intro table
    cases table with
    | single _ => rfl
    | _ => omega

theorem lead_length {first low high : UInt8} {length : Nat}
    (announced : lead first = .sequence length low high) :
    length = 2 ∨ length = 3 ∨ length = 4 := by
  have table := announces_lead first
  rw [announced] at table
  cases table <;> simp

/-- A byte announces a sequence of some length, and another one may follow it. -/
def Opens (first second : UInt8) (length : Nat) : Prop :=
  ∃ low high, lead first = .sequence length low high ∧ within low high second = true

/-- Two bytes: the leading one has five bits of the number, the upper four of them not all zero. -/
theorem opens_two_iff {first second : UInt8} : Opens first second 2 ↔
    (0xc2 ≤ first.toNat ∧ first.toNat < 0xe0) ∧
      0x80 ≤ second.toNat ∧ second.toNat ≤ 0xbf := by
  have table := announces_lead first
  constructor
  · intro given
    obtain ⟨low, high, found, allowed⟩ := given
    rw [found] at table
    cases table with
    | two above below => exact ⟨⟨above, below⟩, within_iff.mp allowed⟩
  · intro given
    obtain ⟨⟨above, below⟩, trail⟩ := given
    simp only [Opens, within_iff]
    revert table
    generalize lead first = announced
    intro table
    cases table with
    | two _ _ => exact ⟨_, _, rfl, trail⟩
    | _ => omega

/-- Three bytes: the number is at least `0x800` and no surrogate. -/
theorem opens_three_iff {first second : UInt8} : Opens first second 3 ↔
    (0xe0 ≤ first.toNat ∧ first.toNat < 0xf0) ∧
      (0x80 ≤ second.toNat ∧ second.toNat ≤ 0xbf) ∧
      (first.toNat = 0xe0 → 0xa0 ≤ second.toNat) ∧
      (first.toNat = 0xed → second.toNat ≤ 0x9f) := by
  have table := announces_lead first
  constructor
  · intro given
    obtain ⟨low, high, found, allowed⟩ := given
    rw [found] at table
    have bounds := within_iff.mp allowed
    cases table with
    | afterE0 equal =>
      have range : 0xa0 ≤ second.toNat ∧ second.toNat ≤ 0xbf := bounds
      omega
    | afterEd equal =>
      have range : 0x80 ≤ second.toNat ∧ second.toNat ≤ 0x9f := bounds
      omega
    | three above below other =>
      have range : 0x80 ≤ second.toNat ∧ second.toNat ≤ 0xbf := bounds
      omega
  · intro given
    obtain ⟨⟨above, below⟩, trail, e0, ed⟩ := given
    simp only [Opens, within_iff]
    revert table
    generalize lead first = announced
    intro table
    cases table with
    | afterE0 equal => exact ⟨_, _, rfl, e0 equal, trail.2⟩
    | afterEd equal => exact ⟨_, _, rfl, trail.1, ed equal⟩
    | three _ _ _ => exact ⟨_, _, rfl, trail⟩
    | _ => omega

/-- Four bytes: the number lies between `0x10000` and `0x10ffff`. -/
theorem opens_four_iff {first second : UInt8} : Opens first second 4 ↔
    (0xf0 ≤ first.toNat ∧ first.toNat < 0xf5) ∧
      (0x80 ≤ second.toNat ∧ second.toNat ≤ 0xbf) ∧
      (first.toNat = 0xf0 → 0x90 ≤ second.toNat) ∧
      (first.toNat = 0xf4 → second.toNat ≤ 0x8f) := by
  have table := announces_lead first
  constructor
  · intro given
    obtain ⟨low, high, found, allowed⟩ := given
    rw [found] at table
    have bounds := within_iff.mp allowed
    cases table with
    | afterF0 equal =>
      have range : 0x90 ≤ second.toNat ∧ second.toNat ≤ 0xbf := bounds
      omega
    | afterF4 equal =>
      have range : 0x80 ≤ second.toNat ∧ second.toNat ≤ 0x8f := bounds
      omega
    | four above below =>
      have range : 0x80 ≤ second.toNat ∧ second.toNat ≤ 0xbf := bounds
      omega
  · intro given
    obtain ⟨⟨above, below⟩, trail, f0, f4⟩ := given
    simp only [Opens, within_iff]
    revert table
    generalize lead first = announced
    intro table
    cases table with
    | afterF0 equal => exact ⟨_, _, rfl, f0 equal, trail.2⟩
    | afterF4 equal => exact ⟨_, _, rfl, trail.1, f4 equal⟩
    | four _ _ => exact ⟨_, _, rfl, trail⟩
    | _ => omega

/-! ### Sequences and characters -/

/-- A sequence that the reader lets pass, and the character it makes of it. -/
inductive Sequence : List UInt8 → Char → Prop where
  | one {first : UInt8} (single : lead first = .single) :
    Sequence [first] (Char.ofNat first.toNat)
  | two {first second : UInt8} (opens : Opens first second 2) :
    Sequence [first, second] (Char.ofNat (codePoint (first.toNat % 32) [second]))
  | three {first second third : UInt8} (opens : Opens first second 3)
    (trails : isTrail third = true) :
    Sequence [first, second, third] (Char.ofNat (codePoint (first.toNat % 16) [second, third]))
  | four {first second third fourth : UInt8} (opens : Opens first second 4)
    (third_trails : isTrail third = true) (fourth_trails : isTrail fourth = true) :
    Sequence [first, second, third, fourth]
      (Char.ofNat (codePoint (first.toNat % 8) [second, third, fourth]))

theorem ofNat_eq_iff {byte : UInt8} {number : Nat} (small : number < 256) :
    UInt8.ofNat number = byte ↔ number = byte.toNat := by
  rw [← UInt8.toNat_inj, UInt8.toNat_ofNat_of_lt' small]

/-- The number of the character that is made from a number. -/
theorem toNat_char_ofNat {number : Nat} (valid : number.isValidChar) :
    (Char.ofNat number).val.toNat = number := by
  rw [Char.ofNat, dif_pos valid]
  rfl

/-- **A sequence that passes is the encoding of its character.** -/
theorem Sequence.encode_eq {bytes : List UInt8} {char : Char} (sequence : Sequence bytes char) :
    String.utf8EncodeChar char = bytes := by
  cases sequence with
  | @one first single =>
    have bound := lead_single_iff.mp single
    have valid : first.toNat.isValidChar := Or.inl (by omega)
    rw [String.utf8EncodeChar, toNat_char_ofNat valid, if_pos (by omega), UInt8.ofNat_toNat]
  | @two first second opens =>
    have bounds := opens_two_iff.mp opens
    generalize number_eq : codePoint (first.toNat % 32) [second] = number
    have value : number = 64 * (first.toNat % 32) + second.toNat % 64 := number_eq.symm
    have valid : number.isValidChar := Or.inl (by omega)
    rw [String.utf8EncodeChar, toNat_char_ofNat valid, if_neg (by omega), if_pos (by omega)]
    simp only [List.cons.injEq, and_true]
    refine ⟨?_, ?_⟩ <;> rw [ofNat_eq_iff (by omega)] <;> omega
  | @three first second third opens trails =>
    have bounds := opens_three_iff.mp opens
    have tail := isTrail_iff.mp trails
    generalize number_eq : codePoint (first.toNat % 16) [second, third] = number
    have value : number =
        64 * (64 * (first.toNat % 16) + second.toNat % 64) + third.toNat % 64 := number_eq.symm
    have valid : number.isValidChar := by
      show number < 0xd800 ∨ 0xdfff < number ∧ number < 0x110000
      omega
    rw [String.utf8EncodeChar, toNat_char_ofNat valid, if_neg (by omega), if_neg (by omega),
      if_pos (by omega)]
    simp only [List.cons.injEq, and_true]
    refine ⟨?_, ?_, ?_⟩ <;> rw [ofNat_eq_iff (by omega)] <;> omega
  | @four first second third fourth opens third_trails fourth_trails =>
    have bounds := opens_four_iff.mp opens
    have third_tail := isTrail_iff.mp third_trails
    have fourth_tail := isTrail_iff.mp fourth_trails
    generalize number_eq : codePoint (first.toNat % 8) [second, third, fourth] = number
    have value : number =
        64 * (64 * (64 * (first.toNat % 8) + second.toNat % 64) + third.toNat % 64) +
          fourth.toNat % 64 := number_eq.symm
    have valid : number.isValidChar := Or.inr (by omega)
    rw [String.utf8EncodeChar, toNat_char_ofNat valid, if_neg (by omega), if_neg (by omega),
      if_neg (by omega)]
    simp only [List.cons.injEq, and_true]
    refine ⟨?_, ?_, ?_, ?_⟩ <;> rw [ofNat_eq_iff (by omega)] <;> omega

/-- **The encoding of a character passes**, and the character is read back. -/
theorem sequence_encode (char : Char) : Sequence (String.utf8EncodeChar char) char := by
  have valid : char.val.toNat < 0xd800 ∨ 0xdfff < char.val.toNat ∧ char.val.toNat < 0x110000 :=
    char.valid
  have back : Char.ofNat char.val.toNat = char := Char.ofNat_toNat char
  rw [String.utf8EncodeChar]
  generalize char.val.toNat = number at valid back
  have byte : ∀ {small : Nat}, small < 256 → (UInt8.ofNat small).toNat = small :=
    UInt8.toNat_ofNat_of_lt'
  have trail := byte (show number % 0x40 + 0x80 < 256 by omega)
  have middle := byte (show number / 64 % 0x40 + 0x80 < 256 by omega)
  have upper := byte (show number / 4096 % 0x40 + 0x80 < 256 by omega)
  have trails : isTrail (UInt8.ofNat (number % 0x40 + 0x80)) = true := by
    rw [isTrail_iff, trail]
    omega
  -- the four lengths, by the size of the number
  by_cases one : number ≤ 0x7f
  · have first := byte (show number < 256 by omega)
    have passes := Sequence.one (lead_single_iff.mpr (by rw [first]; omega))
    rw [if_pos one]
    rwa [first, back] at passes
  rw [if_neg one]
  by_cases two : number ≤ 0x7ff
  · have first := byte (show number / 64 % 0x20 + 0xc0 < 256 by omega)
    have opens : Opens (UInt8.ofNat (number / 64 % 0x20 + 0xc0))
        (UInt8.ofNat (number % 0x40 + 0x80)) 2 := by
      rw [opens_two_iff, first, trail]
      omega
    have passes := Sequence.two opens
    rw [if_pos two]
    simp only [codePoint, List.foldl_cons, List.foldl_nil, first, trail] at passes
    rwa [show 64 * ((number / 64 % 0x20 + 0xc0) % 32) + (number % 0x40 + 0x80) % 64 = number by
      omega, back] at passes
  rw [if_neg two]
  by_cases three : number ≤ 0xffff
  · have first := byte (show number / 4096 % 0x10 + 0xe0 < 256 by omega)
    have opens : Opens (UInt8.ofNat (number / 4096 % 0x10 + 0xe0))
        (UInt8.ofNat (number / 64 % 0x40 + 0x80)) 3 := by
      rw [opens_three_iff, first, middle]
      omega
    have passes := Sequence.three opens trails
    rw [if_pos three]
    simp only [codePoint, List.foldl_cons, List.foldl_nil, first, middle, trail] at passes
    rwa [show 64 * (64 * ((number / 4096 % 0x10 + 0xe0) % 16) + (number / 64 % 0x40 + 0x80) % 64) +
      (number % 0x40 + 0x80) % 64 = number by omega, back] at passes
  · have first := byte (show number / 262144 % 0x08 + 0xf0 < 256 by omega)
    have opens : Opens (UInt8.ofNat (number / 262144 % 0x08 + 0xf0))
        (UInt8.ofNat (number / 4096 % 0x40 + 0x80)) 4 := by
      rw [opens_four_iff, first, upper]
      omega
    have third_trails : isTrail (UInt8.ofNat (number / 64 % 0x40 + 0x80)) = true := by
      rw [isTrail_iff, middle]
      omega
    have passes := Sequence.four opens third_trails trails
    rw [if_neg three]
    simp only [codePoint, List.foldl_cons, List.foldl_nil, first, upper, middle, trail] at passes
    rwa [show 64 * (64 * (64 * ((number / 262144 % 0x08 + 0xf0) % 8) +
      (number / 4096 % 0x40 + 0x80) % 64) + (number / 64 % 0x40 + 0x80) % 64) +
      (number % 0x40 + 0x80) % 64 = number by omega, back] at passes

/-! ### Reading a text -/

/-- The reader takes a sequence off the front of its bytes. -/
theorem Sequence.decodeFrom_append {bytes : List UInt8} {char : Char}
    (sequence : Sequence bytes char) (index : Nat) (rest : List UInt8) :
    decodeFrom index (bytes ++ rest) =
      (decodeFrom (index + bytes.length) rest).map (char :: ·) := by
  cases sequence with
  | one single =>
    rw [List.singleton_append, decodeFrom, single]
    rfl
  | two opens =>
    obtain ⟨low, high, announced, allowed⟩ := opens
    simp only [List.cons_append, List.nil_append]
    rw [decodeFrom, announced]
    simp only [allowed, Bool.not_true, Bool.false_eq_true, if_false, if_true]
    rfl
  | three opens trails =>
    obtain ⟨low, high, announced, allowed⟩ := opens
    simp only [List.cons_append, List.nil_append]
    rw [decodeFrom, announced]
    simp only [allowed, trails, Bool.not_true, Bool.false_eq_true, if_false, if_true,
      Nat.reduceEqDiff]
    rfl
  | four opens third_trails fourth_trails =>
    obtain ⟨low, high, announced, allowed⟩ := opens
    simp only [List.cons_append, List.nil_append]
    rw [decodeFrom, announced]
    simp only [allowed, third_trails, fourth_trails, Bool.not_true, Bool.false_eq_true, if_false,
      Nat.reduceEqDiff]
    rfl

theorem decodeFrom_encodeChars (chars : List Char) (index : Nat) :
    decodeFrom index (encodeChars chars) = .ok chars := by
  induction chars generalizing index with
  | nil => rw [encodeChars, List.flatMap_nil, decodeFrom]
  | cons char chars ih =>
    have split : encodeChars (char :: chars) = String.utf8EncodeChar char ++ encodeChars chars :=
      List.flatMap_cons
    rw [split, (sequence_encode char).decodeFrom_append, ih]
    rfl

theorem exists_of_map_cons {result : Except Defect (List Char)} {char : Char} {chars : List Char}
    (read : result.map (char :: ·) = .ok chars) :
    ∃ tail, result = .ok tail ∧ chars = char :: tail := by
  cases result with
  | error defect => cases read
  | ok tail => exact ⟨tail, rfl, (Except.ok.inj read).symm⟩

theorem Sequence.encodeChars_cons {bytes rest : List UInt8} {char : Char} {chars : List Char}
    (sequence : Sequence bytes char) (behind : encodeChars chars = rest) :
    encodeChars (char :: chars) = bytes ++ rest := by
  rw [← behind, ← sequence.encode_eq]
  exact List.flatMap_cons

theorem encodeChars_of_decodeFrom {index : Nat} {bytes : List UInt8} {chars : List Char}
    (read : decodeFrom index bytes = .ok chars) : encodeChars chars = bytes := by
  fun_induction decodeFrom index bytes generalizing chars with
  | case1 index =>
    cases read
    rfl
  | case2 index first rest single ih =>
    obtain ⟨tail, behind, rfl⟩ := exists_of_map_cons read
    exact (Sequence.one single).encodeChars_cons (ih behind)
  | case6 index first low high second rest allowed announced ih =>
    obtain ⟨tail, behind, rfl⟩ := exists_of_map_cons read
    have opens : Opens first second 2 := ⟨low, high, announced, by simpa using allowed⟩
    exact (Sequence.two opens).encodeChars_cons (ih behind)
  | case9 index first low high second allowed third rest trails announced _ ih =>
    obtain ⟨tail, behind, rfl⟩ := exists_of_map_cons read
    have opens : Opens first second 3 := ⟨low, high, announced, by simpa using allowed⟩
    exact (Sequence.three opens (by simpa using trails)).encodeChars_cons (ih behind)
  | case12 index first length low high announced second allowed two third third_trails three
      fourth rest fourth_trails ih =>
    obtain ⟨tail, behind, rfl⟩ := exists_of_map_cons read
    have four : length = 4 := by
      rcases lead_length announced with rfl | rfl | rfl
      · exact absurd rfl two
      · exact absurd rfl three
      · rfl
    subst four
    have opens : Opens first second 4 := ⟨low, high, announced, by simpa using allowed⟩
    exact (Sequence.four opens (by simpa using third_trails)
      (by simpa using fourth_trails)).encodeChars_cons (ih behind)
  | _ => cases read

/-- **Bytes are read as some characters exactly when they encode them.** -/
theorem decodeFrom_eq_ok_iff {index : Nat} {bytes : List UInt8} {chars : List Char} :
    decodeFrom index bytes = .ok chars ↔ encodeChars chars = bytes := by
  constructor
  · exact encodeChars_of_decodeFrom
  · rintro rfl
    exact decodeFrom_encodeChars chars index

/-- **Bytes are read as a text exactly when they encode it.** -/
theorem decode_eq_ok_iff {bytes : List UInt8} {text : String} :
    decode bytes = .ok text ↔ encode text = bytes := by
  rw [encode, ← decodeFrom_eq_ok_iff]
  unfold decode
  constructor
  · intro read
    cases found : decodeFrom 0 bytes with
    | error defect =>
      rw [found] at read
      cases read
    | ok chars =>
      rw [found] at read
      cases read
      rw [String.toList_ofList]
  · intro found
    rw [found]
    exact congrArg Except.ok String.ofList_toList

end RowLogic.Utf8
