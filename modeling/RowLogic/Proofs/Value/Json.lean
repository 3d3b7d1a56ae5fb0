/-
**A value goes through JSON unchanged, or is refused.**

A value is read back from its text (`Value.ofJsonBy?_toJson`). The one exception are the infinities:
their text holds `null` for the number, which is refused (`Value.ofJsonBy?_infinite`).

Texts that no value is written as are read as well: an integer for a number, escapes, blanks, a
negative zero. What is read of them is a value, and so it is read back from its own text. A number
in it is the one that the reader of numbers names, but for the negative zero, which becomes the
positive one (`Value.exists_of_ofJsonBy?_float8`).

That a number survives takes a reader of numbers that gives it back (`Numeral.ReadsBack`). One that
rounds once does so for every number (`Numeral.readsBack_toNearest?`); the other values need none.
-/

import RowLogic.Proofs.Json.Decimals
import RowLogic.Proofs.Json.RoundTrip
import RowLogic.Proofs.Real64.Patterns
import RowLogic.Value.Json

namespace RowLogic

variable {reader : Numeral → Option Double}

/-! ### Numbers -/

namespace Real64

variable {number : Real64} {double : Double} {numeral : Numeral}

/-- A number is read as itself. -/
theorem ofDouble?_double (number : Real64) : ofDouble? number.double = some number :=
  ofDouble?_eq_some_iff.mpr (.inl rfl)

/-- A finite number is read back, by a reader of numbers that gives it back. -/
theorem ofJsonBy?_toJson (exact : Numeral.ReadsBack reader number)
    (finite : number.isInfinite = false) : ofJsonBy? reader number.toJson = some number := by
  unfold toJson
  cases written : Numeral.ofReal64? number with
  | none =>
    rw [ofReal64?_eq_none_iff.mp written] at finite
    cases finite
  | some numeral =>
    show (reader numeral).bind ofDouble? = some number
    rw [exact numeral written]
    exact ofDouble?_double number

/-- An infinity is written as `null`. -/
theorem toJson_infinite (infinite : number.isInfinite = true) : number.toJson = .null := by
  rw [toJson, ofReal64?_eq_none_iff.mpr infinite]

theorem wellFormed_toJson (number : Real64) : number.toJson.WellFormed := by
  unfold toJson
  cases written : Numeral.ofReal64? number with
  | none => exact .null
  | some numeral => exact .number (wellFormed_ofReal64? written)

/-- A number that is read is the one that the reader names, or its zero. -/
theorem exists_of_ofJsonBy? {json : Json} (read : ofJsonBy? reader json = some number) :
    ∃ numeral double, json = .number numeral ∧ reader numeral = some double ∧
      ofDouble? double = some number := by
  unfold ofJsonBy? at read
  split at read
  case h_1 numeral =>
    obtain ⟨double, named, known⟩ := Option.bind_eq_some_iff.mp read
    exact ⟨numeral, double, rfl, named, known⟩
  case h_2 => cases read

end Real64

/-! ### Values -/

namespace Value

variable {value : Value} {json : Json}

/-- The value is one of the two infinities. -/
def isInfinite : Value → Bool
  | float8 number => number.isInfinite
  | _ => false

/-- The reader of numbers gives back the number of a value, if that is one. -/
def ReadsBack (reader : Numeral → Option Double) (value : Value) : Prop :=
  ∀ number, value = float8 number → Numeral.ReadsBack reader number

/-- To round once is to give back the number of every value. -/
theorem readsBack_toNearest? (value : Value) : value.ReadsBack Numeral.toNearest? :=
  fun number _ => Numeral.readsBack_toNearest? number

theorem wellFormed_contentJson (value : Value) : value.contentJson.WellFormed := by
  cases value with
  | undefined => exact .null
  | boolean truth => exact .bool truth
  | int4 number => exact .number (Numeral.wellFormed_ofInt number.toInt)
  | int8 number => exact .number (Numeral.wellFormed_ofInt number.toInt)
  | float8 number => exact number.wellFormed_toJson
  | utf8 text => exact .text text

/-- A value with a content is written as one entry. -/
theorem toJson_cases (value : Value) :
    value = undefined ∨ value.toJson = .object [(value.dataType.name, value.contentJson)] := by
  cases value with
  | undefined => exact .inl rfl
  | _ => exact .inr rfl

/-- The document of a value can be printed. -/
theorem wellFormed_toJson (value : Value) : value.toJson.WellFormed := by
  rcases value.toJson_cases with rfl | entry
  · exact .text _
  · rw [entry]
    refine .object fun entry member => ?_
    rw [List.mem_singleton.mp member]
    exact value.wellFormed_contentJson

/-- The content of a value is read back. -/
theorem ofContentJsonBy?_contentJson (exact : value.ReadsBack reader)
    (finite : value.isInfinite = false) :
    ofContentJsonBy? reader value.dataType value.contentJson = some value := by
  cases value with
  | undefined => rfl
  | boolean truth => rfl
  | int4 number =>
    show (Numeral.ofInt number.toInt).toInt32?.map int4 = _
    rw [Numeral.toInt32?_ofInt]
    rfl
  | int8 number =>
    show (Numeral.ofInt number.toInt).toInt64?.map int8 = _
    rw [Numeral.toInt64?_ofInt]
    rfl
  | float8 number =>
    show (Real64.ofJsonBy? reader number.toJson).map float8 = _
    rw [Real64.ofJsonBy?_toJson (exact number rfl) finite]
    rfl
  | utf8 text => rfl

/-- An entry from the name of a type is read as the content of this type. -/
theorem ofJsonBy?_entry (type : DataType) (content : Json) :
    ofJsonBy? reader (.object [(type.name, content)]) = ofContentJsonBy? reader type content := by
  unfold ofJsonBy?
  dsimp only
  rw [DataType.ofName?_name]

/-- **A value is read back from its document**, unless it is infinite. -/
theorem ofJsonBy?_toJson (exact : value.ReadsBack reader) (finite : value.isInfinite = false) :
    ofJsonBy? reader value.toJson = some value := by
  rcases value.toJson_cases with rfl | entry
  · rfl
  · rw [entry, ofJsonBy?_entry]
    exact ofContentJsonBy?_contentJson exact finite

/-- **An infinity is refused.** -/
theorem ofJsonBy?_infinite (infinite : value.isInfinite = true) :
    ofJsonBy? reader value.toJson = none := by
  cases value with
  | float8 number =>
    show ofJsonBy? reader (.object [(DataType.float8.name, number.toJson)]) = none
    rw [ofJsonBy?_entry, Real64.toJson_infinite infinite]
    rfl
  | _ => cases infinite

/-- Only a content of the type of numbers is read as a number. -/
theorem eq_of_ofContentJsonBy?_float8 {type : DataType} {content : Json} {number : Real64}
    (read : ofContentJsonBy? reader type content = some (float8 number)) :
    type = .float8 ∧ Real64.ofJsonBy? reader content = some number := by
  unfold ofContentJsonBy? at read
  split at read
  case h_5 =>
    obtain ⟨number', read, same⟩ := Option.map_eq_some_iff.mp read
    cases same
    exact ⟨rfl, read⟩
  all_goals simp at read

/-- **A number comes from a number in the document**, as the reader of numbers names it. -/
theorem exists_of_ofJsonBy?_float8 {number : Real64}
    (read : ofJsonBy? reader json = some (float8 number)) :
    ∃ numeral double, json = .object [(DataType.float8.name, .number numeral)] ∧
      reader numeral = some double ∧ Real64.ofDouble? double = some number := by
  unfold ofJsonBy? at read
  split at read
  case h_1 =>
    split at read <;> cases read
  case h_2 name content =>
    cases typed : DataType.ofName? name with
    | none =>
      rw [typed] at read
      cases read
    | some type =>
      rw [typed] at read
      dsimp only at read
      obtain ⟨rfl, content⟩ := eq_of_ofContentJsonBy?_float8 read
      obtain ⟨numeral, double, rfl, named, known⟩ := Real64.exists_of_ofJsonBy? content
      refine ⟨numeral, double, ?_, named, known⟩
      rw [DataType.name_of_ofName? typed]
  case h_3 => cases read

/-- What is printed of a value is its document. -/
theorem bind_parse?_print (value : Value) :
    (Json.parse? value.toJson.print).bind (ofJsonBy? reader) = ofJsonBy? reader value.toJson := by
  rw [Json.parse?_print value.wellFormed_toJson]
  rfl

/-- **A value goes through JSON unchanged, or is refused.** It is read back from its text, but an
infinity is refused. Whatever a text is read as holds no NaN and no negative zero, and is read back
from its own text as well. -/
theorem preserved_or_refused (reader : Numeral → Option Double) :
    (∀ value : Value,
      (value.isInfinite = false → value.ReadsBack reader →
        (Json.parse? value.toJson.print).bind (ofJsonBy? reader) = some value) ∧
      (value.isInfinite = true →
        (Json.parse? value.toJson.print).bind (ofJsonBy? reader) = none)) ∧
    ∀ text value, (Json.parse? text).bind (ofJsonBy? reader) = some value →
      (∀ number, value = float8 number →
        number.double.isNaN = false ∧ number.double ≠ ⟨0x8000000000000000⟩ ∧
        ∃ numeral double,
          Json.parse? text = some (.object [(DataType.float8.name, .number numeral)]) ∧
          reader numeral = some double ∧
          (double = number.double ∨ double = ⟨0x8000000000000000⟩ ∧ number = .zero)) ∧
      (value.isInfinite = false → value.ReadsBack reader →
        (Json.parse? value.toJson.print).bind (ofJsonBy? reader) = some value) := by
  have preserved (value : Value) (finite : value.isInfinite = false)
      (exact : value.ReadsBack reader) :
      (Json.parse? value.toJson.print).bind (ofJsonBy? reader) = some value := by
    rw [bind_parse?_print]
    exact ofJsonBy?_toJson exact finite
  refine ⟨fun value => ⟨preserved value, fun infinite => ?_⟩,
    fun text value read => ⟨?_, preserved value⟩⟩
  · rw [bind_parse?_print]
    exact ofJsonBy?_infinite infinite
  · rintro number rfl
    obtain ⟨json, parsed, read⟩ := Option.bind_eq_some_iff.mp read
    obtain ⟨numeral, double, rfl, named, known⟩ := exists_of_ofJsonBy?_float8 read
    refine ⟨number.not_nan, number.double_ne_negative, numeral, double, parsed, named, ?_⟩
    exact Real64.ofDouble?_eq_some_iff.mp known

/-- One and a half is read back, minus infinity is refused, and a negative zero is read as the
positive one, which is read back. -/
theorem preserved_or_refused_negative :
    let number : Real64 := ⟨⟨0x3ff8000000000000⟩, by decide, by decide⟩
    let infinite : Real64 := ⟨⟨0xfff0000000000000⟩, by decide, by decide⟩
    (Json.parse? (float8 number).toJson.print).bind ofJson? = some (float8 number) ∧
      (Json.parse? (float8 number).toJson.print).bind (ofJsonBy? Numeral.toNearest?) =
        some (float8 number) ∧
      (Json.parse? (float8 infinite).toJson.print).bind ofJson? = none ∧
      (Json.parse? " \x7b\"Float8\": -0.0\x7d").bind ofJson? = some (float8 .zero) ∧
      Real64.zero.double ≠ ⟨0x8000000000000000⟩ ∧
      (Json.parse? (float8 .zero).toJson.print).bind ofJson? = some (float8 .zero) := by
  intro number infinite
  have number_read : (float8 number).ReadsBack Numeral.toDouble? := by
    rintro _ ⟨⟩ numeral written
    have digits : Numeral.ofReal64? number = some { whole := ['1'], fraction := ['5'] } := by
      decide +kernel
    rw [digits] at written
    cases written
    decide +kernel
  have zero_read : (float8 .zero).ReadsBack Numeral.toDouble? := by
    rintro _ ⟨⟩ numeral written
    cases written
    decide +kernel
  have spelled : (Json.parse? " \x7b\"Float8\": -0.0\x7d").bind ofJson? = some (float8 .zero) := by
    decide +kernel
  obtain ⟨own, accepted⟩ := preserved_or_refused Numeral.toDouble?
  obtain ⟨named, again⟩ := accepted _ _ spelled
  exact ⟨(own (float8 number)).1 (by decide) number_read,
    ((preserved_or_refused Numeral.toNearest?).1 (float8 number)).1 (by decide)
      (readsBack_toNearest? _),
    (own (float8 infinite)).2 (by decide), spelled, (named .zero rfl).2.1,
    again (by decide) zero_read⟩

end Value

end RowLogic
