/-
**Native types as values.**

Lean types that stand for a data type (`HasDataType`) and those whose members are values
(`ToValue`). An optional member that is missing is undefined, however often it is wrapped.
-/

import RowLogic.Value.Basic

namespace RowLogic

/-- A Lean type whose members are values of one data type. -/
class HasDataType (α : Type) where
  /-- The data type of the members. -/
  dataType : DataType

instance : HasDataType Bool := ⟨.boolean⟩
instance : HasDataType Int32 := ⟨.int4⟩
instance : HasDataType Int64 := ⟨.int8⟩
instance : HasDataType Double := ⟨.float8⟩
instance : HasDataType Real64 := ⟨.float8⟩
instance : HasDataType String := ⟨.utf8⟩

/-- A Lean type whose members can be turned into values. -/
class ToValue (α : Type) where
  /-- The value of a member. -/
  toValue : α → Value

export ToValue (toValue)

instance : ToValue Value := ⟨id⟩
instance : ToValue Bool := ⟨.boolean⟩
instance : ToValue Int32 := ⟨.int4⟩
instance : ToValue Int64 := ⟨.int8⟩
instance : ToValue Double := ⟨Value.ofDouble⟩
instance : ToValue Real64 := ⟨.float8⟩
instance : ToValue String := ⟨.utf8⟩

instance {α : Type} [ToValue α] : ToValue (Option α) where
  toValue
    | some member => toValue member
    | none => .undefined

end RowLogic
