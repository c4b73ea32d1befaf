import Drumlin.Attributes

/-!
# Attributes of any type

A value in a `boost::any` is written by `stream_operator_impl` (drumlin.h), which the logger shares:
it writes a space in front of it.  The item of a `string_list` (string_list.cpp) gets the space too.
-/

namespace Drumlin

/-- The arithmetic types in `value_types`. -/
inductive NumberType
  | bool | short | unsignedShort | int | unsignedInt | long | unsignedLong | longLong
  | unsignedLongLong | float | double | longDouble
deriving DecidableEq, Repr

/-- A type in `value_types`. -/
inductive ValueType
  | number (type : NumberType)
  | string
deriving DecidableEq, Repr

/-- `value_types`. -/
def valueTypes : List ValueType :=
  [.number .bool, .number .short, .number .unsignedShort, .number .int, .number .unsignedInt,
    .number .long, .number .unsignedLong, .number .longLong, .number .unsignedLongLong,
    .number .float, .number .double, .number .longDouble, .string]

/-- `boost::any`: a number with its type, a string, or nothing that is written. -/
inductive AnyValue (Number : Type*)
  | number (type : NumberType) (value : Number)
  | string (value : Str)
  | other
deriving DecidableEq, Repr

namespace AnyValue

variable {Number : Type*} (print : NumberType → Number → Str)

/-- `stream_operator_impl::operator ()`, for one type; `print` is how a stream writes a number. -/
def streamOperator (p : AnyValue Number) (strm : Str) (type : ValueType) : Str :=
  match type, p with
  | .number type, number type' value =>
      if type' = type then strm ++ [32] ++ print type' value else strm
  | .string, string value => strm ++ [32] ++ value
  | _, _ => strm

/-- `boost::mpl::for_each` of the types. -/
def write (p : AnyValue Number) (strm : Str) : Str := valueTypes.foldl (streamOperator print p) strm

/-- The text of a value. -/
def text : AnyValue Number → Option Str
  | number type value => some (print type value)
  | string value => some value
  | other => none

/-- One of the types fits, and the value is written once, behind a space. -/
theorem write_eq (p : AnyValue Number) (strm : Str) :
    p.write print strm = strm ++ (p.text print).elim [] fun text => 32 :: text := by
  cases p with
  | number type value => cases type <;> simp [write, valueTypes, streamOperator, text]
  | string value => simp [write, valueTypes, streamOperator, text]
  | other => simp [write, valueTypes, streamOperator, text]

end AnyValue

namespace StringList

variable {Number : Type*} (print : NumberType → Number → Str)

/-- `operator <<` of a name and a string. -/
def insertPair (vecS : StringList) (pair : Str × Str) : StringList :=
  vecS ++ [pair.1 ++ [Str.equalsSign] ++ pair.2]

/-- `operator <<` of a name and a `boost::any`. -/
def insertAny (vecS : StringList) (pair : Str × AnyValue Number) : StringList :=
  vecS ++ [pair.2.write print (pair.1 ++ [Str.equalsSign])]

/-- Both ways to insert a string append the same item, and the conversion has the string for the
name. -/
structure InsertsAlike (vecS : StringList) (name value : Str) : Prop where
  same : insertAny print vecS (name, .string value) = insertPair vecS (name, value)
  any : (insertAny print [] (name, .string value)).toAttributeList[name]? = some value
  pair : (insertPair [] (name, value)).toAttributeList[name]? = some value

theorem insertPair_eq (vecS : StringList) (name value : Str) :
    insertPair vecS (name, value) = vecS ++ [Str.assign name value] := rfl

/-- A string in a `boost::any` becomes another string. -/
theorem insertAny_eq (vecS : StringList) (name value : Str) :
    insertAny print vecS (name, .string value) = vecS ++ [Str.assign name (32 :: value)] := by
  rw [insertAny, AnyValue.write_eq]
  rfl

/-- The conversion of one item. -/
theorem toAttributeList_assign {name value : Str} (clean : Str.equalsSign ∉ name)
    (sized : (Str.assign name value).length < Str.npos) :
    (toAttributeList [Str.assign name value])[name]? = some value := by
  refine (getElem?_toAttributeList (by simpa [Sized] using sized) (by simp)).mpr ?_
  rw [List.map_singleton, entryOf_assign clean]
  exact List.mem_singleton_self (name, value)

/-- What the conversion has for a name on either way: the space is a part of the value. -/
theorem getElem?_toAttributeList_insert {name value : Str} (clean : Str.equalsSign ∉ name)
    (sized : (Str.assign name (32 :: value)).length < Str.npos) :
    (insertAny print [] (name, .string value)).toAttributeList[name]? = some (32 :: value) ∧
      (insertPair [] (name, value)).toAttributeList[name]? = some value := by
  have shorter : (Str.assign name value).length < Str.npos := by
    rw [Str.length_assign, List.length_cons] at sized
    rw [Str.length_assign]
    omega
  rw [insertAny_eq, insertPair_eq, List.nil_append, List.nil_append]
  exact ⟨toAttributeList_assign clean sized, toAttributeList_assign clean shorter⟩

/-- The two ways never append the same item. -/
theorem not_insertsAlike (vecS : StringList) (name value : Str) :
    ¬InsertsAlike print vecS name value := by
  intro alike
  have same := alike.same
  rw [insertAny_eq, insertPair_eq, List.append_right_inj, List.singleton_inj] at same
  have lengths := congrArg List.length same
  rw [Str.length_assign, Str.length_assign, List.length_cons] at lengths
  omega

/-- `a` and `b`: one item is `a= b`, the other `a=b`. -/
theorem insertsAlike_fails :
    ¬∀ name value : Str, Str.equalsSign ∉ name →
      InsertsAlike (fun _ (_ : Unit) => []) [] name value := by
  intro always
  have same := (always [97] [98] (by decide)).same
  revert same
  decide

end StringList

end Drumlin
