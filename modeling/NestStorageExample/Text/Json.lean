import NestStorageExample.Text.CodeUnits

/-! JSON values as a script holds them, `undefined` as `none`, and what `typeof` and a
property access say of them. -/
namespace NestStorageExample.Text

/-- A number: a finite value, or one of the three that are not finite. -/
inductive JsNumber where
  | finite (value : Rat)
  | infinite (negative : Bool)
  | nan
  deriving DecidableEq, Repr

inductive Json where
  | null
  | bool (b : Bool)
  | number (n : JsNumber)
  | string (s : JsString)
  | array (items : List Json)
  | object (entries : List (JsString × Json))

inductive JsType where
  | undefined
  | boolean
  | number
  | string
  | object
  deriving DecidableEq, Repr

structure TypeError where
  message : String
  deriving DecidableEq, Repr

namespace Json

/-- `typeof v`, which is `'object'` for `null` and for arrays too. -/
def typeof : Option Json → JsType
  | none => .undefined
  | some (.bool _) => .boolean
  | some (.number _) => .number
  | some (.string _) => .string
  | some .null => .object
  | some (.array _) => .object
  | some (.object _) => .object

def lookup (name : JsString) (entries : List (JsString × Json)) : Option Json :=
  (entries.find? (fun entry => entry.1 = name)).map Prod.snd

/-- `JSON.stringify` writes no entry for a field that is `undefined`. -/
def optionalField (name : String) (value : Option Json) : List (JsString × Json) :=
  value.toList.map (fun value => (js name, value))

/-- `v.name`, for a name that no built-in prototype defines. -/
def property (name : JsString) : Option Json → Except TypeError (Option Json)
  | none => .error ⟨"Cannot read properties of undefined"⟩
  | some .null => .error ⟨"Cannot read properties of null"⟩
  | some (.object entries) => .ok (lookup name entries)
  | some _ => .ok none

/-- `name in v`, for the same names; a primitive on the right is an error. -/
def hasProperty (name : JsString) : Json → Except TypeError Bool
  | .object entries => .ok (lookup name entries).isSome
  | .array _ => .ok false
  | _ => .error ⟨"Cannot use 'in' operator to search for a property in a primitive"⟩

end Json

end NestStorageExample.Text
