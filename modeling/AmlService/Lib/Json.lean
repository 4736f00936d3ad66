import Mathlib.Data.List.Basic

/-!
# AmlService.Lib.Json

JSON values as a program builds them before printing: an object keeps its fields in
the order they were added, and a number may carry the text it is printed with.
-/

/-- A JSON value. `number` is a number printed as the given text. -/
inductive JsonValue
  | null
  | bool (b : Bool)
  | int (n : Int)
  | number (text : String)
  | str (s : String)
  | arr (items : List JsonValue)
  | obj (fields : List (String × JsonValue))
  deriving Repr

namespace JsonValue

/-- The value of a field of an object. -/
def get? : JsonValue → String → Option JsonValue
  | obj fields, key => (fields.find? fun field => field.1 == key).map Prod.snd
  | _, _ => none

/-- A text, or `null` for an unknown one. -/
def ofText? : Option String → JsonValue
  | some s => str s
  | none => null

end JsonValue
