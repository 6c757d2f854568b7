import SchoolTimetable.Table

/-!
JSON values. An object made by `Json.object` lists its fields by ascending name, each once.
-/
namespace SchoolTimetable

inductive Json where
  | null
  | bool (b : Bool)
  | int (n : Int)
  /-- A number that is not a 64-bit integer, as it is written. -/
  | decimal (text : String)
  | str (s : String)
  | arr (items : List Json)
  | obj (fields : List (String × Json))
  deriving Repr, Inhabited

namespace Json

mutual

def decideEq : (a b : Json) → Decidable (a = b)
  | .null, .null => .isTrue rfl
  | .bool a, .bool b => decidable_of_iff (a = b) (by simp)
  | .int a, .int b => decidable_of_iff (a = b) (by simp)
  | .decimal a, .decimal b => decidable_of_iff (a = b) (by simp)
  | .str a, .str b => decidable_of_iff (a = b) (by simp)
  | .arr a, .arr b => have := decideEqItems a b; decidable_of_iff (a = b) (by simp)
  | .obj a, .obj b => have := decideEqFields a b; decidable_of_iff (a = b) (by simp)
  | .null, .bool _ | .null, .int _ | .null, .decimal _ | .null, .str _ | .null, .arr _
  | .null, .obj _ | .bool _, .null | .bool _, .int _ | .bool _, .decimal _ | .bool _, .str _
  | .bool _, .arr _ | .bool _, .obj _ | .int _, .null | .int _, .bool _ | .int _, .decimal _
  | .int _, .str _ | .int _, .arr _ | .int _, .obj _ | .decimal _, .null | .decimal _, .bool _
  | .decimal _, .int _ | .decimal _, .str _ | .decimal _, .arr _ | .decimal _, .obj _
  | .str _, .null | .str _, .bool _ | .str _, .int _ | .str _, .decimal _ | .str _, .arr _
  | .str _, .obj _ | .arr _, .null | .arr _, .bool _ | .arr _, .int _ | .arr _, .decimal _
  | .arr _, .str _ | .arr _, .obj _ | .obj _, .null | .obj _, .bool _ | .obj _, .int _
  | .obj _, .decimal _ | .obj _, .str _ | .obj _, .arr _ => .isFalse (by simp)

def decideEqItems : (a b : List Json) → Decidable (a = b)
  | [], [] => .isTrue rfl
  | [], _ :: _ | _ :: _, [] => .isFalse (by simp)
  | a :: r, b :: t =>
    have := decideEq a b
    have := decideEqItems r t
    decidable_of_iff (a = b ∧ r = t) (by simp)

def decideEqFields : (a b : List (String × Json)) → Decidable (a = b)
  | [], [] => .isTrue rfl
  | [], _ :: _ | _ :: _, [] => .isFalse (by simp)
  | (k, a) :: r, (l, b) :: t =>
    have := decideEq a b
    have := decideEqFields r t
    decidable_of_iff ((k = l ∧ a = b) ∧ r = t) (by simp)

end

instance : DecidableEq Json := decideEq

/-- Of two fields with one name the later stands. -/
def object (fields : List (String × Json)) : Json := .obj (Table.ofList fields).entries

def field? (fields : List (String × Json)) (name : String) : Option Json :=
  (fields.find? fun f => f.1 == name).map (·.2)

def nat (n : Nat) : Json := .int n

def isNull : Json → Bool
  | .null => true
  | _ => false

end Json

end SchoolTimetable
