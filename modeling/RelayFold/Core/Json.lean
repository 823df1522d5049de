import Mathlib.Data.List.Basic

/-! JSON values as the orchestrator reads them. Objects list their fields, and
the first field of a name is the one that is read. -/
namespace RelayFold

inductive Json where
  | null
  | bool (value : Bool)
  /-- `mantissa * 10 ^ (-exponent)`; no modelled function reads a number. -/
  | number (mantissa : Int) (exponent : Nat)
  | string (value : String)
  | array (items : List Json)
  | object (fields : List (String × Json))
deriving Inhabited

namespace Json

/-- `Value::get` with a string index: only objects have members. -/
def get (value : Json) (field : String) : Option Json :=
  match value with
  | object fields => fields.lookup field
  | _ => none

def asStr : Json → Option String
  | string value => some value
  | _ => none

def asArray : Json → Option (List Json)
  | array items => some items
  | _ => none

def asObject : Json → Option (List (String × Json))
  | object fields => some fields
  | _ => none

def isNull : Json → Bool
  | null => true
  | _ => false

/-- `Map::insert`: replace the member, or add it. -/
def insertField (field : String) (value : Json) : List (String × Json) → List (String × Json)
  | [] => [(field, value)]
  | (name, old) :: rest =>
      if name = field then (name, value) :: rest else (name, old) :: insertField field value rest

end Json

/-- `char::is_whitespace`: the code points with the Unicode `White_Space`
property. -/
def isWhitespace (c : Char) : Bool :=
  let n := c.toNat
  (9 ≤ n && n ≤ 13) || n = 0x20 || n = 0x85 || n = 0xA0 || n = 0x1680 ||
    (0x2000 ≤ n && n ≤ 0x200A) || n = 0x2028 || n = 0x2029 || n = 0x202F || n = 0x205F || n = 0x3000

/-- `s.trim().is_empty()`. -/
def isBlank (s : String) : Bool := s.toList.all isWhitespace

/-- `str::to_ascii_lowercase`. -/
def toAsciiLowercase (s : String) : String :=
  String.ofList (s.toList.map fun c => if 'A' ≤ c ∧ c ≤ 'Z' then Char.ofNat (c.toNat + 32) else c)

example : toAsciiLowercase "Draft-Report_2" = "draft-report_2" := by decide

end RelayFold
