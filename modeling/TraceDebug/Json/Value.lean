import TraceDebug.Json.Spelling

/-!
# JSON values

The values of the data format. Strings and names are kept as written. Integers
are kept apart from all other numbers, and so are arrays that are well formed but
for their end.
-/

namespace TraceDebug

inductive Json where
  | null
  | bool (b : Bool)
  | integer (n : Int)
  /-- A number with a fraction or an exponent, or negative zero, as written. -/
  | real (literal : String)
  | string (s : Json.Spelling)
  | array (items : List Json)
  /-- An array with one more comma at its end, and behind it no value. -/
  | unfinished (items : List Json)
  | object (members : List (Json.Spelling × Json))

namespace Json

def text (s : String) : Json := .string (.ofText s)

def nat (n : Nat) : Json := .integer n

def record (members : List (String × Json)) : Json :=
  .object (members.map fun (name, value) => (.ofText name, value))

/-- A variant that carries data: an object with one member. -/
def tagged (name : String) (value : Json) : Json := record [(name, value)]

def option (f : α → Json) : Option α → Json
  | none => .null
  | some a => f a

def list (f : α → Json) (l : List α) : Json := .array (l.map f)

mutual

/-- Whether all arrays in a value are well formed. -/
def isWhole : Json → Bool
  | .array items => allWhole items
  | .unfinished _ => false
  | .object members => allMembersWhole members
  | _ => true

def allWhole : List Json → Bool
  | [] => true
  | item :: rest => isWhole item && allWhole rest

def allMembersWhole : List (Spelling × Json) → Bool
  | [] => true
  | (_, value) :: rest => isWhole value && allMembersWhole rest

end

end Json

end TraceDebug
