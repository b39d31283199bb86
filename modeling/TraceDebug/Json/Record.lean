import TraceDebug.Table
import TraceDebug.Json.Reader
import TraceDebug.Text.Quantity

/-!
# Records and variants in JSON

A record is an object, in which unknown members are passed over if they are well
formed and a known one may stand once, or the array of its fields in order. A
variant is its name, or an object with its name as the only member.
-/

namespace TraceDebug.Json

def named (members : List (Spelling × Json)) (name : String) : List Json :=
  members.filterMap fun (n, value) => if n.text? = some name then some value else none

/-- The member with a given name, or none. A second one is refused. -/
def member? (members : List (Spelling × Json)) (name : String) : Option (Option Json) :=
  match named members name with
  | [] => some none
  | [value] => some (some value)
  | _ => none

/-- Whether a member of a record can be read or passed over. -/
def isAdmissible (names : List String) (member : Spelling × Json) : Bool :=
  match member.1.text? with
  | none => false
  | some name => names.contains name || member.2.isWhole

/-- The fields of a record, each with its value if it is there. An array may
leave out fields at its end. -/
def someFields? (names : List String) : Json → Option (List (Option Json))
  | .object members =>
    if members.all (isAdmissible names) then names.mapM (member? members) else none
  | .array items =>
    if items.length ≤ names.length then
      some (items.map some ++ List.replicate (names.length - items.length) none)
    else none
  | _ => none

def fields? (names : List String) : Json → Option (List (Option Json))
  | .array items => if items.length = names.length then some (items.map some) else none
  | j => someFields? names j

/-- A field that may be absent or null. -/
def optional? (read? : Json → Option α) : Option Json → Option (Option α)
  | none => some none
  | some .null => some none
  | some j => (read? j).map some

def defaulting? (read? : Json → Option α) (default : α) : Option Json → Option α
  | none => some default
  | some j => read? j

def variant? : Json → Option (String × Option Json)
  | .string name => name.text?.map (·, none)
  | .object [(name, data)] => name.text?.map (·, some data)
  | _ => none

/-- The value of a variant without data, which may be said to carry null. -/
def plain? (value : α) : Option Json → Option α
  | none => some value
  | some .null => some value
  | some _ => none

def natBelow? (limit : Nat) : Json → Option Nat
  | .integer n => n.toNat?.bind fun n => if n < limit then some n else none
  | _ => none

@[simp] theorem natBelow?_nat {limit n : Nat} :
    natBelow? limit (nat n) = if n < limit then some n else none := by
  rfl

def word? : Json → Option Nat := natBelow? wordLimit

def fileId? : Json → Option Nat := natBelow? 4294967296

def byte? (j : Json) : Option UInt8 := (natBelow? 256 j).map UInt8.ofNat

def bool? : Json → Option Bool
  | .bool b => some b
  | _ => none

def text? : Json → Option String
  | .string s => s.text?
  | _ => none

def list? (read? : Json → Option α) : Json → Option (List α)
  | .array items => items.mapM read?
  | _ => none

/-- A number of up to 256 bits is text; one of up to 64 may be an integer. -/
def quantity? : Json → Option Nat
  | .string s => s.text?.bind Text.readQuantity?
  | j => j.word?

/-- An object as a table: each name is read as a key, and of two members with
one key the later counts. -/
def table? [Ord κ] [Std.TransOrd κ] (key? : Spelling → Option κ) (read? : Json → Option ν) :
    Json → Option (Table κ ν)
  | .object members => Table.ofList <$> members.mapM fun (name, value) => do
    return (← key? name, ← read? value)
  | _ => none

/-- A file index as the name of a member: a JSON integer between quotation marks,
so that its digits are not escaped. -/
def fileIdName? (name : Spelling) : Option Nat :=
  name.plain?.bind fun digits => (number? digits.toList).bind fileId?

def quantity (n : Nat) : Json := .text (Text.renderQuantity n)

/-- A variant whose data is a record with one field. -/
def taggedField (name fieldName : String) (value : Json) : Json :=
  tagged name (record [(fieldName, value)])

def field? (name : String) (read? : Json → Option α) (j : Json) : Option α := do
  match ← j.fields? [name] with
  | [value] => value.bind read?
  | _ => none

end TraceDebug.Json
