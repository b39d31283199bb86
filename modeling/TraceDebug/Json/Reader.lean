import TraceDebug.Json.Token

/-!
# Reading JSON

The tokens of a text drive a machine that keeps the open arrays and objects on a
stack. Nothing may follow the value. An array may have a comma at its end, with or
without a broken value behind it, but is then unfinished.
-/

namespace TraceDebug.Json

inductive Frame where
  | items (before : List Json)
  | members (before : List (Spelling × Json)) (name : Spelling)

/-- What the machine expects, or the value it has just completed. -/
inductive Expectation where
  | value
  | itemOrClose
  | nameOrClose
  | name (before : List (Spelling × Json))
  | colon (before : List (Spelling × Json)) (name : Spelling)
  /-- The end of an array whose last item is broken. -/
  | close
  | complete (value : Json)

structure Machine where
  stack : List Frame
  expects : Expectation

namespace Machine

def start : Machine := ⟨[], .value⟩

def value (stack : List Frame) : Token → Option Machine
  | .atom v => some ⟨stack, .complete v⟩
  | .openArray => some ⟨.items [] :: stack, .itemOrClose⟩
  | .openObject => some ⟨stack, .nameOrClose⟩
  | _ => none

def step : Machine → Token → Option Machine
  | ⟨.items (v :: before) :: stack, .value⟩, .closeArray =>
    some ⟨stack, .complete (.unfinished (v :: before).reverse)⟩
  | ⟨.items (v :: before) :: stack, .value⟩, .broken =>
    some ⟨.items (v :: before) :: stack, .close⟩
  | ⟨.items before :: stack, .close⟩, .closeArray =>
    some ⟨stack, .complete (.unfinished before.reverse)⟩
  | ⟨stack, .value⟩, t => value stack t
  | ⟨.items [] :: stack, .itemOrClose⟩, .closeArray => some ⟨stack, .complete (.array [])⟩
  | ⟨stack, .itemOrClose⟩, t => value stack t
  | ⟨stack, .nameOrClose⟩, .closeObject => some ⟨stack, .complete (.object [])⟩
  | ⟨stack, .nameOrClose⟩, .atom (.string name) => some ⟨stack, .colon [] name⟩
  | ⟨stack, .name before⟩, .atom (.string name) => some ⟨stack, .colon before name⟩
  | ⟨stack, .colon before name⟩, .colon => some ⟨.members before name :: stack, .value⟩
  | ⟨.items before :: stack, .complete v⟩, .comma => some ⟨.items (v :: before) :: stack, .value⟩
  | ⟨.items before :: stack, .complete v⟩, .closeArray =>
    some ⟨stack, .complete (.array (v :: before).reverse)⟩
  | ⟨.members before name :: stack, .complete v⟩, .comma =>
    some ⟨stack, .name ((name, v) :: before)⟩
  | ⟨.members before name :: stack, .complete v⟩, .closeObject =>
    some ⟨stack, .complete (.object ((name, v) :: before).reverse)⟩
  | _, _ => none

end Machine

def read? (text : String) : Option Json := do
  match ← (← tokens text.toList).foldlM Machine.step .start with
  | ⟨[], .complete v⟩ => return v
  | _ => none

end TraceDebug.Json
