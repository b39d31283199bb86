/-!
# TOML values

Tables remember how they came about, since that decides what may be added to
them later. Numbers with a fraction and points in time are kept as written.
-/

namespace TraceDebug.Toml

inductive TableKind where
  /-- Named by a header only as the parent of another table. -/
  | parent
  /-- Made by a dotted key. -/
  | dotted
  /-- Opened by its own header. -/
  | headed
  /-- Written between braces; nothing can be added. -/
  | closed
  deriving DecidableEq, Repr

inductive Value where
  | text (s : String)
  | integer (n : Int)
  | real (literal : String)
  | bool (b : Bool)
  | moment (literal : String)
  | array (items : List Value)
  | table (kind : TableKind) (members : List (String × Value))
  /-- Tables under a repeated header; the last one is open. -/
  | series (earlier : List Value) (last : List (String × Value))

abbrev Members := List (String × Value)

namespace Members

def get? (m : Members) (key : String) : Option Value := (m.find? (·.1 == key)).map Prod.snd

def set (m : Members) (key : String) (value : Value) : Members :=
  if m.any (·.1 == key) then m.map fun e => if e.1 == key then (key, value) else e
  else m ++ [(key, value)]

/-- Change the table that a header names. Tables on the way are made if absent;
in a series the last one is meant. -/
def within (change : Members → Option Members) : List String → Members → Option Members
  | [], m => change m
  | key :: rest, m =>
    match m.get? key with
    | none => (within change rest []).map fun t => m.set key (.table .parent t)
    | some (.table .closed _) => none
    | some (.table kind t) => (within change rest t).map fun t => m.set key (.table kind t)
    | some (.series earlier last) =>
      (within change rest last).map fun t => m.set key (.series earlier t)
    | some _ => none

/-- Open a table by its header. A table named before only as a parent is taken up. -/
def openTable (key : String) (m : Members) : Option Members :=
  match m.get? key with
  | none => some (m.set key (.table .headed []))
  | some (.table .parent t) => some (m.set key (.table .headed t))
  | some _ => none

/-- Open the next table of a series. -/
def openNext (key : String) (m : Members) : Option Members :=
  match m.get? key with
  | none => some (m.set key (.series [] []))
  | some (.series earlier last) => some (m.set key (.series (earlier ++ [.table .headed last]) []))
  | some _ => none

/-- Set a new key to a value. Tables on the way are made or are those that
dotted keys made; a parent of headed tables may be passed through only. -/
def assign (value : Value) : List String → Members → Option Members
  | [], _ => none
  | [key], m => if (m.get? key).isSome then none else some (m.set key value)
  | key :: next :: rest, m =>
    match m.get? key with
    | none => (assign value (next :: rest) []).map fun t => m.set key (.table .dotted t)
    | some (.table .dotted t) =>
      (assign value (next :: rest) t).map fun t => m.set key (.table .dotted t)
    | some (.table .parent t) =>
      if rest.isEmpty then none
      else (assign value (next :: rest) t).map fun t => m.set key (.table .parent t)
    | some (.series earlier last) =>
      if rest.isEmpty then none
      else (assign value (next :: rest) last).map fun t => m.set key (.series earlier t)
    | some _ => none

end Members

end TraceDebug.Toml
