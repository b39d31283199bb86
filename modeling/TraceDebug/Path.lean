import TraceDebug.Table

/-!
# Paths

A path is its text; two texts are the same path when they have the same
components. Empty parts count for nothing, and neither does a dot, unless it
opens a path without root.
-/

namespace TraceDebug

inductive PathComponent where
  | root
  | current
  | parent
  | name (text : String)
  deriving DecidableEq, Repr

namespace PathComponent

def rank : PathComponent → Nat
  | .root => 0
  | .current => 1
  | .parent => 2
  | .name _ => 3

def text : PathComponent → String
  | .name text => text
  | _ => ""

def order : PathComponent → PathComponent → Ordering :=
  compareLex (compareOn rank) (compareOn text)

instance : Ord PathComponent := ⟨order⟩

instance : Std.TransOrd PathComponent :=
  inferInstanceAs (Std.TransCmp (compareLex (compareOn rank) (compareOn text)))

theorem eq_of_compare_eq {a b : PathComponent} (h : compare a b = .eq) : a = b := by
  have hr : a.rank = b.rank ∧ a.text = b.text := by
    have : order a b = .eq := h
    simpa [order, compareLex, compareOn, Ordering.then_eq_eq] using this
  cases a <;> cases b <;> simp_all [rank, text]

instance : Std.LawfulEqOrd PathComponent := ⟨eq_of_compare_eq⟩

end PathComponent

structure Path where
  text : String
  deriving DecidableEq, Repr

namespace Path

def splitSlashes : List Char → List (List Char)
  | [] => [[]]
  | c :: rest =>
    if c = '/' then [] :: splitSlashes rest
    else match splitSlashes rest with
      | part :: parts => (c :: part) :: parts
      | [] => [[c]]

/-- The component a part stands for, when it does not open the path. -/
def innerComponent? : List Char → Option PathComponent
  | [] => none
  | ['.'] => none
  | ['.', '.'] => some .parent
  | part => some (.name (String.ofList part))

def components (p : Path) : List PathComponent :=
  match splitSlashes p.text.toList with
  | [] :: parts@(_ :: _) => .root :: parts.filterMap innerComponent?
  | ['.'] :: parts => .current :: parts.filterMap innerComponent?
  | parts => parts.filterMap innerComponent?

instance : Ord Path := ⟨compareOn components⟩

instance : Std.TransOrd Path := inferInstanceAs (Std.TransCmp (compareOn components))

def endsWith (p suffix : Path) : Bool := suffix.components.isSuffixOf p.components

end Path

end TraceDebug
