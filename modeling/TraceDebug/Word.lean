/-!
# Checked words

Counters, offsets and depths are 64-bit words. Sums and differences that leave
the word range, reads outside a table, and buffers and durations beyond all bounds
are faults: values of their own, so that a statement can say that none arises.
-/

namespace TraceDebug

/-- One past the largest 64-bit word. -/
def wordLimit : Nat := 18446744073709551616

inductive Fault where
  | sumOverflow
  | differenceUnderflow
  | outOfBounds (index length : Nat)
  /-- An event buffer with more places than half the words. -/
  | tooManyPlaces
  /-- A buffer with more bytes than half the words. -/
  | bufferTooLarge
  /-- A duration whose seconds are no word. -/
  | durationTooLong
  deriving DecidableEq, Repr

def Fault.message : Fault → String
  | .sumOverflow => "attempt to add with overflow"
  | .differenceUnderflow => "attempt to subtract with overflow"
  | .outOfBounds index length =>
    s!"index out of bounds: the len is {length} but the index is {index}"
  | .tooManyPlaces => "broadcast channel capacity exceeded `usize::MAX / 2`"
  | .bufferTooLarge => "capacity overflow"
  | .durationTooLong => "overflow in Duration::new"

abbrev Checked := Except Fault

namespace Checked

def add (a b : Nat) : Checked Nat :=
  if a + b < wordLimit then .ok (a + b) else .error .sumOverflow

def sub (a b : Nat) : Checked Nat :=
  if b ≤ a then .ok (a - b) else .error .differenceUnderflow

def get (l : List α) (i : Nat) : Checked α :=
  match l[i]? with
  | some a => .ok a
  | none => .error (.outOfBounds i l.length)

/-- A computation that comes to a result has its first part come to one. -/
theorem bind_eq_ok {x : Except ε α} {f : α → Except ε β} {b : β} :
    x >>= f = .ok b ↔ ∃ a, x = .ok a ∧ f a = .ok b := by
  cases x with
  | error fault => simp [bind, Except.bind]
  | ok a => simp [bind, Except.bind]

theorem map_eq_ok {x : Checked α} {f : α → β} {b : β} :
    Except.map f x = .ok b ↔ ∃ a, x = .ok a ∧ f a = b := by
  cases x with
  | error fault => simp [Except.map]
  | ok a => simp [Except.map]

@[simp] theorem add_eq_ok {a b c : Nat} : add a b = .ok c ↔ a + b < wordLimit ∧ a + b = c := by
  unfold add
  split <;> simp [*]

@[simp] theorem sub_eq_ok {a b c : Nat} : sub a b = .ok c ↔ b ≤ a ∧ a - b = c := by
  unfold sub
  split <;> simp [*]

@[simp] theorem get_eq_ok {l : List α} {i : Nat} {a : α} : get l i = .ok a ↔ l[i]? = some a := by
  unfold get
  split <;> simp [*]

end Checked

end TraceDebug
