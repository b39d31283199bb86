import TraceDebug.Frame.Index

/-!
# The step cursor

The navigator only says where the cursor goes. A movement that leads nowhere,
or to where the cursor is, has no target.
-/

namespace TraceDebug

inductive Movement where
  | next
  | previous
  | first
  | last
  | stepOverForward
  | stepOverBack
  | jumpOut
  deriving DecidableEq, Repr

inductive NavigationError where
  | notLoaded
  | outOfRange (index length : Nat)
  deriving DecidableEq

def NavigationError.message : NavigationError → String
  | .notLoaded => "no trace loaded"
  | .outOfRange index length => s!"step {index} out of bounds (total {length})"

structure Navigator where
  cursor : Nat
  length : Nat
  deriving DecidableEq

namespace Navigator

/-- A cursor at the first step; a trace without steps admits none. -/
def new? (length : Nat) : Option Navigator := if 0 < length then some ⟨0, length⟩ else none

def isEmpty (n : Navigator) : Bool := n.length == 0

def jumpTo (n : Navigator) (index : Nat) : Except NavigationError Navigator :=
  if n.length ≤ index then .error (.outOfRange index n.length) else .ok { n with cursor := index }

/-- The first of `count` indices from `start` on that satisfies `p`. -/
def scanForward (p : Nat → Checked Bool) (start : Nat) : (count : Nat) → Checked (Option Nat)
  | 0 => .ok none
  | count + 1 => do
    if ← p start then return some start else scanForward p (start + 1) count

/-- The last index below `stop` that satisfies `p`. -/
def scanBack (p : Nat → Checked Bool) : (stop : Nat) → Checked (Option Nat)
  | 0 => .ok none
  | stop + 1 => do
    if ← p stop then return some stop else scanBack p stop

/-- Whether a step is no deeper than `depth`. A step without known frame counts. -/
def reaches (frames : FrameIndex) (depth step : Nat) : Checked Bool :=
  (frames.depthAt step).map fun
    | .ok d => decide (d ≤ depth)
    | .error _ => true

def nextStep (n : Navigator) : Option Nat :=
  if n.cursor + 1 < n.length then some (n.cursor + 1) else none

def previousStep (n : Navigator) : Option Nat :=
  if n.cursor = 0 then none else some (n.cursor - 1)

/-- The next step outside the calls made from the current frame. -/
def overForward (n : Navigator) (frames : FrameIndex) : Checked (Option Nat) := do
  match ← frames.depthAt n.cursor with
  | .ok depth =>
    let start ← Checked.add n.cursor 1
    scanForward (reaches frames depth) start (n.length - start)
  | .error _ => return n.nextStep

/-- The previous step outside the calls made from the current frame. -/
def overBack (n : Navigator) (frames : FrameIndex) : Checked (Option Nat) := do
  match ← frames.depthAt n.cursor with
  | .ok depth => scanBack (reaches frames depth) n.cursor
  | .error _ => return n.previousStep

/-- The first step after the current frame returned. -/
def out (n : Navigator) (frames : FrameIndex) : Checked (Option Nat) := do
  match ← frames.frameAt n.cursor with
  | .ok frame =>
    if frame.parent.isNone then return none
    return frame.exitedAt.filter (· < n.length)
  | .error _ => return none

def destination (n : Navigator) (frames : FrameIndex) : Movement → Checked (Option Nat)
  | .next => .ok n.nextStep
  | .previous => .ok n.previousStep
  | .first => .ok (some 0)
  | .last => (Checked.sub n.length 1).map some
  | .stepOverForward => n.overForward frames
  | .stepOverBack => n.overBack frames
  | .jumpOut => n.out frames

/-- Where a movement puts the cursor, if it moves it. -/
def target (n : Navigator) (frames : FrameIndex) (m : Movement) : Checked (Option Nat) :=
  (n.destination frames m).map (·.filter (· ≠ n.cursor))

end Navigator

end TraceDebug
