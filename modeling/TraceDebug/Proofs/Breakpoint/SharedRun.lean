import TraceDebug.Proofs.Breakpoint.HitIndex
import TraceDebug.Proofs.Source.SharedMaps

/-!
# Index runs through the cache

An index run gets its source maps through the cache of the trace, each in two sections like
any other user. Whatever the others do before and between its sections, it gets the maps that
it would prepare by itself, and so finds the same hits.
-/

namespace TraceDebug

open MapCache (Section Service)

/-- What the other users of a cache do before the first section and between the two sections
of one that asks for a map. -/
structure Meanwhile where
  before : List Section
  between : List Section

namespace MapCache

def Answer.map? : Answer → Option ContractSourceMap
  | .map prepared => prepared.toOption
  | .location _ => none

namespace Service

section

variable (reader : MapReader) (l : LoadedTrace) (compilations : Nat → Compilation)

/-- Get a source map, among other users; none if it is not there in the end. -/
def sourceMap (x : Service) (address : ExecutingAddress) (build : Nat) (others : Meanwhile) :
    Service × Option ContractSourceMap :=
  let x := x.run reader l compilations others.before
  let number := x.users.length
  let x := x.perform reader l compilations (.first (.sourceMap address build))
  let x := x.run reader l compilations others.between
  let x := x.perform reader l compilations (.second number)
  (x, (x.users[number]?.bind (·.stage.answer?)).bind Answer.map?)

end

variable {reader : MapReader} {l : LoadedTrace} {compilations : Nat → Compilation} {x : Service}

/-- A user takes the place behind all others, and keeps it. -/
theorem request_at (x : Service) (request : Request) (later : List Section) :
    ((x.perform reader l compilations (.first request)).run reader l compilations
      later).users[x.users.length]?.map (·.request) = some request := by
  rw [← List.getElem?_map, requests_run, requests_perform, List.append_assoc,
    List.getElem?_append_right (Nat.le_of_eq (List.length_map _)), List.length_map, Nat.sub_self]
  rfl

theorem Sound.sourceMap (h : x.Sound reader l compilations) (address : ExecutingAddress)
    (build : Nat) (others : Meanwhile) :
    (x.sourceMap reader l compilations address build others).1.Sound reader l compilations ∧
      (x.sourceMap reader l compilations address build others).2 =
        (reader.prepare address l.trace (some (compilations build))).toOption := by
  have before := h.run others.before
  have between := (before.perform (.first (.sourceMap address build))).run others.between
  obtain ⟨user, found, asked⟩ := Option.map_eq_some_iff.mp
    (request_at (x.run reader l compilations others.before) (.sourceMap address build)
      others.between)
  refine ⟨between.perform (.second _), ?_⟩
  simp only [Service.sourceMap]
  rw [between.ends found, asked]
  rfl

end Service

end MapCache

namespace IndexRequest

variable {q : IndexRequest}

section

variable (q : IndexRequest) (compilations : Nat → Compilation) (build : Nat)
  (others : CallFrame → Meanwhile)

def prepareNextShared (state : Service × Maps) (frame : CallFrame) : Service × Maps :=
  if state.2.contains frame.address then state
  else
    let (x, map) := state.1.sourceMap q.resolver.reader q.loaded compilations frame.address build
      (others frame)
    (x, state.2.insert frame.address map)

def prepareMapsShared (x : Service) : Service × Maps :=
  q.loaded.frames.frames.foldl (prepareNextShared q compilations build others) (x, .empty)

/-- An index run that gets its source maps through the cache, among other users of it. -/
def runShared (x : Service) : Checked IndexResult :=
  q.runWith (q.prepareMapsShared compilations build others x).2

end

variable {compilations : Nat → Compilation} {build : Nat} {others : CallFrame → Meanwhile}
  {x : Service}

theorem foldl_prepareNextShared (sound : x.Sound q.resolver.reader q.loaded compilations)
    (named : compilations build = q.compilation) (frames : List CallFrame) (maps : Maps) :
    (frames.foldl (q.prepareNextShared compilations build others) (x, maps)).2 =
      frames.foldl q.prepareNext maps := by
  induction frames generalizing x maps with
  | nil => rfl
  | cons frame frames ih =>
    rw [List.foldl_cons, List.foldl_cons, prepareNextShared, prepareNext]
    split
    · exact ih sound maps
    · obtain ⟨sound', got⟩ := sound.sourceMap frame.address build (others frame)
      rw [named] at got
      dsimp only
      rw [got]
      exact ih sound' _

/-- A run through the cache is the run without it. -/
theorem runShared_eq (sound : x.Sound q.resolver.reader q.loaded compilations)
    (named : compilations build = q.compilation) (others : CallFrame → Meanwhile) :
    q.runShared compilations build others x = q.run := by
  rw [runShared, prepareMapsShared, foldl_prepareNextShared sound named]
  rfl

end IndexRequest

end TraceDebug
