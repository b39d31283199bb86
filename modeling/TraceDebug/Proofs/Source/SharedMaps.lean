import Mathlib.Data.List.Basic
import TraceDebug.Proofs.Session.Activity
import TraceDebug.Proofs.Table

/-!
# Source maps shared through a cache

Any number of users ask one cache for source maps, or resolve steps with them. Each use
takes two sections, a look-up and the storing of what was prepared after a miss, and
between the two the cache may be given to other compilations and back. What a user gets
never shows that there is a cache.
-/

namespace TraceDebug

namespace MapCache

/-- What a user asks for. Compilations are named by their numbers. -/
inductive Request where
  | sourceMap (address : ExecutingAddress) (build : Nat)
  | resolve (converter : Converter) (step : Nat) (artifact : Option Nat)

inductive Answer where
  | map (prepared : Except UnresolvedReason ContractSourceMap)
  | location (found : Checked ResolvedLocation)
  deriving DecidableEq

/-- What a user does with the map it asked for. -/
inductive Use where
  | take
  | locate (resolver : Resolver) (step pc : Nat)

def Use.answer (compilation : Compilation) (prepared : Except UnresolvedReason ContractSourceMap) :
    Use → Answer
  | .take => .map prepared
  | .locate resolver step pc =>
    match prepared with
    | .ok map => .location ((resolver.locate map pc compilation).map fun found => ⟨step, found⟩)
    | .error reason => .location (.ok ⟨step, .unresolved reason⟩)

/-- How far a use of the cache has come. -/
inductive Stage where
  /-- Preparing a map after a miss, with no hold on the cache. -/
  | preparing (serial : Nat) (address : ExecutingAddress) (build : Build) (use : Use)
  | answered (answer : Answer)

def Stage.answer? : Stage → Option Answer
  | .preparing .. => none
  | .answered answer => some answer

structure User where
  request : Request
  stage : Stage

/-- The cache with its users, in the order in which they came. -/
structure Service where
  cache : MapCache
  users : List User

/-- A section that one user takes without interruption. -/
inductive Section where
  | first (request : Request)
  | second (number : Nat)

section

variable (reader : MapReader) (l : LoadedTrace) (compilations : Nat → Compilation)

/-- The compilation of a number. Equal ones of different numbers are different builds. -/
def buildOf (id : Nat) : Build := ⟨id, compilations id⟩

/-- Ask for a map. A hit is answered at once. -/
def ask (c : MapCache) (b : Build) (address : ExecutingAddress) (use : Use) : MapCache × Stage :=
  match c.lookUp b address with
  | (c, .hit prepared) => (c, .answered (use.answer b.compilation (prepared.map (·.map))))
  | (c, .miss serial) => (c, .preparing serial address b use)

def Request.begin (c : MapCache) : Request → MapCache × Stage
  | .sourceMap address build => c.ask (buildOf compilations build) address .take
  | .resolve converter step artifact =>
    match l.frames.addressAt step with
    | .error fault => (c, .answered (.location (.error fault)))
    | .ok (.error cause) => (c, .answered (.location (.ok ⟨step, .unresolved (.address cause)⟩)))
    | .ok (.ok address) =>
      match l.step? step, artifact with
      | none, _ => (c, .answered (.location (.ok ⟨step, .unresolved .noCode⟩)))
      | some _, none => (c, .answered (.location (.ok ⟨step, .unresolved .noArtifact⟩)))
      | some executed, some build =>
        c.ask (buildOf compilations build) address (.locate ⟨converter, reader⟩ step executed.pc)

def Stage.finish (c : MapCache) : Stage → MapCache × Stage
  | .preparing serial address b use =>
    let prepared := prepareShared reader serial address l.trace b
    (c.store b address prepared, .answered (use.answer b.compilation (prepared.map (·.map))))
  | .answered answer => (c, .answered answer)

namespace Service

def start : Service := ⟨.empty, []⟩

def perform (x : Service) : Section → Service
  | .first request =>
    let (cache, stage) := request.begin reader l compilations x.cache
    ⟨cache, x.users ++ [⟨request, stage⟩]⟩
  | .second number =>
    match x.users[number]? with
    | none => x
    | some user =>
      let (cache, stage) := user.stage.finish reader l x.cache
      ⟨cache, x.users.set number { user with stage }⟩

def run (x : Service) (sections : List Section) : Service :=
  sections.foldl (perform reader l compilations) x

end Service

/-- What is asked for, in the order of the first sections. -/
def requests (sections : List Section) : List Request :=
  sections.filterMap fun
    | .first request => some request
    | .second _ => none

/-- What a user gets when everything is prepared anew. -/
def Request.uncached : Request → Answer
  | .sourceMap address build => .map (reader.prepare address l.trace (some (compilations build)))
  | .resolve converter step artifact =>
    .location (Resolver.resolveStep ⟨converter, reader⟩ l.frames l.trace step
      (artifact.map compilations))

/-- Every map that is kept, and every failure, is the one of the compilation that the
cache is for. -/
def Faithful (c : MapCache) : Prop :=
  ∀ entry ∈ c.maps.entries, ∃ build, c.build = some build ∧
    entry.2.map (·.map) = reader.prepare entry.1 l.trace (some (compilations build))

/-- A user has got, or is about to get, what it would get without a cache. -/
def Stage.Serves (request : Request) : Stage → Prop
  | .preparing _ address b use =>
    b = buildOf compilations b.id ∧
      use.answer b.compilation (reader.prepare address l.trace (some b.compilation)) =
        request.uncached reader l compilations
  | .answered answer => answer = request.uncached reader l compilations

end

variable {reader : MapReader} {l : LoadedTrace} {compilations : Nat → Compilation} {c : MapCache}

theorem isFor_iff {b : Build} : c.isFor b = true ↔ c.build = some b.id := by
  simp [isFor]

theorem map_prepareShared (serial : Nat) (address : ExecutingAddress) (t : Trace) (b : Build) :
    (prepareShared reader serial address t b).map (·.map) =
      reader.prepare address t (some b.compilation) := by
  rw [prepareShared]
  cases reader.prepare address t (some b.compilation) <;> rfl

/-- A look-up finds what is kept for the compilation, or it is a miss and the cache is for
the compilation from then on. -/
theorem lookUp_cases (c : MapCache) (b : Build) (address : ExecutingAddress) :
    (∃ prepared, c.lookUp b address = (c, .hit prepared) ∧ c.build = some b.id ∧
      (address, prepared) ∈ c.maps.entries) ∨
    ∃ serial maps preparations,
      c.lookUp b address = (⟨some b.id, maps, preparations⟩, .miss serial) ∧
      (maps = .empty ∨ c.build = some b.id ∧ maps = c.maps) := by
  unfold lookUp
  split
  · next current =>
    have build := isFor_iff.mp current
    split
    · next prepared found => exact .inl ⟨prepared, rfl, build, Table.mem_of_get? found⟩
    · refine .inr ⟨c.preparations, c.maps, c.preparations + 1, by rw [miss, build], ?_⟩
      exact .inr ⟨build, rfl⟩
  · exact .inr ⟨c.preparations, .empty, c.preparations + 1, rfl, .inl rfl⟩

theorem faithful_empty : empty.Faithful reader l compilations := by
  intro entry mem
  cases mem

theorem Faithful.hit (h : c.Faithful reader l compilations) {build : Nat}
    (current : c.build = some build) {address : ExecutingAddress} {prepared : PreparedMap}
    (mem : (address, prepared) ∈ c.maps.entries) :
    prepared.map (·.map) = reader.prepare address l.trace (some (compilations build)) := by
  obtain ⟨other, eq, content⟩ := h _ mem
  obtain rfl : build = other := Option.some.inj (current.symm.trans eq)
  exact content

/-- Asking keeps the cache faithful, and whoever asks is served as without it. -/
theorem Faithful.ask (h : c.Faithful reader l compilations) (build : Nat)
    (address : ExecutingAddress) (use : Use) {request : Request}
    (same : use.answer (compilations build)
      (reader.prepare address l.trace (some (compilations build))) =
        request.uncached reader l compilations) :
    (c.ask (buildOf compilations build) address use).1.Faithful reader l compilations ∧
      (c.ask (buildOf compilations build) address use).2.Serves reader l compilations request := by
  unfold MapCache.ask
  rcases c.lookUp_cases (buildOf compilations build) address with
    ⟨prepared, hit, current, mem⟩ | ⟨serial, maps, preparations, miss, kept⟩
  · rw [hit]
    exact ⟨h, (congrArg (use.answer (compilations build)) (h.hit current mem)).trans same⟩
  · rw [miss]
    refine ⟨?_, rfl, same⟩
    rcases kept with rfl | ⟨current, rfl⟩
    · intro entry mem
      cases mem
    · intro entry mem
      obtain ⟨other, eq, content⟩ := h entry mem
      exact ⟨other, current.symm.trans eq, content⟩

/-- A resolution ends early, with the cache as without it, or it comes to the frame and
the instruction of its step and asks for a map. -/
theorem resolve_cases (reader : MapReader) (l : LoadedTrace) (compilations : Nat → Compilation)
    (converter : Converter) (step : Nat) (artifact : Option Nat) :
    (∃ found, Resolver.resolveStep ⟨converter, reader⟩ l.frames l.trace step
          (artifact.map compilations) = found ∧
      ∀ c, (Request.resolve converter step artifact).begin reader l compilations c =
          (c, .answered (.location found)) ∧
        l.resolveShared ⟨converter, reader⟩ c step (artifact.map (buildOf compilations)) =
          found.map fun location => (c, location)) ∨
    ∃ address executed build, l.frames.addressAt step = .ok (.ok address) ∧
      l.step? step = some executed ∧ artifact = some build := by
  have trace : l.trace.step? step = l.step? step := rfl
  cases found : l.frames.addressAt step with
  | error fault =>
    refine .inl ⟨_, rfl, fun c => ?_⟩
    simp [Request.begin, LoadedTrace.resolveShared, Resolver.resolveStep, found, bind, Except.bind,
      Except.map]
  | ok answer =>
    cases answer with
    | error cause =>
      refine .inl ⟨_, rfl, fun c => ?_⟩
      simp [Request.begin, LoadedTrace.resolveShared, Resolver.resolveStep, found, bind,
        Except.bind, pure, Except.pure, Except.map]
    | ok address =>
      cases known : l.step? step with
      | none =>
        refine .inl ⟨_, rfl, fun c => ?_⟩
        simp [Request.begin, LoadedTrace.resolveShared, Resolver.resolveStep, found, trace, known,
          bind, Except.bind, pure, Except.pure, Except.map]
      | some executed =>
        cases artifact with
        | some build => exact .inr ⟨address, executed, build, rfl, rfl, rfl⟩
        | none =>
          refine .inl ⟨_, rfl, fun c => ?_⟩
          simp [Request.begin, LoadedTrace.resolveShared, Resolver.resolveStep, Resolver.resolve,
            found, trace, known, bind, Except.bind, pure, Except.pure, Except.map]

/-- With the frame and the instruction known, a step is resolved with the map of the frame. -/
theorem resolveStep_eq_answer (resolver : Resolver) {step : Nat} {address : ExecutingAddress}
    (found : l.frames.addressAt step = .ok (.ok address)) {executed : Step}
    (known : l.step? step = some executed) (compilation : Compilation) :
    (Use.locate resolver step executed.pc).answer compilation
        (resolver.reader.prepare address l.trace (some compilation)) =
      .location (resolver.resolveStep l.frames l.trace step (some compilation)) := by
  have trace : l.trace.step? step = some executed := known
  simp only [Resolver.resolveStep, found, trace, Resolver.resolve, Use.answer, bind, Except.bind]
  cases resolver.reader.prepare address l.trace (some compilation) with
  | error reason => rfl
  | ok map => cases resolver.locate map executed.pc compilation <;> rfl

theorem Faithful.begin (h : c.Faithful reader l compilations) (request : Request) :
    (request.begin reader l compilations c).1.Faithful reader l compilations ∧
      (request.begin reader l compilations c).2.Serves reader l compilations request := by
  cases request with
  | sourceMap address build => exact h.ask build address .take rfl
  | resolve converter step artifact =>
    rcases resolve_cases reader l compilations converter step artifact with
      ⟨found, uncached, ended⟩ | ⟨address, executed, build, found, known, rfl⟩
    · rw [(ended c).1]
      exact ⟨h, congrArg Answer.location uncached.symm⟩
    · have asked : (Request.resolve converter step (some build)).begin reader l compilations c =
          c.ask (buildOf compilations build) address
            (.locate ⟨converter, reader⟩ step executed.pc) := by
        simp only [Request.begin, found, known]
      rw [asked]
      exact h.ask build address _ (resolveStep_eq_answer ⟨converter, reader⟩ found known _)

/-- Storing what was prepared keeps the cache faithful, whatever it is for by then. -/
theorem Faithful.store (h : c.Faithful reader l compilations) (serial build : Nat)
    (address : ExecutingAddress) :
    (c.store (buildOf compilations build) address
      (prepareShared reader serial address l.trace (buildOf compilations build))).Faithful
        reader l compilations := by
  unfold MapCache.store
  split
  · next current =>
    intro entry mem
    rcases Table.mem_insertEntry mem with rfl | mem
    · exact ⟨build, isFor_iff.mp current, map_prepareShared serial address l.trace _⟩
    · exact h entry mem
  · exact h

theorem Faithful.finish (h : c.Faithful reader l compilations) {stage : Stage} {request : Request}
    (serves : stage.Serves reader l compilations request) :
    (stage.finish reader l c).1.Faithful reader l compilations ∧
      (stage.finish reader l c).2 = .answered (request.uncached reader l compilations) := by
  cases stage with
  | answered answer => exact ⟨h, congrArg Stage.answered serves⟩
  | preparing serial address b use =>
    obtain ⟨named, same⟩ := serves
    refine ⟨?_, ?_⟩
    · rw [named]
      exact h.store serial b.id address
    · rw [Stage.finish, map_prepareShared, same]

namespace Service

variable {x : Service}

/-- The cache is faithful, and each user is served with what it asked for. -/
structure Sound (reader : MapReader) (l : LoadedTrace) (compilations : Nat → Compilation)
    (x : Service) : Prop where
  cache : x.cache.Faithful reader l compilations
  users : ∀ user ∈ x.users, user.stage.Serves reader l compilations user.request

theorem sound_start : start.Sound reader l compilations where
  cache := faithful_empty
  users := nofun

theorem Sound.first (h : x.Sound reader l compilations) (request : Request) :
    (x.perform reader l compilations (.first request)).Sound reader l compilations := by
  obtain ⟨cache, serves⟩ := h.cache.begin request
  refine ⟨cache, ?_⟩
  intro user mem
  rcases List.mem_append.mp mem with mem | mem
  · exact h.users user mem
  · rw [List.mem_singleton.mp mem]
    exact serves

theorem perform_second {number : Nat} {user : User} (found : x.users[number]? = some user) :
    x.perform reader l compilations (.second number) =
      ⟨(user.stage.finish reader l x.cache).1,
        x.users.set number { user with stage := (user.stage.finish reader l x.cache).2 }⟩ := by
  simp only [perform, found]

theorem Sound.second (h : x.Sound reader l compilations) (number : Nat) :
    (x.perform reader l compilations (.second number)).Sound reader l compilations := by
  cases found : x.users[number]? with
  | none => simpa only [perform, found] using h
  | some user =>
    obtain ⟨cache, served⟩ := h.cache.finish (h.users user (List.mem_of_getElem? found))
    rw [perform_second found]
    refine ⟨cache, ?_⟩
    intro other mem
    rcases List.mem_or_eq_of_mem_set mem with mem | rfl
    · exact h.users other mem
    · rw [served]
      rfl

theorem Sound.perform (h : x.Sound reader l compilations) (s : Section) :
    (x.perform reader l compilations s).Sound reader l compilations := by
  cases s with
  | first request => exact h.first request
  | second number => exact h.second number

theorem Sound.run (h : x.Sound reader l compilations) (sections : List Section) :
    (x.run reader l compilations sections).Sound reader l compilations := by
  induction sections generalizing x with
  | nil => exact h
  | cons s sections ih => exact ih (h.perform s)

theorem sound_run (reader : MapReader) (l : LoadedTrace) (compilations : Nat → Compilation)
    (sections : List Section) :
    (start.run reader l compilations sections).Sound reader l compilations :=
  sound_start.run sections

/-- The second section of a user answers it as it would be answered without the cache. -/
theorem Sound.ends (h : x.Sound reader l compilations) {number : Nat} {user : User}
    (found : x.users[number]? = some user) :
    (x.perform reader l compilations (.second number)).users[number]? =
      some ⟨user.request, .answered (user.request.uncached reader l compilations)⟩ := by
  obtain ⟨inside, -⟩ := List.getElem?_eq_some_iff.mp found
  have served := (h.cache.finish (h.users user (List.mem_of_getElem? found))).2
  rw [perform_second found, List.getElem?_set_self inside, served]

/-- Users come with their first sections, and they stay. -/
theorem requests_perform (x : Service) (s : Section) :
    (x.perform reader l compilations s).users.map (·.request) =
      x.users.map (·.request) ++ requests [s] := by
  cases s with
  | first request => exact List.map_append
  | second number =>
    cases found : x.users[number]? with
    | none => simp [perform, found, requests]
    | some user =>
      have asked : (x.users.map (·.request))[number]? = some user.request := by
        rw [List.getElem?_map, found]
        rfl
      obtain ⟨inside, same⟩ := List.getElem?_eq_some_iff.mp asked
      have kept : (x.users.map (·.request)).set number user.request = x.users.map (·.request) := by
        rw [← same, List.set_getElem_self]
      rw [perform_second found, List.map_set, kept]
      exact (List.append_nil _).symm

theorem requests_run (x : Service) (sections : List Section) :
    (x.run reader l compilations sections).users.map (·.request) =
      x.users.map (·.request) ++ requests sections := by
  induction sections generalizing x with
  | nil => exact (List.append_nil _).symm
  | cons s sections ih =>
    have parted : requests (s :: sections) = requests [s] ++ requests sections := by
      rw [requests, requests, requests, ← List.filterMap_append, List.singleton_append]
    rw [parted, ← List.append_assoc, ← requests_perform]
    exact ih _

end Service

/-- A map that is got without interruption is the one prepared without the cache. -/
theorem Faithful.sourceMap (h : c.Faithful reader l compilations) (address : ExecutingAddress)
    (build : Nat) :
    (c.sourceMap reader address l.trace (buildOf compilations build)).2.map (·.map) =
      reader.prepare address l.trace (some (compilations build)) := by
  unfold MapCache.sourceMap
  rcases c.lookUp_cases (buildOf compilations build) address with
    ⟨prepared, hit, current, mem⟩ | ⟨serial, maps, preparations, miss, -⟩
  · rw [hit]
    exact h.hit current mem
  · rw [miss]
    exact map_prepareShared serial address l.trace _

/-- Resolving without interruption gives what is found without the cache. -/
theorem Faithful.resolveShared (h : c.Faithful reader l compilations) (converter : Converter)
    (step : Nat) (artifact : Option Nat) :
    (l.resolveShared ⟨converter, reader⟩ c step (artifact.map (buildOf compilations))).map
        Prod.snd =
      Resolver.resolveStep ⟨converter, reader⟩ l.frames l.trace step
        (artifact.map compilations) := by
  rcases resolve_cases reader l compilations converter step artifact with
    ⟨found, uncached, ended⟩ | ⟨address, executed, build, found, known, rfl⟩
  · rw [(ended c).2, uncached]
    cases found <;> rfl
  · let resolver : Resolver := ⟨converter, reader⟩
    have located := resolveStep_eq_answer resolver found known (compilations build)
    have map := h.sourceMap address build
    simp only [LoadedTrace.resolveShared, found, known, Option.map_some, bind, Except.bind]
    rw [← map] at located
    apply Answer.location.inj
    refine Eq.trans ?_ located
    obtain ⟨cache, prepared⟩ := c.sourceMap reader address l.trace (buildOf compilations build)
    cases prepared with
    | error reason => rfl
    | ok shared =>
      simp only [Use.answer, Except.map, buildOf]
      cases resolver.locate shared.map executed.pc (compilations build) <;> rfl

/-- Nothing that users get shows that there is a cache. -/
structure Service.Transparent (reader : MapReader) (l : LoadedTrace)
    (compilations : Nat → Compilation) (asked : List Request) (x : Service) : Prop where
  /-- What is kept, failures included, is for the compilation that the cache is for. -/
  kept : ∀ address prepared, (address, prepared) ∈ x.cache.maps.entries →
    ∃ build, x.cache.build = some build ∧
      prepared.map (·.map) = reader.prepare address l.trace (some (compilations build))
  asked : x.users.map (·.request) = asked
  answered : ∀ user ∈ x.users, ∀ answer, user.stage.answer? = some answer →
    answer = user.request.uncached reader l compilations
  ends : ∀ number user, x.users[number]? = some user →
    (x.perform reader l compilations (.second number)).users[number]? =
      some ⟨user.request, .answered (user.request.uncached reader l compilations)⟩
  alone : ∀ converter step (artifact : Option Nat),
    (l.resolveShared ⟨converter, reader⟩ x.cache step (artifact.map (buildOf compilations))).map
        Prod.snd =
      Resolver.resolveStep ⟨converter, reader⟩ l.frames l.trace step (artifact.map compilations)

/-- Under every interleaving of the sections of all users, the cache keeps only maps of the
compilation that it is for, and every source map and every location is the one found
without the cache. Any reader of source maps will do. -/
theorem cache_transparent (reader : MapReader) (l : LoadedTrace)
    (compilations : Nat → Compilation) (sections : List Section) :
    (Service.start.run reader l compilations sections).Transparent reader l compilations
      (requests sections) := by
  have sound := Service.sound_run reader l compilations sections
  exact {
    kept := fun address prepared mem => sound.cache (address, prepared) mem
    asked := Service.start.requests_run sections
    answered := by
      intro user mem answer given
      have serves := sound.users user mem
      cases ended : user.stage with
      | preparing serial address b use =>
        rw [ended] at given
        cases given
      | answered other =>
        rw [ended] at given serves
        cases given
        exact serves
    ends := fun _ _ found => sound.ends found
    alone := sound.cache.resolveShared }

/-- Two compilations of one contract, of which the second has all instructions in row 9. -/
def rowCompilations : Nat → Compilation
  | 0 => Activity.rowCompilation
  | _ => (Compilation.empty.withContract "Token"
      ⟨⟨"Token.sol"⟩, [], "", Activity.rowCode, "9:1:0"⟩).withSource 0 ⟨⟨"src/Token.sol"⟩, ""⟩

def rowLoaded : LoadedTrace where
  transaction := Activity.rowTransaction
  trace := Activity.rowTrace [0, 1, 2]
  frames := ⟨[⟨⟨0⟩, none, 0, .contract Activity.rowAddress, 0, none⟩], [⟨0, ⟨0⟩⟩], 3, none⟩

/-- The cache goes to the second compilation and back while three maps are prepared. -/
def crossedUses : List Section :=
  [.first (.resolve Activity.rowConverter 0 (some 0)),
    .first (.resolve Activity.rowConverter 0 (some 1)), .second 0,
    .first (.sourceMap (.contract Activity.rowAddress) 0), .second 1, .second 2,
    .first (.resolve Activity.rowConverter 1 (some 0))]

def crossedService : Service :=
  Service.start.run compressedReader rowLoaded rowCompilations crossedUses

def locatedAt (step row : Nat) : Answer :=
  .location (.ok ⟨step, .resolved ⟨0, ⟨"src/Token.sol"⟩, ⟨row, 1⟩, ⟨⟨row, 0⟩, ⟨row, 1⟩⟩⟩⟩)

theorem crossedUses_transparent :
    (∃ prepared, (.contract Activity.rowAddress, prepared) ∈ crossedService.cache.maps.entries ∧
      prepared.map (·.map) = compressedReader.prepare (.contract Activity.rowAddress)
        rowLoaded.trace (some Activity.rowCompilation)) ∧
    crossedService.users.map (·.stage.answer?) = (requests crossedUses).map (fun request =>
      some (request.uncached compressedReader rowLoaded rowCompilations)) ∧
    (Request.resolve Activity.rowConverter 0 (some 1)).uncached compressedReader rowLoaded
      rowCompilations = locatedAt 0 9 ∧
    (Request.resolve Activity.rowConverter 1 (some 0)).uncached compressedReader rowLoaded
      rowCompilations = locatedAt 1 7 := by
  have transparent := cache_transparent compressedReader rowLoaded rowCompilations crossedUses
  refine ⟨?_, ?_, by decide +kernel, by decide +kernel⟩
  · have kept : (crossedService.cache.maps.get? (.contract Activity.rowAddress)).isSome := by
      decide +kernel
    have current : crossedService.cache.build = some 0 := by decide +kernel
    obtain ⟨prepared, found⟩ := Option.isSome_iff_exists.mp kept
    obtain ⟨build, named, content⟩ := transparent.kept _ _ (Table.mem_of_get? found)
    obtain rfl := Option.some.inj (current.symm.trans named)
    exact ⟨prepared, Table.mem_of_get? found, content⟩
  · rw [← transparent.asked, List.map_map]
    apply List.map_congr_left
    intro user mem
    have ended : ∀ user ∈ crossedService.users, user.stage.answer?.isSome := by decide +kernel
    obtain ⟨answer, given⟩ := Option.isSome_iff_exists.mp (ended user mem)
    rw [given, transparent.answered user mem answer given]
    rfl

end MapCache

end TraceDebug
