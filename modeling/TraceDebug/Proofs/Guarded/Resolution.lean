import TraceDebug.Proofs.Guarded.Hits

/-!
# No loaded trace and no compilation makes resolving fail

Whatever the steps of a trace say, malformed or not, and whatever a compilation holds, looking
up frames and stacks, moving the cursor, preparing source maps, locating and resolving steps,
indexing breakpoints and searching for hits read and write inside, and all sums and differences
are words.
-/

namespace TraceDebug

instance (t : Trace) : Decidable t.InMemory :=
  inferInstanceAs (Decidable (∀ e ∈ t.bytecodes.entries, e.2.length < memoryLimit))

namespace LoadedTrace

/-- Everything that is asked of a loaded trace gets an answer, with all accesses checked, and
whatever the reader says about source maps. -/
structure Unfailing (reader : MapReader) (l : LoadedTrace) : Prop where
  /-- Among the segments the search for a replayed step never ends at the first place. -/
  segment : ∀ step, step < l.length → l.frames.malformationBefore step = none →
    ∃ place, PartsAt (FrameIndex.begun step) l.frames.segments.reverse place ∧ 0 < place
  frame : ∀ step, ∃ answer, Guarded.frameAt l.frames step = .ok answer ∧
    l.frames.frameAt step = .ok answer
  stack : ∀ step, ∃ answer, l.frames.stackAt step = .ok answer
  target : ∀ n : Navigator, n.cursor < n.length → n.length < wordLimit →
    ∀ m, ∃ found, n.target l.frames m = .ok found
  prepare : ∀ address artifact, (∀ c ∈ artifact, c.InMemory) →
    Guarded.prepare reader address l.trace artifact =
      .ok (reader.prepare address l.trace artifact)
  /-- The compilation may be another one than the one that the map was prepared for. -/
  locate : ∀ address artifact m, reader.prepare address l.trace artifact = .ok m →
    ∀ pc, ∀ other : Compilation, other.InMemory →
      ∃ outcome, (Resolver.mk Guarded.converter reader).locate m pc other = .ok outcome
  /-- After any use of the cache of source maps by any number of users. -/
  resolve : ∀ compilations : Nat → Compilation, (∀ id, (compilations id).InMemory) →
    ∀ sections step (artifact : Option Nat), ∃ after found,
      Guarded.resolve reader l
        (MapCache.Service.start.run reader l compilations sections).cache step
        (artifact.map (MapCache.buildOf compilations)) = .ok (after, found) ∧
      l.resolve ⟨lineBreakConverter, reader⟩ step (artifact.map compilations) = .ok found
  run : ∀ q : IndexRequest, q.loaded = l → q.resolver = ⟨lineBreakConverter, reader⟩ →
    q.compilation.InMemory → ∃ result, Guarded.run q = .ok result ∧ q.run = .ok result

variable {reader : MapReader} {l : LoadedTrace}

theorem exists_index (transaction : Transaction) {t : Trace} (nonempty : t.steps ≠ [])
    (shallow : ∀ s ∈ t.steps, s.depth + 1 < wordLimit) :
    ∃ l, index transaction t = .ok (.ok l) ∧ l.trace.bytecodes = t.bytecodes := by
  let rooted : Trace := { t with root := transaction.rootAddress }
  obtain ⟨r, malformed, built, -⟩ := FrameIndex.exists_build (t := rooted) nonempty shallow
  have notEmpty : t.isEmpty = false := by simpa [Trace.isEmpty] using nonempty
  refine ⟨⟨transaction, rooted, FrameIndex.ofReplay rooted r malformed⟩, ?_, rfl⟩
  rw [index, notEmpty]
  exact Checked.bind_eq_ok.mpr ⟨_, built, rfl⟩

theorem Indexed.unfailing (fits : reader.Fits) (indexed : l.Indexed)
    (codes : l.trace.InMemory) : l.Unfailing reader where
  segment := by
    intro step inside replayed
    obtain ⟨nonempty, built⟩ := indexed.built
    rw [← indexed.length_frames] at inside
    exact ⟨_, partsAt_partitionPoint (FrameIndex.begun_parts nonempty built step),
      Guarded.partitionPoint_pos nonempty built inside replayed⟩
  frame := by
    intro step
    obtain ⟨nonempty, built⟩ := indexed.built
    obtain ⟨answer, found⟩ := indexed.exists_frameAt step
    exact ⟨answer, (Guarded.frameAt_eq nonempty built step).trans found, found⟩
  stack := by
    intro step
    obtain ⟨answer, found⟩ := indexed.exists_frameAt step
    exact ⟨_, Checked.map_eq_ok.mpr ⟨answer, found, rfl⟩⟩
  target := by
    intro n inside addressable m
    exact Navigator.exists_target indexed inside (Nat.lt_of_le_of_lt inside addressable) m
  prepare := fun address artifact inMemory => Guarded.prepare_eq codes inMemory address
  locate := by
    intro address artifact m prepared pc other inMemory
    rw [Guarded.locate_eq inMemory]
    exact Resolver.exists_locate lineBreakConverter_answers (fits.prepare prepared) pc other
  resolve := by
    intro compilations inMemory sections step artifact
    have sound := MapCache.Service.sound_run reader l compilations sections
    exact Guarded.exists_resolve fits indexed codes inMemory sound.cache step artifact
  run := by
    rintro q rfl resolver inMemory
    have breaks : q.resolver.converter = lineBreakConverter := by rw [resolver]
    have answers : q.resolver.converter.Answers := breaks ▸ lineBreakConverter_answers
    have fits : q.resolver.reader.Fits := by rwa [resolver]
    have ended := IndexRequest.run_eq indexed answers fits
    exact ⟨_, (Guarded.run_eq indexed codes inMemory breaks fits).trans ended, ended⟩

/-- Every trace with steps, whose depths leave room for one more, can be loaded, and nothing that
is then asked of it fails: neither its frames, stacks and movements, nor preparing, locating and
resolving against any compilation, nor indexing breakpoints. The search for the next hit never
fails, nor does the end of a range from a source map. Of the reader of source maps only the 32
bits are used. -/
theorem resolution_never_fails {reader : MapReader} (fits : reader.Fits)
    (transaction : Transaction) (t : Trace) (nonempty : t.steps ≠ [])
    (shallow : ∀ s ∈ t.steps, s.depth + 1 < wordLimit) (codes : t.InMemory) :
    (∃ l, index transaction t = .ok (.ok l) ∧ l.Unfailing reader) ∧
    (∀ (e : BreakpointEngine) (current : Nat) (direction : Direction),
      Guarded.nextHit e current direction = .ok (e.nextHit current direction)) ∧
    ∀ text elements, reader.read text = .ok elements → ∀ e ∈ elements,
      SourceRange.stop ⟨e.offset, e.length⟩ = .ok (e.offset + e.length) := by
  refine ⟨?_, Guarded.nextHit_eq, ?_⟩
  · obtain ⟨l, loaded, same⟩ := exists_index transaction nonempty shallow
    have inMemory : l.trace.InMemory := by
      rw [Trace.InMemory, same]
      exact codes
    exact ⟨l, loaded, Indexed.unfailing fits ⟨transaction, t, loaded⟩ inMemory⟩
  · intro text elements read e mem
    have narrow := fits text elements read e mem
    exact SourceRange.stop_eq_ok _ (narrow.offset.add_lt narrow.length)

/-- A call with a program counter outside the code, then a jump of the depth. -/
def brokenTrace : Trace where
  steps := [⟨7, 0x5b, 1, none⟩, ⟨999, 0xf1, 1, some (.ofLast 2)⟩, ⟨0, 0x60, 2, none⟩,
    ⟨1, 0x00, 9, none⟩]
  root := .creation .transaction
  bytecodes := .ofList [(.contract (.ofLast 2), [0x61, 0x01]), (.creation .transaction, [])]

theorem brokenTrace_never_fails : compressedReader.Fits ∧ brokenTrace.steps ≠ [] ∧
    (∀ s ∈ brokenTrace.steps, s.depth + 1 < wordLimit) ∧ brokenTrace.InMemory ∧
    ∃ l, index Activity.rowTransaction brokenTrace = .ok (.ok l) ∧
      l.Unfailing compressedReader := by
  have nonempty : brokenTrace.steps ≠ [] := by decide
  have shallow : ∀ s ∈ brokenTrace.steps, s.depth + 1 < wordLimit := by decide
  have codes : brokenTrace.InMemory := by decide
  have fits := compressedReader_fits
  exact ⟨fits, nonempty, shallow, codes,
    (resolution_never_fails fits Activity.rowTransaction brokenTrace nonempty shallow codes).1⟩

end LoadedTrace

end TraceDebug
