import TraceDebug.Proofs.Frame.Stacks
import TraceDebug.Proofs.Navigator
import TraceDebug.Proofs.Source.Map
import TraceDebug.Proofs.Source.Position
import TraceDebug.Source.Resolver

/-!
# Resolving comes to an answer

On a loaded trace every step resolves to a location or to a reason why there is none, as
long as the reader of source maps fits and the converter has an answer for the ranges that
such a reader gives.
-/

namespace TraceDebug

/-- The converter has an answer, with a span or without, for every range of 32-bit numbers. -/
def Converter.Answers (converter : Converter) : Prop :=
  ∀ (source : SourceFile) (range : SourceRange), SourceMap.Narrow range.offset →
    SourceMap.Narrow range.length → ∃ span, converter.convert source range = .ok span

theorem lineBreakConverter_answers : lineBreakConverter.Answers := by
  intro source range offset length
  have addressable : range.offset + range.length < wordLimit := offset.add_lt length
  by_cases inside : range.offset + range.length ≤ source.size
  · exact ⟨_, range.convert_of_le source addressable inside⟩
  · exact ⟨_, range.convert_of_lt source addressable (Nat.lt_of_not_le inside)⟩

theorem MapReader.Fits.prepare {reader : MapReader} (fits : reader.Fits)
    {address : ExecutingAddress} {t : Trace} {artifact : Option Compilation}
    {m : ContractSourceMap} (prepared : reader.prepare address t artifact = .ok m) :
    ∀ e ∈ m.elements, e.Fits := by
  unfold MapReader.prepare at prepared
  split at prepared
  · cases prepared
  · split at prepared
    · cases prepared
    · dsimp only at prepared
      split at prepared
      · cases prepared
      · split at prepared
        · cases prepared
        · next read =>
          cases prepared
          exact fits _ _ read

namespace Resolver

variable {r : Resolver}

theorem exists_locate (answers : r.converter.Answers) {m : ContractSourceMap}
    (fits : ∀ e ∈ m.elements, e.Fits) (pc : Nat) (c : Compilation) :
    ∃ outcome, r.locate m pc c = .ok outcome := by
  unfold locate
  split
  · exact ⟨_, rfl⟩
  · next element placed =>
    obtain ⟨number, -, listed⟩ := Option.bind_eq_some_iff.mp placed
    have narrow := fits element (List.mem_of_getElem? listed)
    split
    · exact ⟨_, rfl⟩
    · split
      · exact ⟨_, rfl⟩
      · next source _ =>
        obtain ⟨span, converted⟩ :=
          answers source ⟨element.offset, element.length⟩ narrow.offset narrow.length
        cases span with
        | none => exact ⟨_, Checked.bind_eq_ok.mpr ⟨none, converted, rfl⟩⟩
        | some span => exact ⟨_, Checked.bind_eq_ok.mpr ⟨some span, converted, rfl⟩⟩

theorem exists_resolve (answers : r.converter.Answers) (fits : r.reader.Fits)
    (address : ExecutingAddress) (pc : Nat) (t : Trace) (artifact : Option Compilation) :
    ∃ outcome, r.resolve address pc t artifact = .ok outcome := by
  unfold resolve
  split
  · exact ⟨_, rfl⟩
  · split
    · next prepared => exact exists_locate answers (fits.prepare prepared) pc _
    · exact ⟨_, rfl⟩

end Resolver

namespace LoadedTrace

variable {l : LoadedTrace} {r : Resolver}

/-- A step has no known address, or it has one and is in the trace. -/
theorem Indexed.addressAt_cases (indexed : l.Indexed) (step : Nat) :
    (∃ cause, l.frames.addressAt step = .ok (.error cause)) ∨
      ∃ address executed, l.frames.addressAt step = .ok (.ok address) ∧
        l.step? step = some executed := by
  obtain ⟨answer, framed⟩ := indexed.exists_frameAt step
  have known : l.frames.addressAt step = .ok (answer.map (·.address)) :=
    Checked.map_eq_ok.mpr ⟨answer, framed, rfl⟩
  cases answer with
  | error cause => exact .inl ⟨cause, known⟩
  | ok f =>
    have inside := (FrameIndex.replayed_of_frameAt framed).1
    rw [indexed.length_frames] at inside
    exact .inr ⟨f.address, _, known, List.getElem?_eq_getElem inside⟩

theorem exists_resolve (indexed : l.Indexed) (answers : r.converter.Answers)
    (fits : r.reader.Fits) (step : Nat) (artifact : Option Compilation) :
    ∃ found, l.resolve r step artifact = .ok found := by
  unfold resolve Resolver.resolveStep
  rcases indexed.addressAt_cases step with ⟨cause, unknown⟩ | ⟨address, executed, known, executes⟩
  · rw [unknown]
    exact ⟨_, rfl⟩
  · obtain ⟨outcome, found⟩ :=
      Resolver.exists_resolve answers fits address executed.pc l.trace artifact
    unfold step? at executes
    simp only [known, executes, found, bind, Except.bind]
    exact ⟨_, rfl⟩

/-- A step with a location was replayed. -/
theorem replayed_of_resolve {step : Nat} {artifact : Option Compilation}
    {location : SourceLocation}
    (resolved : l.resolve r step artifact = .ok ⟨step, .resolved location⟩) :
    l.frames.Replayed step := by
  unfold resolve Resolver.resolveStep at resolved
  obtain ⟨answer, known, found⟩ := Checked.bind_eq_ok.mp resolved
  cases answer with
  | error cause => cases found
  | ok address =>
    obtain ⟨framed, here, same⟩ := Checked.map_eq_ok.mp known
    cases framed with
    | error cause => cases same
    | ok f => exact FrameIndex.replayed_of_frameAt here

end LoadedTrace

end TraceDebug
