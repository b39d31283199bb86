import TraceDebug.Proofs.Source.Map
import TraceDebug.Proofs.Source.Position

/-!
# Ranges and the end of the text

Whether a range leaves the text is decided by where the range ends. That is a sum of two
words, and the decision is right exactly as long as the sum is a word, too: a range that ends
behind the last word gets no answer. Source maps hold no such range.
-/

namespace TraceDebug

/-- A range that leaves the text has no span, and any other range has its own. -/
structure Converter.Decides (c : Converter) (s : SourceFile) (range : SourceRange) : Prop where
  outside : s.size < range.offset + range.length → c.convert s range = .ok none
  inside : range.offset + range.length ≤ s.size →
    c.convert s range = .ok (some (range.spanIn s.bytes))

theorem Converter.Decides.ne_error {c : Converter} {s : SourceFile} {range : SourceRange}
    (h : c.Decides s range) (fault : Fault) : c.convert s range ≠ .error fault := by
  intro failed
  rcases Nat.lt_or_ge s.size (range.offset + range.length) with leaves | stays
  · cases failed.symm.trans (h.outside leaves)
  · cases failed.symm.trans (h.inside stays)

namespace SourceRange

variable {range : SourceRange}

theorem stop_eq_error (beyond : wordLimit ≤ range.offset + range.length) :
    range.stop = .error .sumOverflow :=
  if_neg (Nat.not_lt.mpr beyond)

theorem convert_of_wordLimit_le (s : SourceFile)
    (beyond : wordLimit ≤ range.offset + range.length) :
    lineBreakConverter.convert s range = .error .sumOverflow := by
  simp only [lineBreakConverter, stop_eq_error beyond, bind, Except.bind]

theorem decides (s : SourceFile) (addressable : range.offset + range.length < wordLimit) :
    lineBreakConverter.Decides s range :=
  ⟨range.convert_of_lt s addressable, range.convert_of_le s addressable⟩

theorem decides_iff {s : SourceFile} :
    lineBreakConverter.Decides s range ↔ range.offset + range.length < wordLimit := by
  refine ⟨fun h => ?_, decides s⟩
  apply Nat.lt_of_not_le
  intro beyond
  exact h.ne_error _ (convert_of_wordLimit_le s beyond)

end SourceRange

/-- No range that is read from a source map ends behind the last word. -/
theorem MapReader.Fits.decides {reader : MapReader} (fits : reader.Fits) {text : String}
    {elements : List SourceMap.Element} (read : reader.read text = .ok elements)
    (s : SourceFile) : ∀ e ∈ elements, lineBreakConverter.Decides s ⟨e.offset, e.length⟩ := by
  intro e mem
  have narrow := fits text elements read e mem
  exact SourceRange.decides s (narrow.offset.add_lt narrow.length)

/-- The bounds check is right for a range if and only if the end of the range is a word. For
any other range the sum of offset and length fails, and nothing else can. -/
theorem bounds_decided_up_to_last_word (s : SourceFile) (range : SourceRange) :
    (lineBreakConverter.Decides s range ↔ range.offset + range.length < wordLimit) ∧
      ∀ fault, lineBreakConverter.convert s range = .error fault ↔
        fault = .sumOverflow ∧ wordLimit ≤ range.offset + range.length := by
  refine ⟨SourceRange.decides_iff, fun fault => ⟨fun failed => ?_, ?_⟩⟩
  · rcases Nat.lt_or_ge (range.offset + range.length) wordLimit with addressable | beyond
    · exact absurd failed ((SourceRange.decides s addressable).ne_error fault)
    · have overflow := SourceRange.convert_of_wordLimit_le s beyond
      exact ⟨Except.error.inj (failed.symm.trans overflow), beyond⟩
  · rintro ⟨rfl, beyond⟩
    exact SourceRange.convert_of_wordLimit_le s beyond

/-- Its text is one byte long. -/
def oneLetter : SourceFile := ⟨⟨"x.sol"⟩, "x"⟩

/-- A range of one byte, which starts at the last word, is not found to leave the text; a range
of none is. -/
theorem lastWord_undecided :
    18446744073709551615 < wordLimit ∧ oneLetter.size < 18446744073709551615 + 1 ∧
      lineBreakConverter.convert oneLetter ⟨18446744073709551615, 1⟩ = .error .sumOverflow ∧
      ¬ lineBreakConverter.Decides oneLetter ⟨18446744073709551615, 1⟩ ∧
      lineBreakConverter.convert oneLetter ⟨18446744073709551615, 0⟩ = .ok none := by
  have small : oneLetter.size = 1 := by decide +kernel
  obtain ⟨decided, failing⟩ :=
    bounds_decided_up_to_last_word oneLetter ⟨18446744073709551615, 1⟩
  have below := (bounds_decided_up_to_last_word oneLetter ⟨18446744073709551615, 0⟩).1
  refine ⟨by decide, by rw [small]; decide, (failing _).mpr ⟨rfl, by decide⟩, ?_, ?_⟩
  · rw [decided]
    decide
  · exact (below.mpr (by decide)).outside (by rw [small]; decide)

end TraceDebug
