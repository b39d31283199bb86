import TraceDebug.Source.MapReader

/-!
# The numbers of a source map

A reader fits if the offsets and lengths of all elements that it reads have 32 bits, so that
where an element ends is a word. The reader of compressed source maps fits.
-/

namespace TraceDebug

namespace SourceMap

def Narrow (n : Nat) : Prop := n < 4294967296

theorem Narrow.add_lt {m n : Nat} (first : Narrow m) (second : Narrow n) : m + n < wordLimit := by
  unfold Narrow at first second
  unfold wordLimit
  omega

structure Element.Fits (e : Element) : Prop where
  offset : Narrow e.offset
  length : Narrow e.length

end SourceMap

/-- Whatever text is read, the numbers of its elements have 32 bits. -/
def MapReader.Fits (reader : MapReader) : Prop :=
  ∀ text elements, reader.read text = .ok elements → ∀ e ∈ elements, e.Fits

namespace SourceMap

/-- What is written in a draft and lands in an element is narrow. -/
structure Draft.Fits (d : Draft) : Prop where
  offset : ∀ n, d.offset = some (some n) → Narrow n
  length : ∀ n, d.length = some (some n) → Narrow n

namespace Draft

theorem narrow_of_number {position n : Nat} {value : Int}
    (h : number position value = .ok (some n)) : Narrow n := by
  unfold number at h
  repeat' split at h
  all_goals cases h
  unfold Narrow
  omega

namespace Fits

variable {d d' : Draft} {position : Nat}

theorem empty : ({} : Draft).Fits := ⟨by simp, by simp⟩

theorem colon (fits : d.Fits) (h : d.colon position = .ok d') : d'.Fits := by
  unfold Draft.colon at h
  split at h
  · cases h
    exact ⟨fits.offset, fits.length⟩
  · cases h

theorem setJump (fits : d.Fits) (h : d.setJump position = .ok d') : d'.Fits := by
  unfold Draft.setJump at h
  split at h
  · cases h
  · cases h
    exact ⟨fits.offset, fits.length⟩

theorem setNumber {value : Int} (fits : d.Fits) (h : d.setNumber position value = .ok d') :
    d'.Fits := by
  unfold Draft.setNumber at h
  cases number : Draft.number position value with
  | error cause => cases field : d.field <;> simp [field, number, bind, Except.bind] at h
  | ok written =>
    have narrow {n : Nat} (same : written = some n) : Narrow n :=
      narrow_of_number (same ▸ number)
    cases field : d.field with
    | jump => simp [field] at h
    | offset =>
      simp only [field, number, bind, Except.bind] at h
      split at h
      · cases h
      · cases h
        exact ⟨fun _ same => narrow (Option.some.inj same), fits.length⟩
    | length =>
      simp only [field, number, bind, Except.bind] at h
      split at h
      · cases h
      · cases h
        exact ⟨fits.offset, fun _ same => narrow (Option.some.inj same)⟩
    | index | modifier =>
      simp only [field, number, bind, Except.bind] at h
      split at h
      · cases h
      · cases h
        exact ⟨fits.offset, fits.length⟩

/-- A number that is left out repeats a narrow one. -/
theorem written {n : Option (Option Nat)} {previous : Nat} (narrow : Narrow previous)
    (h : ∀ m, n = some (some m) → Narrow m) :
    Narrow ((n.map (·.getD 0)).getD previous) := by
  rcases n with _ | _ | m
  · exact narrow
  · exact Nat.zero_lt_succ _
  · exact h m rfl

theorem finish {previous e : Element} (fits : d.Fits) (before : previous.Fits)
    (h : d.finish previous = .ok e) : e.Fits := by
  have completed : (Draft.finish.completed previous d).Fits :=
    ⟨written before.offset fits.offset, written before.length fits.length⟩
  unfold Draft.finish at h
  repeat' split at h
  all_goals cases h
  all_goals exact completed

end Fits

end Draft

theorem fits_of_readFrom {position : Nat} {previous : Element} {d : Draft} {text : List Char}
    {elements : List Element} (before : previous.Fits) (fits : d.Fits)
    (h : readFrom position previous d text = .ok elements) : ∀ e ∈ elements, e.Fits := by
  induction position, previous, d, text using readFrom.induct generalizing elements with
  | case1 position previous d =>
    rw [readFrom] at h
    obtain ⟨e, finished, same⟩ := Checked.bind_eq_ok.mp h
    cases same
    intro e' mem
    rw [List.mem_singleton.mp mem]
    exact fits.finish before finished
  | case2 position previous d c tail value width rest number ih =>
    rw [readFrom_of_number number] at h
    obtain ⟨d', set, h⟩ := Checked.bind_eq_ok.mp h
    exact ih d' before (fits.setNumber set) h
  | case3 position previous d tail none ih =>
    rw [readFrom_of_sign none, if_pos rfl] at h
    obtain ⟨e, finished, h⟩ := Checked.bind_eq_ok.mp h
    obtain ⟨others, read, same⟩ := Checked.bind_eq_ok.mp h
    cases same
    have first : e.Fits := fits.finish before finished
    intro e' mem
    rcases List.mem_cons.mp mem with rfl | mem
    · exact first
    · exact ih e first .empty read e' mem
  | case4 position previous d tail none notEnd ih =>
    rw [readFrom_of_sign none, if_neg notEnd, if_pos rfl] at h
    obtain ⟨d', moved, h⟩ := Checked.bind_eq_ok.mp h
    exact ih d' before (fits.colon moved) h
  | case5 position previous d c tail none notEnd notColon jump ih =>
    rw [readFrom_of_sign none, if_neg notEnd, if_neg notColon, if_pos jump] at h
    obtain ⟨d', set, h⟩ := Checked.bind_eq_ok.mp h
    exact ih d' before (fits.setJump set) h
  | case6 position previous d c tail none notEnd notColon other =>
    rw [readFrom_of_sign none, if_neg notEnd, if_neg notColon, if_neg other] at h
    cases h

theorem fits_of_read {text : String} {elements : List Element} (h : read text = .ok elements) :
    ∀ e ∈ elements, e.Fits := by
  unfold read at h
  split at h
  · cases h
    simp
  · have zero : Narrow 0 := Nat.zero_lt_succ _
    exact fits_of_readFrom ⟨zero, zero⟩ .empty h

end SourceMap

theorem compressedReader_fits : compressedReader.Fits := by
  intro text elements h
  change (SourceMap.read text).mapError _ = .ok elements at h
  cases read : SourceMap.read text with
  | error cause =>
    rw [read] at h
    cases h
  | ok others =>
    rw [read] at h
    cases h
    exact SourceMap.fits_of_read read

end TraceDebug
