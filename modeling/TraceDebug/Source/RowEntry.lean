import TraceDebug.Source.File

/-!
# Source map entries of rows

The entry that maps an instruction to a row of a source file. It ends before the
line break of the row; every row is taken to have one.
-/

namespace TraceDebug

def SourceFile.rowEntry (source : SourceFile) (row file : Nat) : Checked String := do
  let start ← Checked.get source.lineStarts row
  let stop := source.lineStarts[row + 1]?.getD source.size
  let length ← Checked.sub (← Checked.sub stop start) 1
  return s!"{start}:{length}:{file}"

end TraceDebug
