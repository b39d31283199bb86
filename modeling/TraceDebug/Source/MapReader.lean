import TraceDebug.Source.Map

/-!
# Readers of source maps

Reading the text of a source map is the work of a compiler's library. Resolving is given a
reader, and knows of it only what it is told.
-/

namespace TraceDebug

/-- Reads the text of a source map: its elements, or what is wrong with the text. -/
structure MapReader where
  read : String → Except String (List SourceMap.Element)

/-- The reader of compressed source maps. -/
def compressedReader : MapReader where
  read text := (SourceMap.read text).mapError SourceMap.ReadError.message

end TraceDebug
