import OverlayScrollbar.Json.Format
import OverlayScrollbar.Json.Reader
import OverlayScrollbar.Json.Writer

/-!
# The JSON library that the program runs with

- `JsonFormat.standard` : numbers are numerals, which keep their digits
-/

namespace OverlayScrollbar

/-- The reader and the writer of this library. -/
def JsonFormat.standard : JsonFormat where
  Number := Numeral
  ofSingle? := Single.numeral?
  single? := Numeral.single?
  read? text := Json.read? text.toList
  write value := String.ofList value.pretty

end OverlayScrollbar
