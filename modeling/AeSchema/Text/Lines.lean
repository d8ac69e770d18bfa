import AeSchema.Text.Split

/-! Lines of a text. A line ends at a line feed, together with one carriage return right before
it; a line feed at the very end starts no further line. -/

namespace AeSchema.Text

def dropReturn (stretch : List Char) : List Char :=
  if stretch.getLast? = some '\r' then stretch.dropLast else stretch

/-- Only a stretch that a line feed ends loses its carriage return. -/
def lines (text : List Char) : List (List Char) :=
  let found := splitAtEach '\n' text
  let ended := found.dropLast.map dropReturn
  match found.getLast? with
  | none | some [] => ended
  | some rest => ended ++ [rest]

end AeSchema.Text
