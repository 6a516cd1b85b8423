import RegisterMachine.Text.Pieces

/-! Lines of a text. A line ends at a line feed or at a carriage return with a line feed after it;
the last line may go without an end, and then a carriage return in it is text. -/

namespace RegisterMachine.Text

/-- The line without the one carriage return that belongs to its end. -/
def dropReturn (line : List Char) : List Char :=
  if line.getLast? = some '\r' then line.dropLast else line

def lines (text : List Char) : List (List Char) :=
  let all := pieces (· == '\n') text
  all.dropLast.map dropReturn ++ (all.getLast?.filter (!·.isEmpty)).toList

end RegisterMachine.Text
