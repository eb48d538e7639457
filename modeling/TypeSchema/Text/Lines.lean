/-!
# Line breaks

A line of a file may end with a line feed, a carriage return, or both.
-/

namespace TypeSchema.Text

def unifyBreaks : List Char → List Char
  | '\r' :: '\n' :: rest => '\n' :: unifyBreaks rest
  | '\r' :: rest => '\n' :: unifyBreaks rest
  | c :: rest => c :: unifyBreaks rest
  | [] => []

end TypeSchema.Text
