/-
Line ends of text files: a carriage return, alone or before a newline, ends a line as a
newline does. Reading a file turns all three forms into the newline.
-/

namespace InferTrace.Text

/-- The characters with every line end written as one newline. -/
def plainNewlines : List Char → List Char
  | [] => []
  | '\r' :: '\n' :: rest => '\n' :: plainNewlines rest
  | '\r' :: rest => '\n' :: plainNewlines rest
  | c :: rest => c :: plainNewlines rest

/-- The contents of a text file from its bytes; `none` if they are not UTF-8. -/
def decodeFile (bytes : ByteArray) : Option String :=
  (String.fromUTF8? bytes).map fun text => String.ofList (plainNewlines text.toList)

end InferTrace.Text
