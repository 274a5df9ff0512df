/-
Places in a source text.

A `Position` counts while a text is read: characters passed, line and column from one. Only a
newline starts a line. A `Location` is a line and a column of a named file, as errors and
tokens report it. The name of a file may hold codes that are no characters.
-/
import InferTrace.Text.Points

namespace InferTrace

/-- A line and a column of a file. -/
structure Location where
  line : Int
  column : Int
  file : Text.Points := "<input>"
deriving DecidableEq, Repr, Inhabited

/-- `file:line:column`. -/
def Location.text (l : Location) : Text.Points :=
  l.file ++ ":" ++ toString l.line ++ ":" ++ toString l.column

/-- How far a reader has come. -/
structure Position where
  offset : Nat := 0
  line : Nat := 1
  column : Nat := 1
deriving DecidableEq, Repr, Inhabited

namespace Position

/-- One character further. -/
def past (p : Position) (c : Char) : Position :=
  if c = '\n' then { offset := p.offset + 1, line := p.line + 1, column := 1 }
  else { offset := p.offset + 1, line := p.line, column := p.column + 1 }

/-- Past all of `cs`. -/
def after (p : Position) (cs : List Char) : Position := cs.foldl past p

/-- The position as a place in `file`. -/
def location (p : Position) (file : Text.Points) : Location :=
  { line := p.line, column := p.column, file := file }

@[simp] theorem after_nil (p : Position) : p.after [] = p := rfl

@[simp] theorem after_cons (p : Position) (c : Char) (cs : List Char) :
    p.after (c :: cs) = (p.past c).after cs := rfl

theorem after_append (p : Position) (xs ys : List Char) :
    p.after (xs ++ ys) = (p.after xs).after ys := by
  simp [after, List.foldl_append]

theorem offset_after (p : Position) (cs : List Char) :
    (p.after cs).offset = p.offset + cs.length := by
  induction cs generalizing p with
  | nil => simp
  | cons c cs ih =>
    have h : (p.past c).offset = p.offset + 1 := by
      unfold past
      split <;> rfl
    rw [after_cons, ih, h, List.length_cons]
    omega

end Position

end InferTrace
