import DeepseekScience.Lib.Lines
import DeepseekScience.Text

/-! The lines of a text, without their line ends. -/
namespace DeepseekScience

/-- A line without its line end. -/
def chompLine (line : Text) : Text :=
  match line.reverse with
  | '\n' :: '\r' :: rest => rest.reverse
  | '\n' :: rest => rest.reverse
  | _ => line

/-- `str::lines`. -/
def textLines (t : Text) : List Text := (Lines.lines '\n' t).map chompLine

end DeepseekScience
