import FormulaEdit.Disk
import FormulaEdit.Stack

/-!
# Stacks on disk

A stack file holds the text of a stack and a line feed.
-/

namespace FormulaEdit.Disk

/-- Write a stack, making the directories above its file. -/
def saveStack (disk : Disk) (path : Path) (stack : Stack) : Disk × Result Unit :=
  disk.deliver path (stack.text ++ "\n")

/-- Read a stack. -/
def loadStack (disk : Disk) (path : Path) : Result Stack :=
  match disk.read path with
  | .ok text => Stack.ofText (some Numeral.maxDigits) text
  | .error .missing => .error (.stack (.missingFile path.text))
  | .error fault => .error (.file fault path.text)

end FormulaEdit.Disk
