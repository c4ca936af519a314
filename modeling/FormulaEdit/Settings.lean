import FormulaEdit.Numeral.Integer
import FormulaEdit.Render

/-!
# Settings

The environment may set the indentation of one level and the budget of a
replay.  A budget that is no integer is passed over.
-/

namespace FormulaEdit

/-- What the environment sets. -/
structure Settings where
  indent : String := "\t"
  maxSteps : Int := 10000
deriving DecidableEq, Repr

namespace Settings

/-- The settings of two environment variables, each of which may be unset. -/
def ofVariables (indent maxSteps : Option String) : Settings :=
  { indent := indent.getD "\t"
    maxSteps := (maxSteps.bind fun text => Numeral.readInteger text.toList).getD 10000 }

/-- The layout of texts that are rendered without further wishes. -/
def layout (settings : Settings) : Layout := { indent := settings.indent }

end Settings

end FormulaEdit
