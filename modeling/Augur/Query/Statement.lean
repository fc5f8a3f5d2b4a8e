/-
# Statements with parameters

The text of a query is put together from parts. A part that needs a value binds
it: the value joins the list of those bound before, and a question mark stands
in the part. So the parameters are in the order in which the parts were
written, and the question marks in the order in which the parts were placed.

Key definitions: `Binding`, `Binding.param`, `Statement`, `Statement.of`.
-/
import Augur.Query.Value

namespace Augur

/-- What is written while values are bound, each behind those bound before. -/
abbrev Binding (α : Type) := StateM (List Value) α

/-- A value is bound, and a question mark stands for it. -/
def Binding.param (v : Value) : Binding String := modifyGet fun bound => ("?", bound ++ [v])

/-- The text of a query and the values bound for it. -/
structure Statement where
  text : String
  params : List Value

/-- The statement that is written when nothing was bound before. -/
def Statement.of (w : Binding String) : Statement :=
  let (text, params) := w.run []
  ⟨text, params⟩

end Augur
