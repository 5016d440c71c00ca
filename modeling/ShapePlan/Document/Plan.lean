/-
The records of the shapes in a document, and the plan that they compile to. A document that cannot be read fails before
any of its IRIs is named.
-/
import ShapePlan.Document.Read
import ShapePlan.Plan.Compile
import ShapePlan.Shapes.Extract

namespace ShapePlan

def Source.records (o : ReadOptions) (f : Format) (src : Source) : Except ReadError (List Record) :=
  (src.graph o f).map Graph.records

/-- Why a document has no plan. -/
inductive DocumentError where
  | read (e : ReadError)
  | naming (e : NamingError)
deriving DecidableEq, Repr

/-- The plan of the shapes in a document. -/
def Naming.compileSource (n : Naming) (o : ReadOptions) (f : Format) (src : Source) : Except DocumentError Plan := do
  let records ← (src.records o f).mapError .read
  (n.compile records).mapError .naming

end ShapePlan
