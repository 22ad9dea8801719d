import KindSchema.Output.Generator
import KindSchema.Output.Unsupported

/-!
# The TypeScript index

A module that exports the kinds of a run again, one line for each kind, in the order of machine
names: the kind under its own name, and its standalone spec under that name followed by `Spec`.
Neither a name nor a machine name may occur twice.
-/

namespace KindSchema.TypeScript

/-- The module of the kind with `machineName` as an import names it, next to the index. -/
def modulePath (machineName : String) : String :=
  "./" ++ machineName ++ "/" ++ machineName ++ "_types.gen"

/-- The line that exports `k`. -/
def exportLine (k : ResolvedKind) : String :=
  "export type \x7b " ++ k.name ++ ", spec as " ++ k.name ++ "Spec \x7d from '" ++
    modulePath k.machineName ++ "';\n"

/-- The lines that export some kinds, given the `names` and `machineNames` exported before. -/
def exportLines (names machineNames : List String) :
    List ResolvedKind → Except Unsupported String
  | [] => .ok ""
  | k :: kinds =>
    if k.name ∈ names then .error (.kindTwice k.name)
    else if k.machineName ∈ machineNames then .error (.moduleTwice k.machineName)
    else do
      let rest ← exportLines (k.name :: names) (k.machineName :: machineNames) kinds
      return exportLine k ++ rest

/-- The index of `kinds`. Without kinds it is a module that exports nothing. -/
def indexText (kinds : List ResolvedKind) : Except Unsupported String :=
  if kinds.isEmpty then .ok "export \x7b\x7d;\n"
  else
    exportLines [] [] (kinds.mergeSort fun a b => decide (a.machineName ≤ b.machineName))

end KindSchema.TypeScript
