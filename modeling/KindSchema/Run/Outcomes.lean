import KindSchema.Kind.Basic
import KindSchema.Run.Report

/-!
# Outcomes of cells

What a cell gives before anything is written: its files, or an error. Two checks look at many
cells at once, so that no two of them ever write to the same place. Kinds that share a machine
name all fail, and so does every cell with a file whose path some other file has, too.
-/

namespace KindSchema

/-- The files of a cell, or why there are none. -/
structure Outcome where
  cell : CellId
  result : Except CellError (List GeneratedFile)

/-! ### Machine names -/

/-- The names of those of `kinds` that have `machineName`, sorted. -/
def machineNameClaimants (kinds : List Kind) (machineName : String) : List String :=
  ((kinds.filter (·.machineName == machineName)).map (·.name)).mergeSort fun a b => decide (a ≤ b)

/-- The machine names under which the kinds called `name` meet other kinds. -/
def sharedMachineNames (kinds : List Kind) (name : String) : List String :=
  ((kinds.filter (·.name == name)).map (·.machineName)).filter fun machineName =>
    2 ≤ (machineNameClaimants kinds machineName).length

/-- The greatest of `texts`. -/
def greatest? (texts : List String) : Option String :=
  (texts.mergeSort fun a b => decide (a ≤ b)).getLast?

/-- The error of the kinds called `name` if they share a machine name with others of `kinds`. Of
several such machine names the greatest is reported. -/
def machineNameClash? (kinds : List Kind) (name : String) : Option SchemaError :=
  (greatest? (sharedMachineNames kinds name)).map fun machineName =>
    .duplicateOutputPath (machineName ++ "/") (machineNameClaimants kinds machineName)

/-! ### Paths -/

/-- All files of the cells in `outcomes` that have files. -/
def allFiles (outcomes : List Outcome) : List GeneratedFile :=
  outcomes.flatMap fun o =>
    match o.result with
    | .ok files => files
    | .error _ => []

/-- Those of `files` that have the path `path`. -/
def pathClaimants (files : List GeneratedFile) (path : Path) : List GeneratedFile :=
  files.filter (·.path.same path)

/-- The kinds of `files`, sorted and each once. -/
def kindsOf (files : List GeneratedFile) : List String :=
  ((files.map (·.kind)).eraseDups).mergeSort fun a b => decide (a ≤ b)

/-- The outcome `o` of a cell with regard to `files`, all there are: an error if one of its own has
a path that is claimed twice. -/
def Outcome.rejectShared (files : List GeneratedFile) (o : Outcome) : Outcome :=
  match o.result with
  | .error _ => o
  | .ok own =>
    -- A file of the cell itself is among all files, so one claimant is no conflict.
    match own.find? fun f => 2 ≤ (pathClaimants files f.path).length with
    | none => o
    | some f =>
      { o with
        result := .error (.schema
          (.duplicateOutputPath f.path.text (kindsOf (pathClaimants files f.path)))) }

/-- The check leaves the cell of `o` what it is. -/
@[simp] theorem Outcome.cell_rejectShared (files : List GeneratedFile) (o : Outcome) :
    (o.rejectShared files).cell = o.cell := by
  unfold Outcome.rejectShared
  split
  · rfl
  · split <;> rfl

/-- The cells of `outcomes` with every one failed that has a path claimed twice. -/
def rejectSharedPaths (outcomes : List Outcome) : List Outcome :=
  outcomes.map (Outcome.rejectShared (allFiles outcomes))

/-- The check leaves the cells of `outcomes` and their order as they are. -/
theorem map_cell_rejectSharedPaths (outcomes : List Outcome) :
    (rejectSharedPaths outcomes).map (·.cell) = outcomes.map (·.cell) := by
  simp [rejectSharedPaths, Function.comp_def]

end KindSchema
