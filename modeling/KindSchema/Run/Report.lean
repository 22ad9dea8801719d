import KindSchema.Kind.Error
import KindSchema.Output.Unsupported
import KindSchema.Output.Writer

/-!
# Reports

A run covers cells: a kind, a generator and a variant, or all kinds together. Its report says of
every cell what was written, why it failed, or that it was skipped. The parts of a report are
sorted by kind, then by generator, then by variant, and files then by path; what is equal in all
of these stays in the order in which it came.
-/

namespace KindSchema

/-- A kind, a generator and a variant. -/
structure CellId where
  kind : String
  generator : Generator
  variant : VariantId
deriving DecidableEq, Repr

namespace CellId

/-- The name of the kind in the cells of an aggregate generator. -/
def allKinds : String := "*"

/-- The text of `c`. -/
def text (c : CellId) : String :=
  c.kind ++ "/" ++ c.generator.name ++ "/" ++ c.variant.name

/-- Cells compare by kind, then by generator, then by variant. -/
instance : Ord CellId where
  compare a b :=
    (compare a.kind b.kind).then
      ((compare a.generator.rank b.generator.rank).then (compare a.variant.rank b.variant.rank))

end CellId

/-- Why a cell failed. -/
inductive CellError
  | schema (cause : SchemaError)
  | unsupported (cause : Unsupported)
  | write (cause : WriteError)
deriving DecidableEq, Repr

namespace CellError

/-- The sort of an error, as reports show it. -/
def category : CellError → String
  | .schema _ => "SchemaError"
  | .unsupported _ => "UnsupportedConstructError"
  | .write _ => "WriteError"

/-- The text of an error. -/
def message : CellError → String
  | .schema cause => cause.message
  | .unsupported cause => cause.message
  | .write cause => cause.message

end CellError

/-- A file that was written, verified or would have been written. -/
structure WrittenFile where
  cell : CellId
  path : Path
deriving DecidableEq, Repr

/-- A cell that failed. -/
structure CellFailure where
  cell : CellId
  error : CellError
deriving DecidableEq, Repr

/-- What became of the cells of a run. -/
structure Report where
  /-- A cell may have several files. -/
  written : List WrittenFile := []
  failures : List CellFailure := []
  /-- The cells whose kind does not have the variant. -/
  skipped : List CellId := []
deriving DecidableEq, Repr

namespace Report

/-- Whether no cell of `r` failed. -/
def isSuccess (r : Report) : Bool :=
  r.failures.isEmpty

/-- The first error of `cell`. -/
def failure? (r : Report) (cell : CellId) : Option CellError :=
  (r.failures.find? (·.cell == cell)).map (·.error)

/-- The order of the written files `a` and `b`: by cell, then by path. -/
def compareWritten (a b : WrittenFile) : Ordering :=
  (compare a.cell b.cell).then (a.path.compare b.path)

/-- The report `r` with its parts sorted. -/
def sorted (r : Report) : Report where
  written := r.written.mergeSort fun a b => (compareWritten a b).isLE
  failures := r.failures.mergeSort fun a b => (compare a.cell b.cell).isLE
  skipped := r.skipped.mergeSort fun a b => (compare a b).isLE

/-- Sorting neither loses nor adds a written file. -/
theorem written_sorted_perm (r : Report) : r.sorted.written.Perm r.written :=
  List.mergeSort_perm _ _

/-- Sorting neither loses nor adds a failure. -/
theorem failures_sorted_perm (r : Report) : r.sorted.failures.Perm r.failures :=
  List.mergeSort_perm _ _

/-- Sorting neither loses nor adds a skipped cell. -/
theorem skipped_sorted_perm (r : Report) : r.sorted.skipped.Perm r.skipped :=
  List.mergeSort_perm _ _

/-- The run of `r` succeeds before sorting if and only if it does after it. -/
@[simp] theorem isSuccess_sorted (r : Report) : r.sorted.isSuccess = r.isSuccess := by
  rw [isSuccess, isSuccess, Bool.eq_iff_iff, List.isEmpty_iff, List.isEmpty_iff]
  exact ⟨fun h => (h ▸ (failures_sorted_perm r).symm).eq_nil,
    fun h => (h ▸ failures_sorted_perm r).eq_nil⟩

end Report

end KindSchema
