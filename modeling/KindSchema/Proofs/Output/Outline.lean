import KindSchema.Output.Arrangement

/-!
# What a rendering keeps of a shape

A shape without the differences that a rendering does not show: those between leaves that are
written alike, and those between documentation that is.

* `Shape.outline`: no documentation, and neither dates nor floating-point numbers.
* `Shape.joinDocs`: documentation as one text.
* `Shape.arrange_declared`: in the declared order a shape is rendered as it is.

`Shape.form` is the constructor of a shape. A rendering from which shapes can be read back shows it
at once.
-/

namespace KindSchema

namespace Shape

mutual

/-- The shape with `leaf` applied to each leaf and `text` to the documentation of each field, at
every depth. -/
def recast (leaf : Scalar → Scalar) (text : List String → List String) : Shape → Shape
  | .scalar kind => .scalar (leaf kind)
  | .enum values => .enum values
  | .array items => .array (recast leaf text items)
  | .map values => .map (recast leaf text values)
  | .struct fields => .struct (recastFields leaf text fields)
  | .named name => .named name

/-- The fields with `leaf` applied to each leaf and `text` to all documentation, at every depth. -/
def recastFields (leaf : Scalar → Scalar) (text : List String → List String) :
    List (Field Shape) → List (Field Shape)
  | [] => []
  | ⟨name, type, optional, docs⟩ :: fields =>
    ⟨name, recast leaf text type, optional, text docs⟩ :: recastFields leaf text fields

end

end Shape

/-- The leaf that a date or a number is written as where only texts and numbers are told apart. -/
def Scalar.outline : Scalar → Scalar
  | .dateTime => .string
  | .float64 => .int64
  | kind => kind

/-- The shape without documentation, its leaves told apart as texts, numbers, truth values and
anything. -/
def Shape.outline : Shape → Shape :=
  Shape.recast Scalar.outline fun _ => []

/-- The fields without documentation, their leaves told apart as `Shape.outline` does. -/
def Shape.outlineFields : List (Field Shape) → List (Field Shape) :=
  Shape.recastFields Scalar.outline fun _ => []

/-- The shape with the lines of the documentation of each field joined to one text. -/
def Shape.joinDocs : Shape → Shape :=
  Shape.recast id fun docs => ["\n".intercalate docs]

/-- The fields with the lines of all documentation joined. -/
def Shape.joinFieldDocs : List (Field Shape) → List (Field Shape) :=
  Shape.recastFields id fun docs => ["\n".intercalate docs]

/-- The body with the lines of the documentation of each field joined to one text. -/
def Body.joinDocs : Body → Body
  | .struct fields => .struct (Shape.joinFieldDocs fields)
  | .enum values => .enum values
  | .synonym shape => .synonym shape.joinDocs

/-- The constructors of shapes. -/
inductive Shape.Form
  | scalar
  | enum
  | array
  | map
  | struct
  | named

/-- The constructor of a shape. -/
def Shape.form : Shape → Form
  | .scalar _ => .scalar
  | .enum _ => .enum
  | .array _ => .array
  | .map _ => .map
  | .struct _ => .struct
  | .named _ => .named

/-! ### The declared order -/

mutual

/-- In the declared order a shape is rendered as it is. -/
theorem Shape.arrange_declared : ∀ shape : Shape, shape.arrange .declared = shape
  | .scalar _ => by rw [Shape.arrange]
  | .enum _ => by rw [Shape.arrange]
  | .array items => by rw [Shape.arrange, Shape.arrange_declared items]
  | .map values => by rw [Shape.arrange, Shape.arrange_declared values]
  | .struct fields => by
    rw [Shape.arrange, Shape.arrangeTypes_declared fields, MemberOrder.sort]
  | .named _ => by rw [Shape.arrange]

theorem Shape.arrangeTypes_declared : ∀ fields : List (Field Shape),
    Shape.arrangeTypes .declared fields = fields
  | [] => by rw [Shape.arrangeTypes]
  | ⟨name, type, optional, docs⟩ :: fields => by
    rw [Shape.arrangeTypes, Shape.arrange_declared type, Shape.arrangeTypes_declared fields]

end

private theorem Body.arrange_declared (body : Body) : body.arrange .declared = body := by
  cases body with
  | struct fields => rw [Body.arrange, Shape.arrangeTypes_declared, MemberOrder.sort]
  | enum values => rfl
  | synonym shape => rw [Body.arrange, Shape.arrange_declared]

/-- In the declared order `k` is rendered as it is, but for its metadata section. -/
theorem ResolvedKind.presented_declared {params : Params} (k : ResolvedKind)
    (h : params.memberOrder = .declared) :
    k.presented params = k.expandMetadata params.metadata := by
  rw [ResolvedKind.presented, h, ResolvedKind.arrange]
  simp only [Shape.arrange_declared, Body.arrange_declared, Field.withType, List.map_id']

end KindSchema
