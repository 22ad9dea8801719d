import KindSchema.Files.Path

/-!
# Headers of generated files

A header says that a file is generated, by what, and with which generator. It is written as
comments, so files of formats that have no comments get none. What comments start with is told by
the extension.
-/

namespace KindSchema

/-- What starts a comment line in the file at `path`, if its format has comments. -/
def commentLeader? (path : Path) : Option String :=
  match path.extension? with
  | some "json" | some "md" => none
  | some "yml" | some "yaml" => some "#"
  | _ => some "//"

/-- The text `s` with slashes in place of backslashes. -/
def withSlashes (s : String) : String :=
  s.map fun c => if c = '\\' then '/' else c

/-- The text `content` of the file at `path` with a header in front that names `main`, the main
generator, and `generator`, that of the file. -/
def withHeader (path : Path) (main generator content : String) : String :=
  match commentLeader? path with
  | none => content
  | some leader =>
    leader ++ " Code generated - EDITING IS FUTILE. DO NOT EDIT.\n" ++
    leader ++ "\n" ++
    leader ++ " Generated by:\n" ++
    leader ++ "     " ++ withSlashes main ++ "\n" ++
    leader ++ " Using generator:\n" ++
    leader ++ "     " ++ generator ++ "\n" ++
    "\n" ++ content

end KindSchema
