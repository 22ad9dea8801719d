import KindSchema.Text.Numeric
import KindSchema.Text.LetterCase
import KindSchema.Text.CaseMapping
import KindSchema.Text.Pieces

/-!
# Naming conventions

The conversions between the ways names are written in schemas and in generated code:

* `pascal` writes `operator_states`, `operator-states` and `operatorStates` as `OperatorStates`;
* `snake` writes `PlaylistItem` as `playlist_item`;
* `identifier?` makes an identifier in pascal case of an arbitrary literal, if it can;
* `typeName` joins the segments of a field path to the name of a type.

Letters, numbers and case are those of Unicode. The two predicates `isPascalIdentifier` and
`isMachineName` accept ASCII alone.
-/

namespace KindSchema.Naming

/-- The text with its first character in upper case and the rest as it is. -/
def capitalizeChars : List Char → List Char
  | [] => []
  | c :: cs => upperCase c ++ cs

/-- The text `s` with its first character in upper case and the rest as it is. -/
def capitalize (s : String) : String :=
  String.ofList (capitalizeChars s.toList)

/-- The text `s` in lower case, character by character. -/
def lower (s : String) : String :=
  String.ofList (s.toList.flatMap lowerCase)

/-- Whether `c` separates the words of a name. -/
def isWordBreak (c : Char) : Bool :=
  c == '-' || c == '_' || c == '.' || c == ' '

/-- The name `s` in pascal case: its words, each with a capital, without separators. -/
def pascal (s : String) : String :=
  String.ofList ((pieces isWordBreak s.toList).flatMap capitalizeChars)

/-- Snake case of a list of characters. A capital is written small, after an underscore if the
character before it was a small letter or an ASCII digit, which `afterSmall` records. -/
def snakeChars (afterSmall : Bool) : List Char → List Char
  | [] => []
  | c :: cs =>
    if c == '-' || c == ' ' then '_' :: snakeChars false cs
    else if isUppercase c then
      (if afterSmall then ['_'] else []) ++ lowerCase c ++ snakeChars false cs
    else c :: snakeChars (isLowercase c || c.isDigit) cs

/-- The name `s` in snake case: small letters, with underscores between words. -/
def snake (s : String) : String :=
  String.ofList (snakeChars false s.toList)

/-- The identifier made of `literal`: its runs of letters and numbers, each with a capital. There is
none if `literal` has no such run or the result would not start with a letter. -/
def identifier? (literal : String) : Option String :=
  let chars := (pieces (fun c => !isAlphanumeric c) literal.toList).flatMap capitalizeChars
  match chars with
  | [] => none
  | c :: _ => if isAlphabetic c then some (String.ofList chars) else none

/-- Whether a text is `[A-Z][A-Za-z0-9]*`. -/
def isPascalIdentifier (s : String) : Bool :=
  match s.toList with
  | [] => false
  | c :: cs => c.isUpper && cs.all Char.isAlphanum

/-- Whether a text is `[a-z][a-z0-9_]*`, so that it can be a directory and a package name. -/
def isMachineName (s : String) : Bool :=
  match s.toList with
  | [] => false
  | c :: cs => c.isLower && cs.all fun c => c.isLower || c.isDigit || c == '_'

/-- The name of the type at the field path `path`: its segments in pascal case, joined. -/
def typeName (path : List String) : String :=
  String.join (path.map pascal)

end KindSchema.Naming
