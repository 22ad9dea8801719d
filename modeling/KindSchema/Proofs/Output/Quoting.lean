import KindSchema.Proofs.Go.Expressible
import KindSchema.Proofs.Go.Literals
import KindSchema.Proofs.TypeScript.Literals

/-!
# Literals in generated files

The literals of enumerations, and the names of properties that need quotes, stand in generated files
as string literals. A backslash is put before every quote and every backslash, and all other
characters stand there as they are.

* `literals_readBack`: a literal is read back as the text that it is written for if none of its
  characters is refused in a literal. Otherwise it is no literal.
-/

namespace KindSchema

/-- Every literal for `text`, in both languages, ends where it is meant to end and denotes `text`
and no other text, unless `text` has a character that the language refuses in literals, such as a
line feed. Then it is no literal at all. -/
theorem literals_readBack (strict : Bool) (text : String) :
    (∀ literal ∈ TypeScript.literalsFor text,
      (TypeScript.literalSyntax strict).Quotes literal text) ∧
    (Go.literalSyntax strict).Quotes (Go.stringLiteral text) text ∧
    (∀ other, (TypeScript.literalSyntax strict).unitsOf other =
      (TypeScript.literalSyntax strict).unitsOf text → other = text) ∧
    ∀ other, (Go.literalSyntax strict).unitsOf other = (Go.literalSyntax strict).unitsOf text →
      other = text := by
  refine ⟨fun literal h => ?_, Go.quotes_stringLiteral strict text,
    fun other h => TypeScript.unitsOf_injective strict h,
    fun other h => Go.unitsOf_injective strict h⟩
  rw [TypeScript.eq_stringLiteral_of_mem_literalsFor h]
  exact TypeScript.quotes_stringLiteral strict text

namespace Sample

/-- A text with quotes of both sorts and a backslash has literals that are read back, one of them
for the name of a property. -/
theorem literals_readBack_quotes :
    TypeScript.propertyName "it's \"so\" \\" ∈ TypeScript.literalsFor "it's \"so\" \\" ∧
    ∀ rest,
      (TypeScript.literalSyntax true).literal?
        ((TypeScript.propertyName "it's \"so\" \\").toList ++ rest) =
          some ((TypeScript.literalSyntax true).unitsOf "it's \"so\" \\", rest) ∧
      (Go.literalSyntax true).literal? ((Go.stringLiteral "it's \"so\" \\").toList ++ rest) =
        some ((Go.literalSyntax true).unitsOf "it's \"so\" \\", rest) := by
  have hproperty : TypeScript.propertyName "it's \"so\" \\" ∈
      TypeScript.literalsFor "it's \"so\" \\" := by decide +kernel
  obtain ⟨htypeScript, hgo, -⟩ := literals_readBack true "it's \"so\" \\"
  refine ⟨hproperty, fun rest => ⟨?_, ?_⟩⟩
  · exact (htypeScript _ hproperty rest).trans (if_neg (by decide))
  · exact (hgo rest).trans (if_neg (by decide))

/-- A kind with an enumeration that has one literal, of two lines. -/
def banner : Kind where
  name := "Banner"
  metadata := { type := .struct { fields := [] } }
  spec := { fields := [{ name := "text", type := .enum ["two\nlines"] }] }
  status := { fields := [] }

/-- The kind, resolved with its enumeration in place. -/
def bannerResolved : ResolvedKind where
  name := "Banner"
  machineName := "banner"
  description := []
  metadata := { name := "metadata", type := .struct [] }
  spec := { name := "spec", type := .struct [
    { name := "text", type := .enum ["two\nlines"] }] }
  status := { name := "status", type := .struct [] }
  declarations := []

private theorem resolve_banner : banner.resolve .inline = .ok bannerResolved := by
  with_unfolding_all rfl

/-- What is written for the literal of two lines is no literal, whatever follows. -/
theorem literal_broken_banner : banner.resolve .inline = .ok bannerResolved ∧
    bannerResolved.spec.type = .struct [{ name := "text", type := .enum ["two\nlines"] }] ∧
    TypeScript.typeText false 2 (.enum ["two\nlines"]) = "('two\nlines')" ∧
    ∀ strict rest,
      (TypeScript.literalSyntax strict).literal?
        ((TypeScript.stringLiteral "two\nlines").toList ++ rest) = none ∧
      (Go.literalSyntax strict).literal? ((Go.stringLiteral "two\nlines").toList ++ rest) =
        none := by
  refine ⟨resolve_banner, rfl, by with_unfolding_all rfl, fun strict rest => ⟨?_, ?_⟩⟩
  · rw [TypeScript.quotes_stringLiteral strict "two\nlines" rest, if_pos]
    cases strict <;> decide
  · rw [Go.quotes_stringLiteral strict "two\nlines" rest, if_pos]
    cases strict <;> decide

end Sample

end KindSchema
