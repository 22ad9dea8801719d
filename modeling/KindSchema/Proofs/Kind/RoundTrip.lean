import KindSchema.Proofs.Kind.Nesting
import KindSchema.Proofs.Resolution.Run

/-!
# Kinds as text, and back

`ofText_toText_iff`: the text of a kind is read as the kind itself, whatever its names, its
documentation and its types are, exactly if it does not nest too many brackets. Every kind that was
read from some text is of this sort.
-/

namespace KindSchema

open Json

namespace Kind

/-- No bracket, no quote and no escape in the text of `k` misleads the reader. -/
theorem ofText_toText (k : Kind) :
    ofText k.toText = RecordFormat.decode false nestingLimit kindFormat k.toJson.reading := by
  unfold ofText
  rw [toText, Reading.ofText_compact]
  dsimp only
  cases RecordFormat.decode false nestingLimit kindFormat k.toJson.reading <;> rfl

/-- A kind that was read nests no more brackets than the limit. -/
private theorem depth_of_ofText {text : String} {k : Kind} (h : ofText text = .ok k) :
    k.toJson.depth ≤ nestingLimit := by
  obtain ⟨kind, hkind, h⟩ := bind_eq_ok.mp h
  obtain ⟨_, -, rfl⟩ := bind_return_eq_ok.mp h
  exact depth_of_decode (by decide) hkind

/-- The text of a kind `k` is read as the kind itself exactly if its JSON form does not nest more
brackets than the limit, and what was read from any `text` can be written and read again. -/
theorem ofText_toText_iff :
    (∀ k : Kind, ofText k.toText = .ok k ↔ k.toJson.depth ≤ nestingLimit) ∧
      ∀ (text : String) (k : Kind), ofText text = .ok k → ofText k.toText = .ok k := by
  have hread : ∀ k : Kind, k.toJson.depth ≤ nestingLimit → ofText k.toText = .ok k := by
    intro k hdepth
    rw [ofText_toText]
    exact decode_toJson hdepth
  refine ⟨fun k => ⟨depth_of_ofText, hread k⟩, fun text k h => ?_⟩
  exact hread k (depth_of_ofText h)

end Kind

namespace Sample

theorem roundTrip_shop : shop.toJson.depth = 10 ∧ Kind.ofText shop.toText = .ok shop := by
  have hdepth : shop.toJson.depth = 10 := by decide
  have hread : Kind.ofText shop.toText = .ok shop := by
    rw [Kind.ofText_toText_iff.1, hdepth]
    decide
  exact ⟨hdepth, Kind.ofText_toText_iff.2 shop.toText shop hread⟩

end Sample

end KindSchema
