import CatalogPress.Document.Render
import CatalogPress.Proofs.Fallible
import CatalogPress.Proofs.Sanitize.Directives

/-!
Which texts are sanitized to a text without markers. Brace pairs are removed once, from left to
right, so a marker that only comes about when a pair between two braces is removed stays in the
text.
-/
namespace CatalogPress

def Brace.Survives (brace : Brace) (text : Text) : Prop :=
  ∃ rest, Sanitize.Stripped text.points rest ∧ brace.Meets rest

theorem marker_infix_sanitize_iff (brace : Brace) (text : Text) :
    brace.marker <:+: (sanitize text).text.points ↔ brace.Survives text := by
  have hsanitize : (sanitize text).text.points =
      (Sanitize.dropPairs (Sanitize.dropDirectives text.points).1).1 := rfl
  rw [hsanitize, Brace.marker_infix_dropPairs_iff]
  simp only [Brace.Survives, Sanitize.stripped_iff, exists_eq_left]

theorem Document.renderText_eq_ok {limit : Int} {scope : Value}
    {source : String} {result : Sanitized} (h : renderText limit scope source = .ok result) :
    ∃ template rendered, Template.parse source = .ok template ∧
      template.render scope limit = .ok rendered ∧ result = sanitize rendered := by
  unfold renderText at h
  obtain ⟨template, hparse, h⟩ := Fallible.bind_eq_ok.mp h
  obtain ⟨rendered, hrender, h⟩ := Fallible.bind_eq_ok.mp h
  cases h
  exact ⟨template, rendered, Fallible.mapError_eq_ok.mp hparse,
    Fallible.mapError_eq_ok.mp hrender, rfl⟩

/-- A sanitized text is free of markers exactly if none comes about on the way, and so is a
document. -/
theorem sanitized_free_iff (text : Text) :
    ((∀ brace : Brace, ¬ brace.marker <:+: (sanitize text).text.points) ↔
      ∀ brace : Brace, ¬ brace.Survives text) ∧
    ∀ (limit : Int) (scope : Value) (source : String) (result : Sanitized),
      Document.renderText limit scope source = .ok result →
      ∃ template rendered, Template.parse source = .ok template ∧
        template.render scope limit = .ok rendered ∧
        ((∀ brace : Brace, ¬ brace.marker <:+: result.text.points) ↔
          ∀ brace : Brace, ¬ brace.Survives rendered) := by
  refine ⟨forall_congr' fun brace => not_congr (marker_infix_sanitize_iff brace text), ?_⟩
  intro limit scope source result h
  obtain ⟨template, rendered, hparse, hrender, rfl⟩ := Document.renderText_eq_ok h
  exact ⟨template, rendered, hparse, hrender,
    forall_congr' fun brace => not_congr (marker_infix_sanitize_iff brace rendered)⟩

/-- A value whose braces become a marker, written into a document. -/
theorem sanitized_free_iff_of_value :
    ∃ result, Document.renderText Render.defaultDepth
        (.record [("v", .str "\x7b\x7d\x7d\x7b")]) "\x7b\x7bv\x7d\x7d" = .ok result ∧
      ∃ template rendered, Template.parse "\x7b\x7bv\x7d\x7d" = .ok template ∧
        template.render (.record [("v", .str "\x7b\x7d\x7d\x7b")]) Render.defaultDepth =
          .ok rendered ∧
        ((∀ brace : Brace, ¬ brace.marker <:+: result.text.points) ↔
          ∀ brace : Brace, ¬ brace.Survives rendered) := by
  have h : Document.renderText Render.defaultDepth
      (.record [("v", .str "\x7b\x7d\x7d\x7b")]) "\x7b\x7bv\x7d\x7d" =
        .ok ⟨"\x7b\x7b", 0, 1⟩ := by
    decide +kernel
  exact ⟨_, h, (sanitized_free_iff "").2 _ _ _ _ h⟩

/-- Two opening braces around a closing pair become a marker, in a text and in a document. -/
theorem marker_survives :
    Brace.opening.marker <:+: (sanitize "\x7b\x7d\x7d\x7b").text.points ∧
    ∃ result, Document.renderText Render.defaultDepth (.record []) "\x7b\x7d\x7d\x7b" = .ok result ∧
      Brace.opening.marker <:+: result.text.points := by
  refine ⟨?_, ⟨"\x7b\x7b", 0, 1⟩, ?_, ?_⟩ <;> decide +kernel

end CatalogPress
