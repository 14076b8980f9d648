import CatalogPress.Proofs.Template.Trimmed
import CatalogPress.Proofs.Template.Written
import CatalogPress.Proofs.Text.Split

/-!
Blocks as they are written: an opener with its argument, a body, and a closer. An argument that
reads as a path or a comparison does not end with a brace, so the opener ends where it should.
-/
namespace CatalogPress
open Text

namespace Expression

theorem IsDotted.isFieldChar {text : List Char} {parts : List String} (h : IsDotted text parts) :
    ∀ c ∈ text, isFieldChar c = true := by
  intro c hc
  have hpoint : ".".toList = ['.'] := rfl
  rw [h.text_eq, String.toList_intercalate, hpoint] at hc
  unfold Expression.isFieldChar
  obtain rfl | ⟨list, hlist, hc⟩ := eq_or_exists_of_mem_intercalate hc
  · rw [beq_self_eq_true, Bool.or_true]
  · obtain ⟨part, hpart, rfl⟩ := List.mem_map.mp hlist
    rw [(isPart_iff.mp (h.isPart part hpart)).2 c hc, Bool.true_or]

theorem brace_not_mem_of_reading {text : List Char} {parts : List String}
    (h : Reading text (.path parts)) : '}' ∉ text := by
  cases h with
  | self hself =>
    have hnames : ∀ name ∈ selfNames, '}' ∉ name := by decide
    exact hnames text hself
  | dotted _ hdotted =>
    intro hbrace
    have hchar := hdotted.isFieldChar '}' hbrace
    revert hchar
    decide +kernel

theorem getLast?_of_reading {text : List Char} {expression : Expression}
    (h : Reading text expression) (hvalid : ∀ raw, expression ≠ .invalid raw) :
    text.getLast? ≠ some '}' := by
  cases expression with
  | path parts => exact fun hlast => brace_not_mem_of_reading h (List.mem_of_mem_getLast? hlast)
  | comparison operator field literal =>
    cases h with
    | comparison hcomparison =>
      obtain ⟨before, operands, -, rfl, hoperands⟩ := hcomparison.text_eq
      obtain ⟨first, second, after, -, -, -, -, -, heq⟩ := hoperands.text_eq
      simp [heq, List.getLast?_append, List.getLast?_cons]
  | invalid raw => exact absurd rfl (hvalid raw)

theorem brace_not_mem_of_path {raw : List Char} {parts : List String} (h : read raw = .path parts) :
    '}' ∉ raw := by
  intro hbrace
  exact brace_not_mem_of_reading (read_eq_iff.mp h) (mem_trim (by decide) hbrace)

theorem getLast?_ne_brace {raw : List Char} (h : ∀ text, read raw ≠ .invalid text) :
    raw.getLast? ≠ some '}' := by
  intro hlast
  exact getLast?_of_reading (reading_trim raw) h (getLast?_trim (by decide) hlast)

theorem trim_ne_nil {raw : List Char} (h : ∀ text, read raw ≠ .invalid text) : trim raw ≠ [] := by
  intro hnil
  unfold read at h
  rw [hnil] at h
  exact h _ rfl

end Expression

namespace Tag

def block (tag : Tag) (argument body : String) : String :=
  "\x7b\x7b#" ++ tag.name ++ " " ++ argument ++ "\x7d\x7d" ++ body ++ "\x7b\x7b/" ++ tag.name ++
    "\x7d\x7d"

theorem toList_block (tag : Tag) (argument body : String) :
    (tag.block argument body).toList =
      Piece.enclosed ('#' :: (tag.name.toList ++ ' ' :: argument.toList)) ++
        (body.toList ++ Piece.enclosed tag.closerText) := by
  have hopen : "\x7b\x7b#".toList = Piece.opening ++ ['#'] := rfl
  have hspace : " ".toList = [' '] := rfl
  have hend : "\x7d\x7d".toList = Piece.closing := rfl
  have hclose : "\x7b\x7b/".toList = Piece.opening ++ ['/'] := rfl
  simp [block, Piece.enclosed, closerText, hopen, hspace, hend, hclose]

end Tag
end CatalogPress
