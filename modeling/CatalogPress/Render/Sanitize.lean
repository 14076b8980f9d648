import CatalogPress.Text.Basic

/-!
Sanitizing a rendered text. Values are written into documents as they stand, so they may carry
directives or stray brace pairs. Whole directives within a line are removed first; then, in what is
left, every brace pair. Both passes count what they remove.
-/
namespace CatalogPress.Sanitize

/-- What follows a directive, for a text that starts after its opening pair. A directive holds
neither braces nor line feeds. -/
def closing? : List CodePoint → Option (List CodePoint)
  | .char '}' :: .char '}' :: rest => some rest
  | point :: rest =>
    if point = .char '{' ∨ point = .char '}' ∨ point = .char '\n' then none else closing? rest
  | [] => none

theorem length_closing? {text rest : List CodePoint} (h : closing? text = some rest) :
    rest.length < text.length := by
  fun_induction closing? text with
  | case1 =>
    cases Option.some.inj h
    exact Nat.lt_add_of_pos_right (by decide : 0 < 2)
  | case2 => cases h
  | case3 point tail _ _ ih => exact Nat.lt_succ_of_lt (ih h)
  | case4 => cases h

def directive? : List CodePoint → Option (List CodePoint)
  | .char '{' :: .char '{' :: rest => closing? rest
  | _ => none

theorem length_directive? {text rest : List CodePoint} (h : directive? text = some rest) :
    rest.length < text.length := by
  unfold directive? at h
  split at h
  · have := length_closing? h
    simp
    omega
  · simp at h

def dropDirectives (text : List CodePoint) : List CodePoint × Nat :=
  match h : directive? text with
  | some rest =>
    have := length_directive? h
    let (kept, count) := dropDirectives rest
    (kept, count + 1)
  | none =>
    match text with
    | [] => ([], 0)
    | point :: rest =>
      let (kept, count) := dropDirectives rest
      (point :: kept, count)
termination_by text.length

def dropPairs : List CodePoint → List CodePoint × Nat
  | .char '{' :: .char '{' :: rest | .char '}' :: .char '}' :: rest =>
    let (kept, count) := dropPairs rest
    (kept, count + 1)
  | point :: rest =>
    let (kept, count) := dropPairs rest
    (point :: kept, count)
  | [] => ([], 0)

end Sanitize

structure Sanitized where
  text : Text
  directives : Nat
  pairs : Nat
deriving DecidableEq, Inhabited, Repr

def sanitize (text : Text) : Sanitized :=
  let (kept, directives) := Sanitize.dropDirectives text.points
  let (kept, pairs) := Sanitize.dropPairs kept
  ⟨⟨kept⟩, directives, pairs⟩

namespace Sanitized

def warning? (result : Sanitized) (name : Text) : Option Text :=
  if result.directives = 0 ∧ result.pairs = 0 then none
  else some <| "Removed " ++ toString result.directives ++ " leftover directive(s) and " ++
    toString result.pairs ++ " stray brace pair(s) from " ++ name

end Sanitized
end CatalogPress
