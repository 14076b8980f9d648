import CatalogPress.Proofs.Sanitize.Pairs

/-!
What removing whole directives leaves. Two directives never overlap, so it does not matter in which
order they are found: what is left is the text without any of them.
-/
namespace CatalogPress.Sanitize

def IsInner (point : CodePoint) : Prop :=
  (∀ brace : Brace, point ≠ brace.point) ∧ point ≠ .char '\n'

def IsDirective (text : List CodePoint) : Prop :=
  ∃ inside, text = Brace.opening.marker ++ (inside ++ Brace.closing.marker) ∧
    ∀ point ∈ inside, IsInner point

def DirectiveFree (text : List CodePoint) : Prop :=
  ∀ directive, IsDirective directive → ¬ directive <:+: text

/-- A text whose directives are all cut out leaves the stretches between them. -/
inductive Stripped : List CodePoint → List CodePoint → Prop
  | free {text} : DirectiveFree text → Stripped text text
  | cut {before directive after rest} : DirectiveFree before → IsDirective directive →
      Stripped after rest → Stripped (before ++ (directive ++ after)) (before ++ rest)

theorem closing?_eq_some_iff {text rest : List CodePoint} :
    closing? text = some rest ↔
      ∃ inside, text = inside ++ (Brace.closing.marker ++ rest) ∧
      ∀ point ∈ inside, IsInner point := by
  constructor
  · intro h
    fun_induction closing? text with
    | case1 => exact ⟨[], by simp_all [Brace.marker, Brace.point]⟩
    | case2 => cases h
    | case3 point tail hpair hinner ih =>
      obtain ⟨inside, rfl, hinside⟩ := ih h
      refine ⟨point :: inside, rfl, List.forall_mem_cons.mpr ⟨⟨?_, ?_⟩, hinside⟩⟩
      · intro brace hpoint
        cases brace <;> simp_all [Brace.point]
      · rintro rfl
        simp at hinner
    | case4 => cases h
  · rintro ⟨inside, rfl, hinside⟩
    induction inside with
    | nil => simp [Brace.marker, Brace.point, closing?]
    | cons point inside ih =>
      obtain ⟨⟨hbrace, hline⟩, htail⟩ := List.forall_mem_cons.mp hinside
      have hopening : point ≠ .char '{' := hbrace .opening
      have hclosing : point ≠ .char '}' := hbrace .closing
      rw [List.cons_append, closing?.eq_def]
      simp_all

theorem directive?_eq_some_iff {text rest : List CodePoint} :
    directive? text = some rest ↔
      ∃ directive, IsDirective directive ∧ text = directive ++ rest := by
  constructor
  · intro h
    unfold directive? at h
    split at h
    · obtain ⟨inside, rfl, hinside⟩ := closing?_eq_some_iff.mp h
      exact ⟨_, ⟨inside, rfl, hinside⟩, by simp [Brace.marker, Brace.point]⟩
    · cases h
  · rintro ⟨_, ⟨inside, rfl, hinside⟩, rfl⟩
    exact closing?_eq_some_iff.mpr ⟨inside, by simp, hinside⟩

theorem directive?_eq_none_iff {text : List CodePoint} :
    directive? text = none ↔ ∀ directive, IsDirective directive → ¬ directive <+: text := by
  constructor
  · rintro h directive hdirective ⟨rest, rfl⟩
    rw [directive?_eq_some_iff.mpr ⟨directive, hdirective, rfl⟩] at h
    cases h
  · intro h
    by_contra hsome
    obtain ⟨rest, hrest⟩ := Option.ne_none_iff_exists'.mp hsome
    obtain ⟨directive, hdirective, rfl⟩ := directive?_eq_some_iff.mp hrest
    exact h directive hdirective ⟨rest, rfl⟩

theorem directiveFree_nil : DirectiveFree [] := by
  rintro _ ⟨inside, rfl, -⟩
  simp [Brace.marker]

@[simp] theorem dropDirectives_nil : dropDirectives [] = ([], 0) := by
  rw [dropDirectives]
  simp [directive?]

theorem dropDirectives_of_directive {directive : List CodePoint} (h : IsDirective directive)
    (rest : List CodePoint) : (dropDirectives (directive ++ rest)).1 = (dropDirectives rest).1 := by
  have hsome : directive? (directive ++ rest) = some rest :=
    directive?_eq_some_iff.mpr ⟨directive, h, rfl⟩
  rw [dropDirectives]
  split
  case h_1 tail heq =>
    rw [hsome] at heq
    cases heq
    rfl
  case h_2 heq =>
    rw [hsome] at heq
    cases heq

theorem dropDirectives_of_none {point : CodePoint} {rest : List CodePoint}
    (h : directive? (point :: rest) = none) :
    (dropDirectives (point :: rest)).1 = point :: (dropDirectives rest).1 := by
  rw [dropDirectives]
  split
  case h_1 tail heq =>
    rw [h] at heq
    cases heq
  case h_2 => rfl

theorem dropDirectives_of_free {text : List CodePoint} (h : DirectiveFree text) :
    (dropDirectives text).1 = text := by
  induction text with
  | nil => simp
  | cons point rest ih =>
    rw [dropDirectives_of_none, ih fun directive hdirective hinfix =>
      h directive hdirective (List.infix_cons hinfix)]
    exact directive?_eq_none_iff.mpr fun directive hdirective hstart =>
      h directive hdirective hstart.isInfix

theorem opening_not_mem_of_isDirective {directive : List CodePoint} (h : IsDirective directive) :
    Brace.opening.point ∉ directive.drop 2 := by
  obtain ⟨inside, rfl, hinside⟩ := h
  change Brace.opening.point ∉ inside ++ Brace.closing.marker
  intro hmem
  rcases List.mem_append.mp hmem with hmem | hmem
  · exact (hinside _ hmem).1 .opening rfl
  · simp [Brace.marker, Brace.point] at hmem

/-- A directive that starts before another one ends before it. -/
theorem prefix_of_append_eq {before after first second rest : List CodePoint}
    (hfirst : IsDirective first) (hsecond : IsDirective second) (hbefore : before ≠ [])
    (h : before ++ (second ++ after) = first ++ rest) : first <+: before := by
  obtain ⟨inside, rfl, -⟩ := hsecond
  rcases List.append_eq_append_iff.mp h with ⟨tail, rfl, htail⟩ | ⟨tail, rfl, -⟩
  · -- Otherwise the second one starts in the tail of the first, which holds no two opening braces.
    have hopening := opening_not_mem_of_isDirective hfirst
    match before, tail with
    | _, [] => simp
    | [_], [_] => obtain ⟨_, h, _⟩ := hfirst; simp [Brace.marker] at h
    | [_], _ :: next :: _ =>
      simp only [Brace.marker, List.cons_append, List.cons.injEq] at htail
      exact absurd (by simp [← htail.2.1]) hopening
    | _ :: _ :: _, next :: _ =>
      simp only [Brace.marker, List.cons_append, List.cons.injEq] at htail
      exact absurd (by simp [← htail.1]) hopening
  · exact List.prefix_append ..

theorem dropDirectives_of_free_append {before directive : List CodePoint}
    (hfree : DirectiveFree before) (hdirective : IsDirective directive) (after : List CodePoint) :
    (dropDirectives (before ++ (directive ++ after))).1 = before ++ (dropDirectives after).1 := by
  induction before with
  | nil => exact dropDirectives_of_directive hdirective after
  | cons point rest ih =>
    rw [List.cons_append, dropDirectives_of_none, ih fun other hother hinfix =>
      hfree other hother (List.infix_cons hinfix), List.cons_append]
    rw [directive?_eq_none_iff]
    rintro first hfirst ⟨tail, htail⟩
    have hstart : first <+: point :: rest :=
      prefix_of_append_eq hfirst hdirective (List.cons_ne_nil _ _) htail.symm
    exact hfree first hfirst hstart.isInfix

theorem Stripped.eq_dropDirectives {text rest : List CodePoint} (h : Stripped text rest) :
    rest = (dropDirectives text).1 := by
  induction h with
  | free hfree => exact (dropDirectives_of_free hfree).symm
  | cut hfree hdirective _ ih => rw [dropDirectives_of_free_append hfree hdirective, ← ih]

theorem DirectiveFree.cons {point : CodePoint} {text rest : List CodePoint}
    (h : DirectiveFree text) (hnone : directive? (point :: text ++ rest) = none) :
    DirectiveFree (point :: text) := by
  intro directive hdirective hinfix
  rcases List.infix_cons_iff.mp hinfix with hstart | hinfix
  · exact directive?_eq_none_iff.mp hnone directive hdirective
      (hstart.trans (List.prefix_append ..))
  · exact h directive hdirective hinfix

theorem Stripped.cons {point : CodePoint} {text rest : List CodePoint} (h : Stripped text rest)
    (hnone : directive? (point :: text) = none) : Stripped (point :: text) (point :: rest) := by
  cases h with
  | free hfree =>
    have hnone : directive? (point :: text ++ []) = none := by simpa using hnone
    exact .free (hfree.cons hnone)
  | cut hfree hdirective hrest => exact .cut (hfree.cons hnone) hdirective hrest

theorem stripped_dropDirectives (text : List CodePoint) :
    Stripped text (dropDirectives text).1 := by
  fun_induction dropDirectives text with
  | case1 text rest hsome _ kept count hkept ih =>
    obtain ⟨directive, hdirective, rfl⟩ := directive?_eq_some_iff.mp hsome
    rw [hkept] at ih
    exact .cut directiveFree_nil hdirective ih
  | case2 => exact .free directiveFree_nil
  | case3 point rest hnone kept count hkept ih =>
    rw [hkept] at ih
    exact ih.cons hnone

theorem stripped_iff (text rest : List CodePoint) :
    Stripped text rest ↔ rest = (dropDirectives text).1 := by
  constructor
  · exact Stripped.eq_dropDirectives
  · rintro rfl
    exact stripped_dropDirectives text

end CatalogPress.Sanitize
