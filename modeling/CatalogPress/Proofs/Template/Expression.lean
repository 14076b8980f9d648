import CatalogPress.Proofs.Text.Trim
import CatalogPress.Template.Expression
import Mathlib.Data.Option.Basic

/-!
What an expression looks like, said without a scan: the texts of a path and of a comparison. They
never overlap, so that the form of a text decides how it reads.
-/
namespace CatalogPress.Expression
open Text

/-- Names joined by points, the first of which starts with a letter or an underscore. -/
structure IsDotted (text : List Char) (parts : List String) : Prop where
  text_eq : text = (".".intercalate parts).toList
  isPart : ∀ part ∈ parts, isPart part.toList = true
  start : ∃ c ∈ text.head?, isPathStart c = true

structure IsOperands (text field literal : List Char) : Prop where
  text_eq : ∃ first second after, AllBlank first ∧ first ≠ [] ∧ AllBlank second ∧ second ≠ [] ∧
    AllBlank after ∧
    text = first ++ (field ++ (second ++ '"' :: (literal ++ '"' :: (after ++ [')']))))
  field_ne : field ≠ []
  isField : ∀ c ∈ field, isFieldChar c = true
  literal_closed : '"' ∉ literal

structure IsComparison (text : List Char) (operator : Operator)
    (field literal : String) : Prop where
  operator_eq : operator = .eq ∨ operator = .ne
  text_eq : ∃ before operands, AllBlank before ∧
    text = '(' :: (before ++ (operator.name.toList ++ operands)) ∧
    IsOperands operands field.toList literal.toList

theorem isPart_iff {part : List Char} :
    isPart part = true ↔ part ≠ [] ∧ ∀ c ∈ part, isPartChar c = true := by
  simp [Expression.isPart]

theorem isDotted_iff {text : List Char} {parts : List String} :
    IsDotted text parts ↔
      isDottedPath text = true ∧ parts = (splitList '.' text).map String.ofList := by
  constructor
  · intro h
    obtain ⟨c, hc, hstart⟩ := h.start
    have hparts : splitList '.' text = parts.map String.toList := by
      rw [h.text_eq, String.toList_intercalate]
      refine splitList_intercalate ?_ ?_
      · intro hnil
        rw [h.text_eq, List.map_eq_nil_iff.mp hnil] at hc
        cases hc
      · intro part hpart hpoint
        obtain ⟨name, hname, rfl⟩ := List.mem_map.mp hpart
        have hchar := (isPart_iff.mp (h.isPart name hname)).2 '.' hpoint
        revert hchar
        decide +kernel
    constructor
    · simp only [isDottedPath, Option.mem_def.mp hc, Option.any_some, hstart, hparts, Bool.true_and,
        List.all_map, List.all_eq_true]
      exact h.isPart
    · rw [hparts, List.map_map]
      simp
  · rintro ⟨h, rfl⟩
    simp only [isDottedPath, Bool.and_eq_true, List.all_eq_true, Option.any_eq_true] at h
    obtain ⟨hstart, hparts⟩ := h
    refine ⟨?_, ?_, hstart⟩
    · have hnames :
          ((splitList '.' text).map String.ofList).map String.toList = splitList '.' text := by
        simp
      rw [String.toList_intercalate, hnames]
      exact (intercalate_splitList '.' text).symm
    · intro part hpart
      obtain ⟨name, hname, rfl⟩ := List.mem_map.mp hpart
      rw [String.toList_ofList]
      exact hparts name hname

theorem IsDotted.ne_nil {text : List Char} {parts : List String} (h : IsDotted text parts) :
    parts ≠ [] := by
  rintro rfl
  obtain ⟨c, hc, -⟩ := h.start
  rw [h.text_eq] at hc
  cases hc

theorem gap?_append {blanks rest : List Char} (hblanks : AllBlank blanks) (hne : blanks ≠ [])
    (hrest : ∀ c ∈ rest.head?, isBlank c = false) : gap? (blanks ++ rest) = some rest := by
  obtain ⟨c, blanks, rfl⟩ := List.exists_cons_of_ne_nil hne
  obtain ⟨hblank, hblanks⟩ := List.forall_mem_cons.mp hblanks
  rw [List.cons_append, gap?, if_pos hblank, dropWhile_append_of_head? hblanks hrest]

theorem exists_of_gap? {text rest : List Char} (h : gap? text = some rest) :
    ∃ blanks, AllBlank blanks ∧ blanks ≠ [] ∧ text = blanks ++ rest := by
  unfold gap? at h
  split at h
  · rename_i c tail
    split at h
    · rename_i hblank
      cases h
      obtain ⟨blanks, hblanks, htail⟩ := exists_eq_append_trimStart tail
      refine ⟨c :: blanks, List.forall_mem_cons.mpr ⟨hblank, hblanks⟩, List.cons_ne_nil _ _, ?_⟩
      rw [List.cons_append]
      exact congrArg _ htail
    · cases h
  · cases h

theorem isBlank_of_isFieldChar {c : Char} (h : isFieldChar c = true) : isBlank c = false := by
  simp only [isFieldChar, isPartChar, Bool.or_eq_true, beq_iff_eq] at h
  obtain (hword | rfl) | rfl := h
  · exact isBlank_of_isWord hword
  · decide
  · decide

theorem head?_field_append {field : List Char} (hne : field ≠ [])
    (h : ∀ c ∈ field, isFieldChar c = true) (rest : List Char) :
    ∀ c ∈ (field ++ rest).head?, isBlank c = false := by
  intro c hc
  rw [List.head?_append_of_ne_nil _ hne] at hc
  exact isBlank_of_isFieldChar (h c (List.mem_of_mem_head? hc))

theorem operands?_eq_some_iff {operator : Operator} {text : List Char} {expression : Expression} :
    operands? operator text = some expression ↔
      ∃ field literal, IsOperands text field literal ∧
        expression = .comparison operator (String.ofList field) (String.ofList literal) := by
  constructor
  · intro h
    simp only [operands?, Option.bind_eq_bind, Option.bind_eq_some_iff, Option.guard_eq_some'] at h
    obtain ⟨operands, hfirst, _, hfield, quoted, hsecond, h⟩ := h
    obtain ⟨first, hblank, hne, rfl⟩ := exists_of_gap? hfirst
    obtain ⟨second, hblank', hne', hquoted⟩ := exists_of_gap? hsecond
    split at h
    · rename_i tail
      split at h
      · rename_i last hlast
        simp only [Option.bind_eq_some_iff, Option.guard_eq_some', Option.some.injEq] at h
        obtain ⟨_, hend, rfl⟩ := h
        have hend : trimStart last = [')'] := by simpa [trimStart] using hend
        obtain ⟨after, hafter, hlast'⟩ := exists_eq_append_trimStart last
        refine ⟨_, _, ⟨⟨first, second, after, hblank, hne, hblank', hne', hafter, ?_⟩, ?_, ?_, ?_⟩,
          rfl⟩
        · rw [← hend, ← hlast', ← hlast, List.takeWhile_append_dropWhile, ← hquoted,
            List.takeWhile_append_dropWhile]
        · simpa using hfield
        · exact fun c hc => List.mem_takeWhile_imp hc
        · intro hquote
          have h := List.mem_takeWhile_imp hquote
          simp at h
      · cases h
    · cases h
  · rintro ⟨field, literal, h, rfl⟩
    obtain ⟨first, second, after, hfirst, hne, hsecond, hne', hafter, rfl⟩ := h.text_eq
    have hstop : ∀ rest, ∀ c ∈ (second ++ rest).head?, isFieldChar c = false := by
      intro rest c hc
      rw [List.head?_append_of_ne_nil _ hne'] at hc
      have hblank := hsecond c (List.mem_of_mem_head? hc)
      by_contra hchar
      rw [isBlank_of_isFieldChar (by simpa using hchar)] at hblank
      cases hblank
    have hliteral : ∀ c ∈ literal, (c != '"') = true := by
      rintro c hc
      rw [bne_iff_ne]
      rintro rfl
      exact h.literal_closed hc
    unfold operands?
    rw [gap?_append hfirst hne (head?_field_append h.field_ne h.isField _)]
    simp only [Option.bind_eq_bind, Option.bind_some, takeWhile_append_of_head? h.isField (hstop _),
      dropWhile_append_of_head? h.isField (hstop _)]
    rw [gap?_append hsecond hne' (forall_mem_head?_cons.mpr (by decide))]
    have hquote : ∀ rest, ∀ c ∈ ('"' :: rest).head?, (c != '"') = false :=
      fun _ => forall_mem_head?_cons.mpr (by decide)
    have hend : ∀ c ∈ [')'].head?, isBlank c = false := forall_mem_head?_cons.mpr (by decide)
    simp only [Option.bind_some, takeWhile_append_of_head? hliteral (hquote _),
      dropWhile_append_of_head? hliteral (hquote _), dropWhile_append_of_head? hafter hend]
    simp [h.field_ne]

theorem isComparison_of_operands? {before operands : List Char} {operator : Operator}
    {expression : Expression} (hoperator : operator = .eq ∨ operator = .ne)
    (hbefore : AllBlank before) (h : operands? operator operands = some expression) :
    ∃ field literal, expression = .comparison operator field literal ∧
      IsComparison ('(' :: (before ++ (operator.name.toList ++ operands)))
        operator field literal := by
  obtain ⟨field, literal, hoperands, rfl⟩ := operands?_eq_some_iff.mp h
  refine ⟨_, _, rfl, hoperator, before, operands, hbefore, rfl, ?_⟩
  rw [String.toList_ofList, String.toList_ofList]
  exact hoperands

theorem comparison?_eq_some_iff {text : List Char} {expression : Expression} :
    comparison? text = some expression ↔
      ∃ operator field literal, expression = .comparison operator field literal ∧
        IsComparison text operator field literal := by
  constructor
  · intro h
    unfold comparison? at h
    split at h
    · rename_i rest
      obtain ⟨before, hbefore, hrest⟩ := exists_eq_append_trimStart rest
      unfold trimStart at hrest
      split at h
      · rename_i operands heq
        rw [hrest, heq]
        exact ⟨.eq, isComparison_of_operands? (.inl rfl) hbefore h⟩
      · rename_i operands heq
        rw [hrest, heq]
        exact ⟨.ne, isComparison_of_operands? (.inr rfl) hbefore h⟩
      · cases h
    · cases h
  · rintro ⟨operator, field, literal, rfl, h⟩
    obtain ⟨before, operands, hbefore, rfl, hoperands⟩ := h.text_eq
    have hread : operands? operator operands = some (.comparison operator field literal) :=
      operands?_eq_some_iff.mpr ⟨_, _, hoperands, by simp⟩
    unfold comparison?
    obtain rfl | rfl := h.operator_eq
    · have hstart : ∀ c ∈ ("eq".toList ++ operands).head?, isBlank c = false :=
        forall_mem_head?_cons.mpr (by decide)
      simp only [Operator.name, dropWhile_append_of_head? hbefore hstart]
      exact hread
    · have hstart : ∀ c ∈ ("ne".toList ++ operands).head?, isBlank c = false :=
        forall_mem_head?_cons.mpr (by decide)
      simp only [Operator.name, dropWhile_append_of_head? hbefore hstart]
      exact hread

inductive Reading (text : List Char) : Expression → Prop
  | self : text ∈ selfNames → Reading text (.path [])
  | dotted {parts} : text ∉ selfNames → IsDotted text parts → Reading text (.path parts)
  | comparison {operator field literal} : IsComparison text operator field literal →
      Reading text (.comparison operator field literal)
  | invalid : text ∉ selfNames → (∀ parts, ¬ IsDotted text parts) →
      (∀ operator field literal, ¬ IsComparison text operator field literal) →
      Reading text (.invalid (String.ofList text))

theorem IsComparison.not_mem_selfNames {text : List Char}
    {operator : Operator} {field literal : String} (h : IsComparison text operator field literal) :
    text ∉ selfNames := by
  obtain ⟨before, operands, -, rfl, -⟩ := h.text_eq
  have hhead : ∀ name ∈ selfNames, name.head? ≠ some '(' := by decide
  exact fun hself => hhead _ hself rfl

theorem IsComparison.not_isDotted {text : List Char} {operator : Operator} {field literal : String}
    (h : IsComparison text operator field literal) (parts : List String) :
    ¬ IsDotted text parts := by
  obtain ⟨before, operands, -, rfl, -⟩ := h.text_eq
  intro hdotted
  obtain ⟨c, hc, hstart⟩ := hdotted.start
  cases hc
  revert hstart
  decide

theorem Reading.eq_ofTrimmed {text : List Char} {expression : Expression}
    (h : Reading text expression) : ofTrimmed text = expression := by
  unfold ofTrimmed
  cases h with
  | self hself => rw [if_pos (List.contains_iff_mem.mpr hself)]
  | dotted hself hdotted =>
    obtain ⟨hpath, hparts⟩ := isDotted_iff.mp hdotted
    rw [if_neg (by simpa using hself), if_pos hpath, ← hparts]
  | comparison hcomparison =>
    have hself := hcomparison.not_mem_selfNames
    have hpath : ¬ isDottedPath text = true :=
      fun hpath => hcomparison.not_isDotted _ (isDotted_iff.mpr ⟨hpath, rfl⟩)
    rw [if_neg (by simpa using hself), if_neg hpath,
      comparison?_eq_some_iff.mpr ⟨_, _, _, rfl, hcomparison⟩, Option.getD_some]
  | invalid hself hdotted hcomparison =>
    have hpath : ¬ isDottedPath text = true :=
      fun hpath => hdotted _ (isDotted_iff.mpr ⟨hpath, rfl⟩)
    have hnone : comparison? text = none := by
      rw [Option.eq_none_iff_forall_ne_some]
      intro expression h
      obtain ⟨operator, field, literal, -, h⟩ := comparison?_eq_some_iff.mp h
      exact hcomparison operator field literal h
    rw [if_neg (by simpa using hself), if_neg hpath, hnone, Option.getD_none]

theorem exists_reading (text : List Char) : ∃ expression, Reading text expression := by
  by_cases hself : text ∈ selfNames
  · exact ⟨_, .self hself⟩
  by_cases hdotted : ∃ parts, IsDotted text parts
  · obtain ⟨parts, hdotted⟩ := hdotted
    exact ⟨_, .dotted hself hdotted⟩
  by_cases hcomparison : ∃ operator field literal, IsComparison text operator field literal
  · obtain ⟨operator, field, literal, hcomparison⟩ := hcomparison
    exact ⟨_, .comparison hcomparison⟩
  · simp only [not_exists] at hdotted hcomparison
    exact ⟨_, .invalid hself hdotted hcomparison⟩

/-- Every text has exactly one reading. -/
theorem reading_iff {text : List Char} {expression : Expression} :
    Reading text expression ↔ expression = ofTrimmed text := by
  constructor
  · exact fun h => h.eq_ofTrimmed.symm
  · rintro rfl
    obtain ⟨expression, h⟩ := exists_reading text
    rw [h.eq_ofTrimmed]
    exact h

theorem read_eq_iff {raw : List Char} {expression : Expression} :
    read raw = expression ↔ Reading (trim raw) expression := by
  rw [reading_iff, eq_comm, read]

theorem reading_trim (raw : List Char) : Reading (trim raw) (read raw) :=
  read_eq_iff.mp rfl

theorem read_eq_path_iff {raw : List Char} :
    (∃ path, read raw = .path path) ↔
      trim raw ∈ selfNames ∨ ∃ parts, IsDotted (trim raw) parts := by
  constructor
  · rintro ⟨path, hpath⟩
    cases read_eq_iff.mp hpath with
    | self hself => exact .inl hself
    | dotted _ hdotted => exact .inr ⟨_, hdotted⟩
  · intro h
    by_cases hself : trim raw ∈ selfNames
    · exact ⟨_, read_eq_iff.mpr (.self hself)⟩
    · obtain ⟨parts, hdotted⟩ := h.resolve_left hself
      exact ⟨_, read_eq_iff.mpr (.dotted hself hdotted)⟩

end CatalogPress.Expression
