import CatalogPress.Proofs.Template.Normal

/-!
The form of a text decides how it reads. A path and a comparison are spelled out here character by
character. There is at most one spelling for each text, whatever blanks, points and quotes it holds,
and what has none is invalid.
-/
namespace CatalogPress.Expression
open Text

/-- Names set apart by points, the first of which starts with an ASCII letter or an underscore. The
one name that stands for the scope itself is no such path. -/
structure IsNamed (text : List Char) (parts : List String) : Prop where
  text_eq : text = (".".intercalate parts).toList
  proper : ∀ part ∈ parts, ProperName part
  start : ∃ first ∈ parts.head?, ∃ c ∈ first.toList.head?, isAsciiLetter c = true ∨ c = '_'
  ne_this : text ≠ "this".toList

/-- A comparison as it stands in a text: an operator, a field and a quoted literal in parentheses,
with the blanks before each of them and after the last. -/
@[ext] structure Spelling where
  operator : Operator
  field : String
  literal : String
  beforeOperator : List Char
  beforeField : List Char
  beforeLiteral : List Char
  afterLiteral : List Char
  operator_eq : operator = .eq ∨ operator = .ne
  field_ne : field.toList ≠ []
  isField : ∀ c ∈ field.toList, isWord c = true ∨ c = '.' ∨ c = '-'
  literal_closed : '"' ∉ literal.toList
  blank_beforeOperator : AllBlank beforeOperator
  blank_beforeField : AllBlank beforeField
  beforeField_ne : beforeField ≠ []
  blank_beforeLiteral : AllBlank beforeLiteral
  beforeLiteral_ne : beforeLiteral ≠ []
  blank_afterLiteral : AllBlank afterLiteral

theorem isFieldChar_iff {c : Char} : isFieldChar c = true ↔ isWord c = true ∨ c = '.' ∨
    c = '-' := by
  simp only [isFieldChar, isPartChar, Bool.or_eq_true, beq_iff_eq, or_assoc, or_comm (a := c = '-')]

theorem isPathStart_iff {c : Char} : isPathStart c = true ↔ isAsciiLetter c = true ∨ c = '_' := by
  rw [isPathStart, Bool.or_eq_true, beq_iff_eq]

namespace Spelling
variable (spelling : Spelling)

def text : List Char :=
  '(' :: (spelling.beforeOperator ++ (spelling.operator.name.toList ++ (spelling.beforeField ++
    (spelling.field.toList ++ (spelling.beforeLiteral ++ '"' :: (spelling.literal.toList ++
      '"' :: (spelling.afterLiteral ++ [')'])))))))

def expression : Expression :=
  .comparison spelling.operator spelling.field spelling.literal

theorem isFieldChar_of_mem : ∀ c ∈ spelling.field.toList, isFieldChar c = true :=
  fun c hc => isFieldChar_iff.mpr (spelling.isField c hc)

theorem isOperands :
    IsOperands (spelling.beforeField ++ (spelling.field.toList ++ (spelling.beforeLiteral ++ '"' ::
      (spelling.literal.toList ++ '"' :: (spelling.afterLiteral ++ [')'])))))
        spelling.field.toList spelling.literal.toList where
  text_eq := ⟨spelling.beforeField, spelling.beforeLiteral, spelling.afterLiteral,
    spelling.blank_beforeField,
    spelling.beforeField_ne, spelling.blank_beforeLiteral, spelling.beforeLiteral_ne,
    spelling.blank_afterLiteral, rfl⟩
  field_ne := spelling.field_ne
  isField := spelling.isFieldChar_of_mem
  literal_closed := spelling.literal_closed

theorem isComparison :
    IsComparison spelling.text spelling.operator spelling.field spelling.literal where
  operator_eq := spelling.operator_eq
  text_eq := ⟨spelling.beforeOperator, _, spelling.blank_beforeOperator, rfl, spelling.isOperands⟩

theorem ofTrimmed_text : ofTrimmed spelling.text = spelling.expression :=
  (Reading.comparison spelling.isComparison).eq_ofTrimmed

theorem head?_operator (rest : List Char) :
    ∀ c ∈ (spelling.operator.name.toList ++ rest).head?, isBlank c = false := by
  obtain h | h := spelling.operator_eq
  · rw [h]
    exact forall_mem_head?_cons.mpr (by decide)
  · rw [h]
    exact forall_mem_head?_cons.mpr (by decide)

/-- A text is spelled in one way, down to its blanks. -/
theorem text_injective : Function.Injective text := by
  intro a b h
  -- Both read as the same comparison, so that only the blanks are left to be told apart from what
  -- follows them.
  have hread : a.expression = b.expression := by
    rw [← a.ofTrimmed_text, h, b.ofTrimmed_text]
  obtain ⟨hoperator, hfield, hliteral⟩ := Expression.comparison.inj hread
  unfold text at h
  rw [← hoperator, ← hfield, ← hliteral] at h
  obtain ⟨hbeforeOperator, h⟩ := append_inj_of_head? a.blank_beforeOperator (a.head?_operator _)
    b.blank_beforeOperator (a.head?_operator _) (List.cons.inj h).2
  have hhead := head?_field_append a.field_ne a.isFieldChar_of_mem
  obtain ⟨hbeforeField, h⟩ := append_inj_of_head? a.blank_beforeField (hhead _)
    b.blank_beforeField (hhead _) (List.append_cancel_left h)
  have hquote : ∀ rest, ∀ c ∈ ('"' :: rest).head?, isBlank c = false :=
    fun _ => forall_mem_head?_cons.mpr (by decide)
  obtain ⟨hbeforeLiteral, h⟩ := append_inj_of_head? a.blank_beforeLiteral (hquote _)
    b.blank_beforeLiteral (hquote _) (List.append_cancel_left h)
  have hafter := List.append_cancel_left (List.cons.inj h).2
  have hafterLiteral := List.append_cancel_right (List.cons.inj hafter).2
  exact Spelling.ext hoperator hfield hliteral hbeforeOperator hbeforeField
    hbeforeLiteral hafterLiteral

end Spelling

theorem isComparison_iff {text : List Char} {operator : Operator} {field literal : String} :
    IsComparison text operator field literal ↔
      ∃ spelling : Spelling, spelling.text = text ∧
        spelling.expression = .comparison operator field literal := by
  constructor
  · intro h
    obtain ⟨before, operands, hbefore, rfl, hoperands⟩ := h.text_eq
    obtain ⟨first, second, after, hfirst, hne, hsecond, hne', hafter, rfl⟩ := hoperands.text_eq
    have hfield : ∀ c ∈ field.toList, isWord c = true ∨ c = '.' ∨ c = '-' :=
      fun c hc => isFieldChar_iff.mp (hoperands.isField c hc)
    exact ⟨⟨operator, field, literal, before, first, second, after, h.operator_eq,
      hoperands.field_ne, hfield, hoperands.literal_closed, hbefore, hfirst, hne,
      hsecond, hne', hafter⟩, rfl, rfl⟩
  · rintro ⟨spelling, rfl, h⟩
    obtain ⟨rfl, rfl, rfl⟩ := Expression.comparison.inj h
    exact spelling.isComparison

theorem head?_intercalate {parts : List String} {first : String} (h : first ∈ parts.head?)
    (hne : first.toList ≠ []) : (".".intercalate parts).toList.head? = first.toList.head? := by
  obtain ⟨rest, rfl⟩ := List.head?_eq_some_iff.mp h
  have hprefix : first.toList <+: ['.'].intercalate (first.toList :: rest.map String.toList) :=
    prefix_intercalate_cons _ _
  obtain ⟨after, hafter⟩ := hprefix
  have htext : (".".intercalate (first :: rest)).toList = first.toList ++ after := by
    rw [String.toList_intercalate, hafter]
    rfl
  rw [htext, List.head?_append_of_ne_nil _ hne]

theorem mem_selfNames_iff {text : List Char} :
    text ∈ selfNames ↔ text = "this".toList ∨ text = ".".toList :=
  List.mem_pair

theorem isNamed_iff {text : List Char} {parts : List String} :
    IsNamed text parts ↔ IsDotted text parts ∧ text ∉ selfNames := by
  constructor
  · intro h
    obtain ⟨first, hfirst, c, hc, hstart⟩ := h.start
    have hne : first.toList ≠ [] := fun hnil => by simp [hnil] at hc
    have hhead : c ∈ text.head? := by
      rw [h.text_eq, head?_intercalate hfirst hne]
      exact hc
    refine ⟨⟨h.text_eq, fun part hpart => properName_iff.mp (h.proper part hpart), c, hhead,
      isPathStart_iff.mpr hstart⟩, ?_⟩
    rw [mem_selfNames_iff, not_or]
    refine ⟨h.ne_this, ?_⟩
    rintro rfl
    cases hhead
    revert hstart
    decide
  · rintro ⟨h, hself⟩
    obtain ⟨c, hc, hstart⟩ := h.start
    obtain ⟨first, rest, rfl⟩ := List.exists_cons_of_ne_nil h.ne_nil
    have hne : first.toList ≠ [] := (h.properName first List.mem_cons_self).1
    rw [h.text_eq, head?_intercalate rfl hne] at hc
    refine ⟨h.text_eq, h.properName, ⟨first, rfl, c, hc, isPathStart_iff.mp hstart⟩, ?_⟩
    rintro rfl
    exact hself List.mem_cons_self

section
variable {raw : List Char}

theorem read_eq_self_iff : read raw = .path [] ↔ trim raw = "this".toList ∨
    trim raw = ".".toList := by
  rw [read_eq_iff, ← mem_selfNames_iff]
  constructor
  · intro h
    cases h with
    | self hself => exact hself
    | dotted _ hdotted => exact absurd rfl hdotted.ne_nil
  · exact .self

theorem read_eq_named_iff {parts : List String} :
    parts ≠ [] ∧ read raw = .path parts ↔ IsNamed (trim raw) parts := by
  rw [read_eq_iff, isNamed_iff]
  constructor
  · rintro ⟨hne, h⟩
    cases h with
    | self => exact absurd rfl hne
    | dotted hself hdotted => exact ⟨hdotted, hself⟩
  · rintro ⟨hdotted, hself⟩
    exact ⟨hdotted.ne_nil, .dotted hself hdotted⟩

theorem read_eq_comparison_iff {operator : Operator} {field literal : String} :
    read raw = .comparison operator field literal ↔
      ∃ spelling : Spelling, spelling.text = trim raw ∧
        spelling.expression = .comparison operator field literal := by
  rw [read_eq_iff, ← isComparison_iff]
  constructor
  · intro h
    cases h with
    | comparison hcomparison => exact hcomparison
  · exact .comparison

theorem read_eq_invalid_iff {text : String} :
    read raw = .invalid text ↔
      text.toList = trim raw ∧ ¬ (trim raw = "this".toList ∨ trim raw = ".".toList) ∧
        (∀ parts, ¬ IsNamed (trim raw) parts) ∧
        ∀ spelling : Spelling, spelling.text ≠ trim raw := by
  rw [read_eq_iff, ← mem_selfNames_iff]
  constructor
  · intro h
    cases h with
    | invalid hself hdotted hcomparison =>
      refine ⟨String.toList_ofList, hself, fun parts hnamed => ?_, fun spelling hspelling => ?_⟩
      · exact hdotted parts (isNamed_iff.mp hnamed).1
      · exact hcomparison _ _ _ (isComparison_iff.mpr ⟨spelling, hspelling, rfl⟩)
  · rintro ⟨htext, hself, hnamed, hspelling⟩
    rw [← String.ofList_toList (s := text), htext]
    refine .invalid hself (fun parts hdotted => ?_) (fun operator field literal hcomparison => ?_)
    · exact hnamed parts (isNamed_iff.mpr ⟨hdotted, hself⟩)
    · obtain ⟨spelling, hspelled, -⟩ := isComparison_iff.mp hcomparison
      exact hspelling spelling hspelled

theorem read_pathText {parts : List String} (h : read raw = .path parts) :
    read (pathText parts).toList = .path parts := by
  have hsource : source (read raw) = (pathText parts).toList := by
    rw [h]
    rfl
  rw [← hsource, read_source, h]

end

/-- The form of a text without the blanks around it decides how it reads, and no text has two
forms. -/
theorem read_classifies (raw : List Char) :
    (read raw = .path [] ↔ trim raw = "this".toList ∨ trim raw = ".".toList) ∧
    (∀ parts, parts ≠ [] ∧ read raw = .path parts ↔ IsNamed (trim raw) parts) ∧
    (∀ operator field literal, read raw = .comparison operator field literal ↔
      ∃ spelling : Spelling, spelling.text = trim raw ∧
        spelling.expression = .comparison operator field literal) ∧
    (∀ a b : Spelling, a.text = trim raw → b.text = trim raw → a = b) ∧
    (∀ text : String, read raw = .invalid text ↔
      text.toList = trim raw ∧ ¬ (trim raw = "this".toList ∨ trim raw = ".".toList) ∧
        (∀ parts, ¬ IsNamed (trim raw) parts) ∧ ∀ spelling : Spelling, spelling.text ≠ trim raw) ∧
    (∀ parts, read raw = .path parts → read (pathText parts).toList = .path parts) := by
  refine ⟨read_eq_self_iff, fun _ => read_eq_named_iff, fun _ _ _ => read_eq_comparison_iff, ?_,
    fun _ => read_eq_invalid_iff, fun _ => read_pathText⟩
  intro a b ha hb
  exact Spelling.text_injective (ha.trans hb.symm)

/-- A path that starts with the name of the scope, and a comparison with blanks of several kinds
around its parts and a closing parenthesis in its literal. -/
theorem read_classifies_of_texts :
    let path := " this.a-1\n".toList
    let comparison := "(\tne a.-  \"x )\n\"\n)".toList
    (read path = .path ["this", "a-1"] ∧
      read (pathText ["this", "a-1"]).toList = .path ["this", "a-1"]) ∧
      ∃ spelling : Spelling, spelling.text = trim comparison ∧
        spelling.expression = .comparison .ne "a.-" "x )\n" := by
  intro path comparison
  have hpath : read path = .path ["this", "a-1"] := by decide +kernel
  have hcomparison : read comparison = .comparison .ne "a.-" "x )\n" := by decide +kernel
  obtain ⟨-, -, -, -, -, hagain⟩ := read_classifies path
  obtain ⟨-, -, hspelled, -⟩ := read_classifies comparison
  exact ⟨⟨hpath, hagain _ hpath⟩, (hspelled ..).mp hcomparison⟩

end CatalogPress.Expression
