import CatalogPress.Proofs.Template.BlockText
import CatalogPress.Proofs.Template.Source

/-!
The normal form of parsed trees. It is said of each list of siblings, so that it holds at every
depth: what the literals hold, that no two of them are next to each other, what the expressions look
like, and that no `each` block stands anywhere below another.
-/
namespace CatalogPress
open Text

namespace Expression

def ProperName (name : String) : Prop :=
  name.toList ≠ [] ∧ ∀ c ∈ name.toList, isWord c = true ∨ c = '-'

def Proper : Expression → Prop
  | path parts => ∀ part ∈ parts, ProperName part
  | comparison _ _ literal => '"' ∉ literal.toList ∧ ¬ Piece.closing <:+: literal.toList
  | invalid _ => True

theorem properName_iff {name : String} : ProperName name ↔ isPart name.toList = true := by
  simp only [ProperName, isPart_iff, isPartChar, Bool.or_eq_true, beq_iff_eq]

theorem IsDotted.properName {text : List Char} {parts : List String} (h : IsDotted text parts) :
    ∀ part ∈ parts, ProperName part :=
  fun part hpart => properName_iff.mpr (h.isPart part hpart)

theorem Reading.proper {text : List Char} {expression : Expression} (h : Reading text expression)
    (hfree : ¬ Piece.closing <:+: text) : Proper expression := by
  cases h with
  | self => exact nofun
  | dotted _ hdotted => exact hdotted.properName
  | comparison hcomparison =>
    obtain ⟨before, operands, -, -, hoperands⟩ := hcomparison.text_eq
    exact ⟨hoperands.literal_closed, fun hpair => hfree (hpair.trans hcomparison.literal_isInfix)⟩
  | invalid => exact trivial

theorem proper_read {raw : List Char} (h : ¬ Piece.closing <:+: raw) : Proper (read raw) :=
  (reading_trim raw).proper fun hpair => h (hpair.trans (trim_isInfix raw))

theorem read_ne_else {raw : List Char} (h : trim raw ≠ "else".toList) :
    read raw ≠ .path ["else"] := by
  intro hread
  cases read_eq_iff.mp hread with
  | dotted _ hdotted => exact h hdotted.text_eq

end Expression

/-- Nodes that stand next to each other somewhere in a tree: its own nodes, and the body of each
block in it. -/
inductive Siblings (nodes : List Node) : List Node → Prop
  | whole : Siblings nodes nodes
  | each {path body position list} : Siblings nodes list → .each path body position ∈ list →
      Siblings nodes body
  | conditional {predicate body position list} : Siblings nodes list →
      .conditional predicate body position ∈ list → Siblings nodes body

def Node.Apart (node next : Node) : Prop :=
  ∀ text other, node = .literal text → next ≠ .literal other

structure NormalList (nodes : List Node) : Prop where
  literal : ∀ text, .literal text ∈ nodes → text.toList ≠ [] ∧ ¬ Piece.opening <:+: text.toList
  apart : nodes.IsChain Node.Apart
  interpolation : ∀ expression position, .interpolation expression position ∈ nodes →
    expression ≠ .path ["else"] ∧ expression.Proper
  conditional :
    ∀ predicate body position, .conditional predicate body position ∈ nodes → predicate.Proper
  each : ∀ path body position, .each path body position ∈ nodes →
    (Expression.path path).Proper ∧ StartsPlain body ∧ EndsPlain body
  flat : ∀ path body position, .each path body position ∈ nodes →
    ∀ inner, Siblings body inner → ∀ path' body' position', .each path' body' position' ∉ inner

def Node.Normal (nodes : List Node) : Prop :=
  ∀ list, Siblings nodes list → NormalList list

inductive TidyNode : Bool → Node → Prop
  | literal {inEach text} : text ≠ [] → ¬ Piece.opening <:+: text →
      TidyNode inEach (.literal (String.ofList text))
  | interpolation {inEach inside position} : ¬ Piece.closing <:+: inside →
      trim inside ≠ "else".toList →
      TidyNode inEach (.interpolation (Expression.read inside) position)
  | each {argument path body position} : ¬ Piece.closing <:+: argument →
      Expression.read argument = .path path →
      StartsPlain body → EndsPlain body → Tidy true body → TidyNode false (.each path body position)
  | conditional {inEach argument body position} : ¬ Piece.closing <:+: argument → Tidy inEach body →
      TidyNode inEach (.conditional (Expression.read argument) body position)

namespace Tidy
variable {inEach : Bool} {nodes list : List Node}

theorem node (h : Tidy inEach nodes) : ∀ node ∈ nodes, TidyNode inEach node := by
  induction h with
  | nil => exact nofun
  | literal hne hfree _ _ _ ih => exact List.forall_mem_cons.mpr ⟨.literal hne hfree, ih⟩
  | interpolation hfree helse _ _ ih =>
    exact List.forall_mem_cons.mpr ⟨.interpolation hfree helse, ih⟩
  | each hfree _ hread hbody hfirst hlast _ _ ih =>
    exact List.forall_mem_cons.mpr ⟨.each hfree hread hfirst hlast hbody, ih⟩
  | conditional hfree _ hbody _ _ _ ih =>
    exact List.forall_mem_cons.mpr ⟨.conditional hfree hbody, ih⟩

theorem apart (h : Tidy inEach nodes) : nodes.IsChain Node.Apart := by
  induction h with
  | nil => exact .nil
  | literal _ _ _ hnext _ ih => exact ih.cons fun node hnode _ other _ => hnext node hnode other
  | interpolation _ _ _ _ ih => exact ih.cons (by simp [Node.Apart])
  | each _ _ _ _ _ _ _ _ ih => exact ih.cons (by simp [Node.Apart])
  | conditional _ _ _ _ _ _ ih => exact ih.cons (by simp [Node.Apart])

/-- Every list of siblings is tidy, and below an `each` block it is so as the inside of one. -/
theorem siblings (h : Tidy inEach nodes) (hlist : Siblings nodes list) :
    ∃ below, (inEach = true → below = true) ∧ Tidy below list := by
  -- The flag is set on the way into an `each` block and never cleared, since a body keeps that of
  -- its list.
  induction hlist with
  | whole => exact ⟨inEach, id, h⟩
  | each _ hmem ih =>
    obtain ⟨below, -, hlist⟩ := ih
    cases hlist.node _ hmem with
    | each _ _ _ _ hbody => exact ⟨true, fun _ => rfl, hbody⟩
  | conditional _ hmem ih =>
    obtain ⟨below, hbelow, hlist⟩ := ih
    cases hlist.node _ hmem with
    | conditional _ hbody => exact ⟨below, hbelow, hbody⟩

theorem each_not_mem (h : Tidy true nodes) (path : List String)
    (body : List Node) (position : Position) :
    .each path body position ∉ nodes := by
  intro hmem
  cases h.node _ hmem

theorem normalList (h : Tidy inEach nodes) : NormalList nodes where
  literal text hmem := by
    cases h.node _ hmem with
    | literal hne hfree =>
      rw [String.toList_ofList]
      exact ⟨hne, hfree⟩
  apart := h.apart
  interpolation expression position hmem := by
    cases h.node _ hmem with
    | interpolation hfree helse =>
      exact ⟨Expression.read_ne_else helse, Expression.proper_read hfree⟩
  conditional predicate body position hmem := by
    cases h.node _ hmem with
    | conditional hfree _ => exact Expression.proper_read hfree
  each path body position hmem := by
    cases h.node _ hmem with
    | each hfree hread hfirst hlast _ =>
      rw [← hread]
      exact ⟨Expression.proper_read hfree, hfirst, hlast⟩
  flat path body position hmem inner hinner path' body' position' := by
    cases h.node _ hmem with
    | each _ _ _ _ hbody =>
      obtain ⟨below, hbelow, htidy⟩ := hbody.siblings hinner
      rw [hbelow rfl] at htidy
      exact htidy.each_not_mem path' body' position'

theorem normal (h : Tidy inEach nodes) : Node.Normal nodes := by
  intro list hlist
  obtain ⟨below, -, htidy⟩ := h.siblings hlist
  exact htidy.normalList

end Tidy

/-- Every tree that parsing gives is in normal form, at every depth. -/
theorem Template.parse_normal (text name : String) (template : Template)
    (h : Template.parse text name = .ok template) : Node.Normal template.nodes := by
  obtain ⟨-, hforest⟩ := Template.parse_eq_ok_iff.mp h
  exact (hforest.tidy (Piece.cut_outside .start text.toList).wellCut).normal

/-- A block in a block, literals that are emptied by stripping, a hyphen in a path and a lone brace
in a literal. -/
theorem Template.parse_normal_of_blocks :
    let text :=
      "a\x7b\n\x7b\x7b#if x-y\x7d\x7d\x7b\x7b#each . \x7d\x7d \x7b\x7b n.0 \x7d\x7d " ++
        "\x7b\x7b/each\x7d\x7d\x7b\x7b/if\x7d\x7d\x7b\x7b (eq k \"\x7d\") \x7d\x7d"
    ∃ template, Template.parse text "t" = .ok template ∧ Node.Normal template.nodes := by
  intro text
  have hok : (Template.parse text "t").isOk = true := by decide +kernel
  obtain ⟨template, htemplate⟩ := Fallible.exists_of_isOk hok
  exact ⟨template, htemplate, Template.parse_normal text "t" template htemplate⟩

end CatalogPress
