import CatalogPress.Proofs.Template.Block
import CatalogPress.Template.Parser

/-!
The trees that pieces spell out, said without a parser: literals and interpolations stand for
themselves, and an opener and its closer stand for a block over what is between them.
-/
namespace CatalogPress
open Text

namespace Node

def literals (text : List Char) : List Node :=
  if text.isEmpty then [] else [literal (String.ofList text)]

def stripStart : List Node → List Node
  | literal text :: rest => literals (trimStart text.toList) ++ rest
  | nodes => nodes

def stripEnd : List Node → List Node
  | [] => []
  | [literal text] => literals (trimEnd text.toList)
  | node :: rest => node :: stripEnd rest

def strip (body : List Node) : List Node :=
  stripEnd (stripStart body)

@[simp] theorem literals_nil : literals [] = [] := rfl

theorem literals_of_ne_nil {text : List Char} (h : text ≠ []) :
    literals text = [literal (String.ofList text)] := by
  cases text with
  | nil => exact absurd rfl h
  | cons c text => rfl

@[simp] theorem stripStart_literal (text : String) (rest : List Node) :
    stripStart (literal text :: rest) = literals (trimStart text.toList) ++ rest := rfl

theorem stripStart_of_ne_literal {node : Node}
    (h : ∀ text, node ≠ literal text) (rest : List Node) :
    stripStart (node :: rest) = node :: rest := by
  cases node with
  | literal text => exact absurd rfl (h text)
  | _ => rfl

@[simp] theorem stripEnd_nil : stripEnd [] = [] := rfl

theorem stripEnd_cons {rest : List Node} (h : rest ≠ []) (node : Node) :
    stripEnd (node :: rest) = node :: stripEnd rest := by
  cases rest with
  | nil => exact absurd rfl h
  | cons next rest => cases node <;> rfl

theorem stripEnd_append {b : List Node} (h : b ≠ []) (a : List Node) :
    stripEnd (a ++ b) = a ++ stripEnd b := by
  induction a with
  | nil => rfl
  | cons node a ih => rw [List.cons_append, stripEnd_cons (by simp [h]), ih, List.cons_append]

@[simp] theorem stripEnd_literals (text : List Char) :
    stripEnd (literals text) = literals (trimEnd text) := by
  by_cases h : text = []
  · rw [h]
    rfl
  · rw [literals_of_ne_nil h]
    change literals (trimEnd (String.ofList text).toList) = _
    rw [String.toList_ofList]

theorem stripStart_literals (text : List Char) :
    stripStart (literals text) = literals (trimStart text) := by
  by_cases h : text = []
  · rw [h]
    rfl
  · rw [literals_of_ne_nil h, stripStart_literal, String.toList_ofList, List.append_nil]

theorem strip_literals (text : List Char) : strip (literals text) = literals (trim text) := by
  unfold strip trim
  rw [stripStart_literals, stripEnd_literals]

section
variable {α : Type} {f : Node → List α} (h : ∀ text, f (literal text) = [])
include h

theorem flatMap_literals (text : List Char) : (literals text).flatMap f = [] := by
  cases text with
  | nil => rfl
  | cons c text => rw [literals_of_ne_nil (List.cons_ne_nil _ _), List.flatMap_singleton, h]

theorem flatMap_stripStart (nodes : List Node) :
    (stripStart nodes).flatMap f = nodes.flatMap f := by
  unfold stripStart
  split
  · rw [List.flatMap_append, flatMap_literals h, List.flatMap_cons, h]
  · rfl

theorem flatMap_stripEnd (nodes : List Node) : (stripEnd nodes).flatMap f = nodes.flatMap f := by
  fun_induction stripEnd nodes with
  | case1 => rfl
  | case2 => rw [flatMap_literals h, List.flatMap_singleton, h]
  | case3 node rest _ ih => rw [List.flatMap_cons, List.flatMap_cons, ih]

theorem flatMap_strip (body : List Node) : (strip body).flatMap f = body.flatMap f := by
  unfold strip
  rw [flatMap_stripEnd h, flatMap_stripStart h]

end

end Node

inductive BlockNode (body : List Node) (position : Position) : Tag → Expression → Node → Prop
  | each {path} : BlockNode body position .each (.path path) (.each path (Node.strip body) position)
  | conditional {predicate} :
      BlockNode body position .conditional predicate (.conditional predicate body position)

theorem BlockNode.ne_literal {body : List Node} {position : Position} {tag : Tag}
    {expression : Expression} {node : Node} (h : BlockNode body position tag expression node)
    (text : String) : node ≠ .literal text := by
  cases h <;> simp

theorem BlockNode.exists_path {body : List Node} {position : Position} {tag : Tag}
    {expression : Expression} {node : Node} (h : BlockNode body position tag expression node)
    (htag : tag = .each) : ∃ path, expression = .path path := by
  cases h with
  | each => exact ⟨_, rfl⟩
  | conditional => cases htag

/-- The nodes that pieces spell out, inside an `each` block or not. -/
inductive Forest : Bool → List Piece → List Node → Prop
  | nil {inEach} : Forest inEach [] []
  | literal {inEach text pieces nodes} : text ≠ [] → Forest inEach pieces nodes →
      Forest inEach (.literal text :: pieces) (.literal (String.ofList text) :: nodes)
  | interpolation {inEach inside position pieces nodes} : trim inside ≠ "else".toList →
      (∀ marker word argument, ¬ BlockForm inside marker word argument) →
      Forest inEach pieces nodes →
      Forest inEach (.directive inside position :: pieces)
        (.interpolation (Expression.read inside) position :: nodes)
  | block {inEach inside position tag argument inner body last closing rest node pieces nodes} :
      BlockForm inside '#' tag.name.toList argument → trim argument ≠ [] →
      (tag = .each → inEach = false) →
      Forest (inEach || decide (tag = .each)) inner body →
      BlockForm last '/' tag.name.toList rest → trim rest = [] →
      BlockNode body position tag (Expression.read argument) node →
      Forest inEach pieces nodes →
      Forest inEach (.directive inside position :: (inner ++ .directive last closing :: pieces))
        (node :: nodes)

theorem Forest.append {inEach : Bool} {a b : List Piece} {nodes more : List Node}
    (ha : Forest inEach a nodes) (hb : Forest inEach b more) :
    Forest inEach (a ++ b) (nodes ++ more) := by
  induction ha with
  | nil => exact hb
  | literal htext _ ih => exact .literal htext (ih hb)
  | interpolation helse hform _ ih => exact .interpolation helse hform (ih hb)
  | block hopen hargument hnested hbody hclose hrest hnode _ _ ih =>
    rw [List.cons_append, List.append_assoc, List.cons_append]
    exact .block hopen hargument hnested hbody hclose hrest hnode (ih hb)

theorem Forest.nodes_eq_nil_iff {inEach : Bool} {pieces : List Piece} {nodes : List Node}
    (h : Forest inEach pieces nodes) : nodes = [] ↔ pieces = [] := by
  cases h <;> simp

theorem Forest.empty_not_mem {inEach : Bool} {pieces : List Piece} {nodes : List Node}
    (h : Forest inEach pieces nodes) : .literal "" ∉ nodes := by
  induction h with
  | nil => simp
  | literal htext _ ih =>
    rw [List.mem_cons, not_or]
    refine ⟨?_, ih⟩
    rw [Node.literal.injEq, eq_comm, String.ofList_eq_empty_iff]
    exact htext
  | interpolation _ _ _ ih => simpa using ih
  | block _ _ _ _ _ _ hnode _ _ ih =>
    rw [List.mem_cons, not_or]
    exact ⟨(hnode.ne_literal "").symm, ih⟩

namespace Template

theorem modifyLast_singleton (f : Node → Node) (node : Node) : modifyLast f [node] = [f node] := rfl

theorem modifyLast_cons (f : Node → Node) {rest : List Node} (h : rest ≠ []) (node : Node) :
    modifyLast f (node :: rest) = node :: modifyLast f rest := by
  obtain ⟨first, last, rfl⟩ := List.eq_nil_or_concat' rest |>.resolve_left h
  simp [modifyLast]

@[simp] theorem isEmptyLiteral_literal (text : List Char) :
    isEmptyLiteral (.literal (String.ofList text)) = text.isEmpty := by
  change (String.ofList text).isEmpty = text.isEmpty
  rw [Bool.eq_iff_iff, String.isEmpty_iff, String.ofList_eq_empty_iff, List.isEmpty_iff]

theorem isEmptyLiteral_eq_false {node : Node} (h : node ≠ .literal "") :
    isEmptyLiteral node = false := by
  cases node with
  | literal text =>
    change text.isEmpty = false
    simpa using h
  | _ => rfl

theorem filter_literal_cons (text : List Char) (rest : List Node) :
    (.literal (String.ofList text) :: rest).filter (!isEmptyLiteral ·) =
      Node.literals text ++ rest.filter (!isEmptyLiteral ·) := by
  rw [List.filter_cons, isEmptyLiteral_literal, Node.literals]
  cases text.isEmpty <;> rfl

theorem filter_modifyLast {nodes : List Node} (h : .literal "" ∉ nodes) :
    (modifyLast (trimLiteral trimEnd) nodes).filter (!isEmptyLiteral ·) = Node.stripEnd nodes := by
  induction nodes with
  | nil => rfl
  | cons node rest ih =>
    rw [List.mem_cons, not_or] at h
    cases rest with
    | nil =>
      cases node with
      | literal text => exact (filter_literal_cons _ []).trans (List.append_nil _)
      | _ => rfl
    | cons next rest =>
      rw [modifyLast_cons _ (List.cons_ne_nil _ _), Node.stripEnd_cons (List.cons_ne_nil _ _),
        List.filter_cons, isEmptyLiteral_eq_false (Ne.symm h.1), ih h.2]
      rfl

theorem trimLiteral_of_ne_literal (trim : List Char → List Char) {node : Node}
    (h : ∀ text, node ≠ .literal text) : trimLiteral trim node = node := by
  cases node with
  | literal text => exact absurd rfl (h text)
  | _ => rfl

theorem trimBody_eq_strip {body : List Node} (h : .literal "" ∉ body) :
    trimBody body = Node.strip body := by
  unfold trimBody Node.strip
  cases body with
  | nil => rfl
  | cons node rest =>
    by_cases hliteral : ∃ text, node = .literal text
    · obtain ⟨text, rfl⟩ := hliteral
      rw [List.modifyHead_cons, trimLiteral, Node.stripStart_literal]
      cases rest with
      | nil =>
        rw [modifyLast_singleton, trimLiteral, String.toList_ofList, filter_literal_cons,
          List.filter_nil, List.append_nil, List.append_nil, Node.stripEnd_literals]
      | cons next rest =>
        rw [modifyLast_cons _ (List.cons_ne_nil _ _), filter_literal_cons,
          filter_modifyLast (not_or.mp (List.mem_cons.not.mp h)).2,
          Node.stripEnd_append (List.cons_ne_nil _ _)]
    · have hne : ∀ text, node ≠ .literal text := by simpa using hliteral
      rw [List.modifyHead_cons, trimLiteral_of_ne_literal _ hne, filter_modifyLast h,
        Node.stripStart_of_ne_literal hne]

end Template
end CatalogPress
