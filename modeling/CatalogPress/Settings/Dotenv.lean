import CatalogPress.Table
import CatalogPress.Text.Class

/-!
Variables given in a file: one binding a line, `NAME=value`, perhaps after `export`. A value stands
in single quotes, in double quotes or bare; quoted values may run over several lines, and a bare
value ends before a comment. Lines that are not bindings are left out. A value may refer to other
variables as `${NAME}` or, with a default, as `${NAME:-default}`.
-/
namespace CatalogPress.Dotenv
open Text

def isInnerBlank (c : Char) : Bool :=
  isBlank c && c != '\n'

def skipLine (text : List Char) : List Char :=
  (text.dropWhile (· ≠ '\n')).drop 1

def skipExport (text : List Char) : List Char :=
  let word := "export".toList
  if word.isPrefixOf text && (text.drop word.length).head?.any isInnerBlank then
    (text.drop word.length).dropWhile isInnerBlank
  else text

/-- The text up to the quote that closes it, and what follows. A quote after a backslash closes it
only if no other does. -/
def quotedBody (quote : Char) : List Char → Option (List Char × List Char)
  | '\\' :: c :: rest =>
    if c = quote then
      match quotedBody quote rest with
      | some (body, after) => some ('\\' :: c :: body, after)
      | none => some (['\\'], rest)
    else (quotedBody quote (c :: rest)).map fun (body, after) => ('\\' :: body, after)
  | c :: rest =>
    if c = quote then some ([], rest)
    else (quotedBody quote rest).map fun (body, after) => (c :: body, after)
  | [] => none

def singleEscapes : List (Char × Char) :=
  [('\\', '\\'), ('\'', '\'')]

def doubleEscapes : List (Char × Char) :=
  [('\\', '\\'), ('\'', '\''), ('"', '"'), ('a', '\x07'), ('b', '\x08'), ('f', '\x0c'),
   ('n', '\n'), ('r', '\r'), ('t', '\t'), ('v', '\x0b')]

def unescape (escapes : List (Char × Char)) : List Char → List Char
  | '\\' :: c :: rest =>
    match escapes.lookup c with
    | some meant => meant :: unescape escapes rest
    | none => '\\' :: unescape escapes (c :: rest)
  | c :: rest => c :: unescape escapes rest
  | [] => []

/-- A bare value up to a `#` that follows a blank. -/
def beforeComment (afterBlank : Bool) : List Char → List Char
  | [] => []
  | c :: rest => if afterBlank && c = '#' then [] else c :: beforeComment (isBlank c) rest

def readName : List Char → Option (List Char × List Char)
  | '\'' :: rest =>
    let name := rest.takeWhile (· ≠ '\'')
    match rest.dropWhile (· ≠ '\'') with
    | '\'' :: after => if name.isEmpty then none else some (name, after)
    | _ => none
  | text =>
    let isNameChar (c : Char) : Bool := c != '=' && c != '#' && !isBlank c
    let name := text.takeWhile isNameChar
    if name.isEmpty then none else some (name, text.dropWhile isNameChar)

def readValue : List Char → Option (List Char × List Char)
  | '\'' :: rest => (quotedBody '\'' rest).map fun (body, after) =>
      (unescape singleEscapes body, after)
  | '"' :: rest => (quotedBody '"' rest).map fun (body, after) =>
      (unescape doubleEscapes body, after)
  | text =>
    let line := text.takeWhile (· ≠ '\n')
    some (trimEnd (beforeComment false line), text.dropWhile (· ≠ '\n'))

def endLine? (text : List Char) : Option (List Char) :=
  match text.dropWhile isInnerBlank with
  | [] => some []
  | '\n' :: rest => some rest
  | '#' :: rest => some ((rest.dropWhile (· ≠ '\n')).drop 1)
  | _ => none

/-- A variable and its value, of which a line may give only the name. -/
abbrev Binding := String × Option String

def readLine (text : List Char) : Option Binding × List Char :=
  let text := skipExport text
  if text.head? = some '#' then (none, skipLine text)
  else
    match readName text with
    | none => (none, skipLine text)
    | some (name, rest) =>
      match rest.dropWhile isInnerBlank with
      | '=' :: rest =>
        let rest := rest.dropWhile isInnerBlank
        match readValue rest with
        | none => (none, skipLine rest)
        | some (value, rest) =>
          match endLine? rest with
          | some after => (some (String.ofList name, some (String.ofList value)), after)
          | none => (none, skipLine rest)
      | rest =>
        match endLine? rest with
        | some after => (some (String.ofList name, none), after)
        | none => (none, skipLine rest)

def readLines : Nat → List Char → List Binding
  | 0, _ => []
  | count + 1, text =>
    match text.dropWhile isBlank with
    | [] => []
    | c :: rest =>
      let (binding, rest) := readLine (c :: rest)
      binding.toList ++ readLines count rest

def read (text : String) : List Binding :=
  readLines text.length text.toList

/-- The variable that a text refers to after `$` and an opening brace, the default, and what follows
the closing brace. -/
def reference? (text : List Char) : Option (String × Option String × List Char) :=
  let name := text.takeWhile fun c => c != '}' && c != ':'
  match text.drop name.length with
  | '}' :: rest => some (String.ofList name, none, rest)
  | ':' :: '-' :: rest =>
    let default := rest.takeWhile (· ≠ '}')
    match rest.drop default.length with
    | '}' :: rest => some (String.ofList name, some (String.ofList default), rest)
    | _ => none
  | _ => none

def references : List Char → List String
  | [] => []
  | '$' :: '{' :: rest =>
    match reference? rest with
    | some (name, _, _) => name :: references rest
    | none => references rest
  | _ :: rest => references rest

/-- Replaces references by what `lookup` gives: nothing where the variable is unknown, so that the
default counts. At most `count` steps are made. -/
def expand (lookup : String → Option String) : Nat → List Char → List Char
  | 0, text => text
  | _ + 1, [] => []
  | count + 1, c :: rest =>
    match c, rest with
    | '$', '{' :: inner =>
      match reference? inner with
      | some (name, default, after) =>
        ((lookup name).getD (default.getD "")).toList ++ expand lookup count after
      | none => c :: expand lookup count rest
    | _, _ => c :: expand lookup count rest

def expandText (lookup : String → Option String) (text : String) : String :=
  String.ofList (expand lookup text.length text.toList)

/-- Resolves the references of bindings in order. A variable that an earlier line gives comes before
one of the environment; given without a value it counts as empty. -/
def resolve (environment : Table String String) (bindings : List Binding) :
    Table String (Option String) :=
  bindings.foldl (fun resolved (name, value) =>
    let lookup (name : String) : Option String :=
      match Table.get? name resolved with
      | some value => some (value.getD "")
      | none => Table.get? name environment
    Table.put name (value.map (expandText lookup)) resolved) []

end CatalogPress.Dotenv
