import CatalogPress.Text.Basic

/-!
Log records and their levels. A record has a level, the name of a logger and a message. Levels are
numbers, of which a few have names. In settings case does not matter, and a name that means nothing
stands for the level INFO. Two names mean something that is no level: one the line format that is
used where none is given, the other the table of the styles that a line format can have.
-/
namespace CatalogPress

structure LogRecord where
  level : Int
  logger : String
  message : Text
deriving DecidableEq, Inhabited, Repr

namespace LogRecord

def debugLevel : Int := 10
def infoLevel : Int := 20
def warningLevel : Int := 30
def errorLevel : Int := 40
def criticalLevel : Int := 50

def levelNames : List (Int × String) := [
  (criticalLevel, "CRITICAL"), (errorLevel, "ERROR"), (warningLevel, "WARNING"),
  (infoLevel, "INFO"), (debugLevel, "DEBUG"), (0, "NOTSET")]

def levelName (level : Int) : String :=
  (levelNames.lookup level).getD ("Level " ++ toString level)

/-- A record of level zero or below is never taken; any other if it reaches the threshold. -/
def reaches (threshold : Int) (record : LogRecord) : Bool :=
  0 < record.level && threshold ≤ record.level

def ofLogger (logger : String) (level : Int) (message : String) : LogRecord :=
  ⟨level, if logger.isEmpty then "root" else logger, message⟩

def paddedLevelName (level : Int) : String :=
  let name := levelName level
  name ++ String.ofList (List.replicate (8 - name.length) ' ')

end LogRecord

structure Stamp where
  time : String
  place : String
deriving DecidableEq, Inhabited, Repr

def LogRecord.line (stamp : Stamp) (record : LogRecord) : Text :=
  "[" ++ stamp.time ++ "] " ++ paddedLevelName record.level ++
    " [" ++ record.logger ++ ":" ++ stamp.place ++ "] " ++ record.message ++ "\n"

namespace Level

/-- The capitals of a letter. Besides ASCII, the dotless i, the long s and the two ligatures of s
and t have ASCII capitals that occur in a name. Others are left alone, for theirs occur in no
name. -/
def capitals (c : Char) : List Char :=
  if 'a' ≤ c ∧ c ≤ 'z' then [Char.ofNat (c.toNat - 32)]
  else if c = 'ı' then ['I']
  else if c = 'ſ' then ['S']
  else if c = 'ﬅ' ∨ c = 'ﬆ' then ['S', 'T']
  else [c]

/-- A style of line formats: the mark that its fields begin with, the class that fills them in and
the format that is used where none is given. -/
structure Style where
  mark : String
  className : String
  format : String
deriving DecidableEq, Inhabited, Repr

namespace Style

def percent : Style := ⟨"%", "logging.PercentStyle", "%(levelname)s:%(name)s:%(message)s"⟩

def brace : Style :=
  ⟨"\x7b", "logging.StrFormatStyle", "\x7blevelname\x7d:\x7bname\x7d:\x7bmessage\x7d"⟩

def dollar : Style :=
  ⟨"$", "logging.StringTemplateStyle", "$\x7blevelname\x7d:$\x7bname\x7d:$\x7bmessage\x7d"⟩

def shown (style : Style) : String :=
  "'" ++ style.mark ++ "': (<class '" ++ style.className ++ "'>, '" ++ style.format ++ "')"

def table : String :=
  "\x7b" ++ ", ".intercalate ([percent, brace, dollar].map shown) ++ "\x7d"

end Style

inductive Meaning where
  | level (value : Int)
  | text (text : String)
  | table (shown : String)
deriving DecidableEq, Inhabited, Repr

def meanings : List (String × Meaning) := [
  ("CRITICAL", .level 50), ("FATAL", .level 50), ("ERROR", .level 40), ("WARNING", .level 30),
  ("WARN", .level 30), ("INFO", .level 20), ("DEBUG", .level 10), ("NOTSET", .level 0),
  ("BASIC_FORMAT", .text Style.percent.format), ("_STYLES", .table Style.table)]

def ofName (name : String) : Meaning :=
  (meanings.lookup (String.ofList (name.toList.flatMap capitals))).getD (.level LogRecord.infoLevel)

end Level
end CatalogPress
