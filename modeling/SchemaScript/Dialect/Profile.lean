import SchemaScript.Dialect.Basic

/-!
# SchemaScript.Dialect.Profile

What distinguishes the relational dialects: how they quote and fold identifiers, where they declare
keys, and how they number rows. MongoDB has no profile.

An identifier is put between the quotes of the dialect, with the closing quote written twice inside.
-/

namespace SchemaScript

inductive IdentifierCase where
  | preserve
  | upper
deriving DecidableEq, Repr

/-- Where a constraint is declared. -/
inductive Placement where
  | column
  | tableBody
  | alterTable
deriving DecidableEq, Repr

/-- How an integer key gets its numbers. -/
inductive Numbering where
  | none
  | inline (keyword : String)
  | sequenceTrigger
deriving DecidableEq, Repr

structure Profile where
  dialect : Dialect
  openQuote : Char
  closeQuote : Char
  identifierCase : IdentifierCase
  keyPlacement : Placement
  foreignKeyPlacement : Placement
  numbering : Numbering
  /-- Whether nullable columns are marked as such. -/
  explicitNull : Bool
  nowFunction : String
  headerStatements : List String
  tableSuffix : String
deriving DecidableEq, Repr

namespace Profile

def postgreSql : Profile where
  dialect := .postgreSql
  openQuote := '"'
  closeQuote := '"'
  identifierCase := .preserve
  keyPlacement := .column
  foreignKeyPlacement := .alterTable
  numbering := .none
  explicitNull := false
  nowFunction := "CURRENT_TIMESTAMP"
  headerStatements := []
  tableSuffix := ""

def mySql : Profile where
  dialect := .mySql
  openQuote := '\x60'
  closeQuote := '\x60'
  identifierCase := .preserve
  keyPlacement := .column
  foreignKeyPlacement := .alterTable
  numbering := .inline "AUTO_INCREMENT"
  explicitNull := false
  nowFunction := "CURRENT_TIMESTAMP"
  headerStatements := []
  tableSuffix := " ENGINE=InnoDB DEFAULT CHARSET=utf8mb4"

def sqlite : Profile where
  dialect := .sqlite
  openQuote := '"'
  closeQuote := '"'
  identifierCase := .preserve
  keyPlacement := .column
  foreignKeyPlacement := .tableBody
  numbering := .inline "AUTOINCREMENT"
  explicitNull := false
  nowFunction := "CURRENT_TIMESTAMP"
  headerStatements := ["PRAGMA foreign_keys = ON;"]
  tableSuffix := ""

def oracle : Profile where
  dialect := .oracle
  openQuote := '"'
  closeQuote := '"'
  identifierCase := .upper
  keyPlacement := .alterTable
  foreignKeyPlacement := .alterTable
  numbering := .sequenceTrigger
  explicitNull := false
  nowFunction := "CURRENT_TIMESTAMP"
  headerStatements := []
  tableSuffix := ""

def sqlServer : Profile where
  dialect := .sqlServer
  openQuote := '['
  closeQuote := ']'
  identifierCase := .preserve
  keyPlacement := .alterTable
  foreignKeyPlacement := .alterTable
  numbering := .inline "IDENTITY(1,1)"
  explicitNull := true
  nowFunction := "GETDATE()"
  headerStatements := []
  tableSuffix := ""

/-- The profiles of all relational dialects, in the order of the menu. -/
def all : List Profile :=
  [postgreSql, mySql, sqlite, oracle, sqlServer]

/-- Whether keys are declared on the line of their column. -/
def inlineKeys (p : Profile) : Bool :=
  p.keyPlacement == .column

/-- The identifier as the dialect stores it. -/
def fold (p : Profile) (identifier : String) : String :=
  match p.identifierCase with
  | .preserve => identifier
  | .upper => Text.upper identifier

/-- The characters of a quoted text with its closing quote written twice. -/
def double (quote : Char) (cs : List Char) : List Char :=
  cs.flatMap fun c => if c = quote then [c, c] else [c]

theorem double_nil (q : Char) : double q [] = [] :=
  rfl

theorem double_append (q : Char) (cs ds : List Char) :
    double q (cs ++ ds) = double q cs ++ double q ds := by
  simp [double]

theorem double_cons_self (q : Char) (cs : List Char) :
    double q (q :: cs) = q :: q :: double q cs := by
  simp [double]

theorem double_cons_other {q c : Char} (hc : c ≠ q) (cs : List Char) :
    double q (c :: cs) = c :: double q cs := by
  simp [double, hc]

/-- The identifier in quotes. -/
def quote (p : Profile) (identifier : String) : String :=
  String.ofList
    (p.openQuote :: double p.closeQuote (p.fold identifier).toList ++ [p.closeQuote])

end Profile

/-- The profile of a relational dialect. -/
def Dialect.profile? : Dialect → Option Profile
  | .postgreSql => some .postgreSql
  | .mySql => some .mySql
  | .sqlite => some .sqlite
  | .oracle => some .oracle
  | .sqlServer => some .sqlServer
  | .mongoDb => none

def Dialect.isRelational (d : Dialect) : Bool :=
  d.profile?.isSome

end SchemaScript
