import SchemaScript.Text.Blank
import SchemaScript.Text.Case

/-!
# SchemaScript.Dialect.Basic

The dialects a model can be exported to, their names and the selectors that denote them.
-/

namespace SchemaScript

inductive Dialect where
  | postgreSql
  | mySql
  | sqlite
  | oracle
  | sqlServer
  | mongoDb
deriving DecidableEq, Repr

namespace Dialect

/-- All dialects in the order of the menu. -/
def all : List Dialect :=
  [.postgreSql, .mySql, .sqlite, .oracle, .sqlServer, .mongoDb]

def name : Dialect → String
  | .postgreSql => "PostgreSQL"
  | .mySql => "MySQL"
  | .sqlite => "SQLite"
  | .oracle => "Oracle"
  | .sqlServer => "SQL Server"
  | .mongoDb => "MongoDB"

def fileExtension : Dialect → String
  | .mongoDb => ".js"
  | _ => ".sql"

/-- The selectors of a dialect, in small letters. -/
def aliases : Dialect → List String
  | .postgreSql => ["postgresql", "postgres", "pg"]
  | .mySql => ["mysql", "mariadb"]
  | .sqlite => ["sqlite", "sqlite3"]
  | .oracle => ["oracle"]
  | .sqlServer => ["sql server", "sqlserver", "sql_server", "mssql"]
  | .mongoDb => ["mongodb", "mongo"]

/-- The dialect that a selector denotes, whatever its case and the white space around it. -/
def parse? (selector : String) : Option Dialect :=
  let plain := Text.lower (Text.trim selector)
  all.find? fun d => d.aliases.contains plain

/-- What is said of a selector that denotes no dialect. -/
def unsupportedMessage (selector : String) : String :=
  "Unsupported database type: " ++ selector

end Dialect
end SchemaScript
