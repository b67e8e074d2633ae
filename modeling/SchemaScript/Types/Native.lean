import SchemaScript.Dialect.Basic
import SchemaScript.Types.Token

/-!
# SchemaScript.Types.Native

The native types that the keywords of type tokens have in the relational dialects.

A keyword that a dialect does not know is passed on as the token gives it; SQLite takes everything
it does not know for text.
-/

namespace SchemaScript

def postgreSqlTypes : List (String × String) := [
  ("INT", "INTEGER"), ("TINYINT", "SMALLINT"), ("MEDIUMINT", "INTEGER"), ("BIGINT", "BIGINT"),
  ("FLOAT", "REAL"), ("DOUBLE", "DOUBLE PRECISION"), ("DECIMAL", "DECIMAL"),
  ("NUMERIC", "NUMERIC"), ("CHAR", "CHAR"), ("VARCHAR", "VARCHAR"), ("TEXT", "TEXT"),
  ("TINYTEXT", "TEXT"), ("MEDIUMTEXT", "TEXT"), ("LONGTEXT", "TEXT"), ("BLOB", "BYTEA"),
  ("TINYBLOB", "BYTEA"), ("MEDIUMBLOB", "BYTEA"), ("LONGBLOB", "BYTEA"), ("BINARY", "BYTEA"),
  ("VARBINARY", "BYTEA"), ("DATE", "DATE"), ("TIME", "TIME"), ("DATETIME", "TIMESTAMP"),
  ("TIMESTAMP", "TIMESTAMP"), ("BOOLEAN", "BOOLEAN"), ("BOOL", "BOOLEAN"), ("JSON", "JSON"),
  ("UUID", "UUID"), ("SERIAL", "SERIAL")]

def mySqlTypes : List (String × String) := [
  ("INTEGER", "INT"), ("SMALLINT", "SMALLINT"), ("BIGINT", "BIGINT"), ("REAL", "FLOAT"),
  ("DOUBLE PRECISION", "DOUBLE"), ("DECIMAL", "DECIMAL"), ("NUMERIC", "DECIMAL"),
  ("CHAR", "CHAR"), ("VARCHAR", "VARCHAR"), ("TEXT", "TEXT"), ("BYTEA", "BLOB"),
  ("DATE", "DATE"), ("TIME", "TIME"), ("TIMESTAMP", "TIMESTAMP"), ("DATETIME", "DATETIME"),
  ("BOOLEAN", "BOOLEAN"), ("BOOL", "BOOLEAN"), ("JSON", "JSON"), ("UUID", "VARCHAR(36)"),
  ("SERIAL", "SERIAL")]

def sqliteTypes : List (String × String) := [
  ("INT", "INTEGER"), ("INTEGER", "INTEGER"), ("TINYINT", "INTEGER"), ("SMALLINT", "INTEGER"),
  ("MEDIUMINT", "INTEGER"), ("BIGINT", "INTEGER"), ("FLOAT", "REAL"), ("DOUBLE", "REAL"),
  ("DOUBLE PRECISION", "REAL"), ("REAL", "REAL"), ("DECIMAL", "REAL"), ("NUMERIC", "REAL"),
  ("CHAR", "TEXT"), ("VARCHAR", "TEXT"), ("TEXT", "TEXT"), ("TINYTEXT", "TEXT"),
  ("MEDIUMTEXT", "TEXT"), ("LONGTEXT", "TEXT"), ("BLOB", "BLOB"), ("TINYBLOB", "BLOB"),
  ("MEDIUMBLOB", "BLOB"), ("LONGBLOB", "BLOB"), ("BYTEA", "BLOB"), ("BINARY", "BLOB"),
  ("VARBINARY", "BLOB"), ("DATE", "TEXT"), ("TIME", "TEXT"), ("DATETIME", "TEXT"),
  ("TIMESTAMP", "TEXT"), ("BOOLEAN", "INTEGER"), ("BOOL", "INTEGER"), ("JSON", "TEXT"),
  ("UUID", "TEXT"), ("SERIAL", "INTEGER")]

def oracleTypes : List (String × String) := [
  ("INT", "NUMBER(10)"), ("INTEGER", "NUMBER(10)"), ("TINYINT", "NUMBER(3)"),
  ("SMALLINT", "NUMBER(5)"), ("MEDIUMINT", "NUMBER(7)"), ("BIGINT", "NUMBER(19)"),
  ("FLOAT", "BINARY_FLOAT"), ("REAL", "BINARY_FLOAT"), ("DOUBLE", "BINARY_DOUBLE"),
  ("DOUBLE PRECISION", "BINARY_DOUBLE"), ("DECIMAL", "NUMBER"), ("NUMERIC", "NUMBER"),
  ("CHAR", "CHAR"), ("VARCHAR", "VARCHAR2"), ("TEXT", "CLOB"), ("TINYTEXT", "VARCHAR2(255)"),
  ("MEDIUMTEXT", "CLOB"), ("LONGTEXT", "CLOB"), ("BLOB", "BLOB"), ("TINYBLOB", "BLOB"),
  ("MEDIUMBLOB", "BLOB"), ("LONGBLOB", "BLOB"), ("BYTEA", "BLOB"), ("BINARY", "RAW"),
  ("VARBINARY", "RAW"), ("DATE", "DATE"), ("TIME", "TIMESTAMP"), ("DATETIME", "TIMESTAMP"),
  ("TIMESTAMP", "TIMESTAMP"), ("BOOLEAN", "NUMBER(1)"), ("BOOL", "NUMBER(1)"), ("JSON", "CLOB"),
  ("UUID", "VARCHAR2(36)"), ("SERIAL", "NUMBER")]

def sqlServerTypes : List (String × String) := [
  ("INT", "INT"), ("INTEGER", "INT"), ("TINYINT", "TINYINT"), ("SMALLINT", "SMALLINT"),
  ("MEDIUMINT", "INT"), ("BIGINT", "BIGINT"), ("FLOAT", "FLOAT"), ("DOUBLE", "FLOAT"),
  ("DOUBLE PRECISION", "FLOAT"), ("DECIMAL", "DECIMAL"), ("NUMERIC", "NUMERIC"),
  ("CHAR", "CHAR"), ("VARCHAR", "VARCHAR"), ("TEXT", "NVARCHAR(MAX)"),
  ("TINYTEXT", "NVARCHAR(255)"), ("MEDIUMTEXT", "NVARCHAR(MAX)"), ("LONGTEXT", "NVARCHAR(MAX)"),
  ("BLOB", "VARBINARY(MAX)"), ("TINYBLOB", "VARBINARY(255)"), ("MEDIUMBLOB", "VARBINARY(MAX)"),
  ("LONGBLOB", "VARBINARY(MAX)"), ("BYTEA", "VARBINARY(MAX)"), ("BINARY", "BINARY"),
  ("VARBINARY", "VARBINARY"), ("DATE", "DATE"), ("TIME", "TIME"), ("DATETIME", "DATETIME2"),
  ("TIMESTAMP", "DATETIME2"), ("BOOLEAN", "BIT"), ("BOOL", "BIT"), ("JSON", "NVARCHAR(MAX)"),
  ("UUID", "UNIQUEIDENTIFIER"), ("SERIAL", "INT IDENTITY(1,1)")]

namespace Dialect

/-- Native types by keyword; MongoDB has none. -/
def nativeTypes : Dialect → List (String × String)
  | .postgreSql => postgreSqlTypes
  | .mySql => mySqlTypes
  | .sqlite => sqliteTypes
  | .oracle => oracleTypes
  | .sqlServer => sqlServerTypes
  | .mongoDb => []

def nativeType? (d : Dialect) (keyword : String) : Option String :=
  d.nativeTypes.lookup keyword

/-- The native type for a token. -/
def convertType (d : Dialect) (token : String) : String :=
  let parsed := TypeToken.parse token
  match d with
  | .mongoDb => token
  | .sqlite => (d.nativeType? parsed.base).getD "TEXT"
  | d =>
    match parsed.params with
    | some params =>
      if parsed.keepsParams then
        (d.nativeType? parsed.base).getD parsed.base ++ "(" ++ params ++ ")"
      else Text.trim token
    | none => (d.nativeType? parsed.base).getD (Text.trim token)

end Dialect
end SchemaScript
