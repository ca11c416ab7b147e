import GinRpc.Text.Woven

/-!
# SQL dialects and identifier checks

Model of `plugins/db/orm/dialect.go` and of the checks of `plugins/db/orm/util.go` that the
builders call: `NormalizeJoinType`, `ValidateJoinTableReference`, `ValidateColumnName`,
`ValidateTableName` and `BuildSafeOrderByItem`.  The regular expressions are written out as
functions; each of them can be matched from left to right without backtracking.
-/

namespace GinRpc

namespace Orm

open Text

/-- The dialects of the package; `default` is MySQL under another type. -/
inductive Dialect where
  | mySQL
  | postgreSQL
  | sqlite
  | clickHouse
  | default
  deriving DecidableEq, Repr

/-- Database features that vary between dialects. -/
inductive Feature where
  | windowFunctions | cte | fullOuterJoin | json | array | uuid | upsert
  deriving DecidableEq, Repr

namespace Dialect

/-- `_, ok := dialect.(*PostgreSQLDialect)` -/
def isPostgreSQL : Dialect → Bool
  | .postgreSQL => true
  | _ => false

def lockForUpdate : Dialect → Text
  | .mySQL | .default | .postgreSQL => "FOR UPDATE"
  | .sqlite | .clickHouse => ""

def lockInShareMode : Dialect → Text
  | .mySQL | .default => "LOCK IN SHARE MODE"
  | .postgreSQL => "FOR SHARE"
  | .sqlite | .clickHouse => ""

/-- The end of `QuoteIdentifier` of MySQL and ClickHouse, for an identifier without spaces. -/
def quoteWord (identifier : Text) : Text :=
  if identifier.contains '.' then
    List.intercalate "." ((identifier.splitOn '.').map fun seg => "`" ++ seg ++ "`")
  else "`" ++ identifier ++ "`"

/-- `QuoteIdentifier` of MySQL and ClickHouse.  The first word of the identifier, on which the
source calls the function again, is not empty and has no space or special character. -/
def quoteBackticks (identifier : Text) : Text :=
  let identifier := trimSpace identifier
  if identifier = [] then "``"
  else if containsAny identifier "()*,+-/\\" then identifier
  else if identifier.contains ' ' then
    match fields identifier with
    | first :: second :: rest => quoteWord first ++ " " ++ List.intercalate " " (second :: rest)
    | _ => identifier
  else quoteWord identifier

/-- Quote a table or column name. -/
def quoteIdentifier : Dialect → Text → Text
  | .mySQL, identifier | .default, identifier | .clickHouse, identifier =>
    quoteBackticks identifier
  | .postgreSQL, identifier | .sqlite, identifier => "\"" ++ identifier ++ "\""

/-- The placeholder of the argument with the given index. -/
def placeholder : Dialect → ℕ → Text
  | .postgreSQL, index => "$" ++ decimal (index + 1)
  | _, _ => "?"

def supportsFeature : Dialect → Feature → Bool
  | .postgreSQL, _ => true
  | _, .windowFunctions | _, .cte | _, .json => true
  | _, _ => false

/-- The `LIMIT` and `OFFSET` clauses, the same in all dialects. -/
def limitOffset (_ : Dialect) (limit offset : ℤ) : Text :=
  if limit ≤ 0 ∧ offset ≤ 0 then ""
  else if offset ≤ 0 then "LIMIT " ++ itoa limit
  else if limit ≤ 0 then "OFFSET " ++ itoa offset
  else "LIMIT " ++ itoa limit ++ " OFFSET " ++ itoa offset

end Dialect

/-! ### Names -/

/-- `[a-zA-Z0-9_]` -/
def isWordChar (c : Char) : Bool := c.isAlphanum || c == '_'

/-- `\s` -/
def isBlank (c : Char) : Bool := c ∈ ['\t', '\n', '\x0c', '\r', ' ']

/-- `tableNamePattern` and `columnNamePattern` -/
def isName : Text → Bool
  | [] => false
  | c :: t => c.isAlpha && t.all isWordChar

/-- `qualifiedIdentifierPattern` -/
def isQualified (t : Text) : Bool := (t.splitOn '.').all isName

/-- A name in backticks (code point 96). -/
def isQuotedName (t : Text) : Bool :=
  t.head?.any (fun c => c.toNat == 96) && t.getLast?.any (fun c => c.toNat == 96) &&
    isName (t.drop 1).dropLast

/-- `quotedQualifiedIdentifierPattern` -/
def isQuotedQualified (t : Text) : Bool := (t.splitOn '.').all isQuotedName

/-- A text in single quotes, without single quotes inside. -/
def isQuoted : Text → Bool
  | '\'' :: t =>
    match t.reverse with
    | '\'' :: body => !body.isEmpty && !body.contains '\''
    | _ => false
  | _ => false

/-- The rest of a JSON path after its column. -/
def isArrow (t : Text) : Bool :=
  match t.dropWhile isBlank with
  | '-' :: '>' :: '>' :: t => isQuoted (t.dropWhile isBlank)
  | '-' :: '>' :: t => isQuoted (t.dropWhile isBlank)
  | _ => false

/-- `jsonPathIdentifierPattern` -/
def isJsonPath (t : Text) : Bool :=
  let column := t.takeWhile fun c => isWordChar c || c == '.'
  isQualified column && decide (column.count '.' ≤ 1) && isArrow (t.drop column.length)

def errInvalidTableName : Text := "invalid table name"

def errInvalidColumnName : Text := "invalid column name"

def errEmptyData : Text := "data cannot be empty"

/-- Check a table name. -/
def validateTableName (table : Text) : Except Text Unit :=
  if table = [] then .error errInvalidTableName
  else if isName table then .ok ()
  else .error (errInvalidTableName ++ ": '" ++ table ++
    "' (must start with letter and contain only letters, numbers, underscores)")

/-- Check a column name: a name, a qualified name or a JSON path. -/
def validateColumnName (column : Text) : Except Text Unit :=
  if column = [] then .error errInvalidColumnName
  else
    let column := trimSpace column
    if isName column || isQualified column || isJsonPath column then .ok ()
    else .error (errInvalidColumnName ++ ": '" ++ column ++ "'")

/-- Check a dotted identifier. -/
def validateQualifiedIdentifier (identifier : Text) : Except Text Unit :=
  if identifier = [] then .error errInvalidColumnName
  else if isQualified identifier then .ok ()
  else .error (errInvalidColumnName ++ ": '" ++ identifier ++
    "' (must be one or more dot-separated identifiers)")

/-! ### Joins and orders -/

def allowedJoinTypes : List Text := ["INNER", "LEFT", "RIGHT", "FULL OUTER", "CROSS"]

/-- Normalise a join type and check that it is allowed. -/
def normalizeJoinType (joinType : Text) : Except Text Text :=
  let jt := (trimSpace joinType).map toUpper
  let jt := List.intercalate " " (fields jt)
  if jt ∈ allowedJoinTypes then .ok jt else .error ("invalid join type: " ++ joinType)

/-- Check that a join table is an identifier with an optional alias. -/
def validateJoinTableReference (table : Text) : Except Text Unit :=
  let table := trimSpace table
  let invalid : Except Text Unit := .error (errInvalidTableName ++ ": '" ++ table ++ "'")
  if table = [] then .error errInvalidTableName
  else
    match fields table with
    | base :: rest =>
      if !isQualified base && !isQuotedQualified base then invalid
      else
        match rest with
        | [] => .ok ()
        | [alias_] => if (validateColumnName alias_).isOk then .ok () else invalid
        | [as_, alias_] =>
          if as_.map toUpper ≠ "AS".toList then invalid
          else if (validateColumnName alias_).isOk then .ok () else invalid
        | _ => invalid
    | [] => invalid

/-- `[a-zA-Z]` without regard to case, which includes the long s and the Kelvin sign. -/
def isAlphaFold (c : Char) : Bool := c.isAlpha || c.toNat == 0x17F || c.toNat == 0x212A

/-- `[a-zA-Z0-9_]` without regard to case. -/
def isWordCharFold (c : Char) : Bool := isAlphaFold c || isWordChar c

/-- The two groups of `orderByItemPattern`, if it matches. -/
def matchOrderByItem (item : Text) : Option (Text × Text) :=
  let t := item.dropWhile isBlank
  let name := t.takeWhile isWordCharFold
  let rest := t.dropWhile isWordCharFold
  if name.head?.any isAlphaFold then
    let (identifier, rest) : Text × Text :=
      match rest with
      | '.' :: c :: r =>
        if isAlphaFold c then
          (name ++ '.' :: (c :: r).takeWhile isWordCharFold, (c :: r).dropWhile isWordCharFold)
        else (name, rest)
      | _ => (name, rest)
    let direction := ((rest.dropWhile isBlank).reverse.dropWhile isBlank).reverse
    if direction = [] ∨ direction.map toUpper ∈ (["ASC", "DESC"] : List Text) then
      some (identifier, direction)
    else none
  else none

/-- Check and normalise an item of an `ORDER BY` clause. -/
def buildSafeOrderByItem (_ : Dialect) (item : Text) : Except Text Text :=
  match matchOrderByItem item with
  | none => .error ("invalid order by item: " ++ item)
  | some (identifier, dir) => do
    validateQualifiedIdentifier identifier
    let direction := (trimSpace dir).map toUpper
    if direction ≠ [] ∧ direction ≠ "ASC".toList ∧ direction ≠ "DESC".toList then
      .error ("invalid order direction: " ++ direction)
    else if direction = [] then .ok identifier
    else .ok (identifier ++ " " ++ direction)

end Orm

end GinRpc
