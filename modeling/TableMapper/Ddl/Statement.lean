import TableMapper.Ddl.Definition
import TableMapper.Ddl.Lexer

/-!
# Scripts

A script is a sequence of statements with semicolons between them. Table
definitions are what a mapper is generated from; the other statements are
read so that a script with a malformed one is refused.
-/

namespace TableMapper.Ddl

namespace Reading

/-- Names of objects with commas between them. -/
def paths : Reading Unit := do
  let _ ← commaSeparated path

/-- An assignment of a value to a column or variable. -/
def assignment : Reading Unit := do
  let _ ← path
  if !(← symbol? ":=") then symbol "="
  operand statementInner

/-- The rest of `DROP`. -/
def dropStatement : Reading Unit := do
  let _ ← keyword? "TEMPORARY"
  match ← oneOf? ["TABLE", "VIEW", "INDEX", "ROLE", "SCHEMA", "DATABASE", "SEQUENCE", "USER",
      "TYPE", "FUNCTION", "PROCEDURE", "TRIGGER"] with
  | some _ =>
    let _ ← keywords? ["IF", "EXISTS"]
    paths
    let _ ← oneOf? ["CASCADE", "RESTRICT"]
    let _ ← keyword? "PURGE"
    if ← keyword? "ON" then
      let _ ← path
  | none => refuse

/-- The rest of `INSERT` or `REPLACE`. -/
def insertStatement : Reading Unit := do
  let _ ← oneOf? ["LOW_PRIORITY", "DELAYED", "HIGH_PRIORITY"]
  let _ ← keyword? "IGNORE"
  let _ ← keyword? "INTO"
  let _ ← keyword? "TABLE"
  let _ ← path
  if ← keywords? ["DEFAULT", "VALUES"] then return ()
  if (← peek) == some (.symbol "(") then
    let _ ← attempt do
      symbol "("
      if ← symbol? ")" then return () else
        let _ ← commaSeparated path
        symbol ")"
  if ← keyword? "SET" then
    let _ ← commaSeparated assignment
  else
    if ← keyword? "VALUE" then valueRows statementInner else
      let _ ← query
  if ← keyword? "AS" then
    let _ ← name
  if ← keywords? ["ON", "DUPLICATE", "KEY", "UPDATE"] then
    let _ ← commaSeparated assignment

/-- The rest of `SET`. -/
def setStatement : Reading Unit := do
  if ← keyword? "NAMES" then
    if ← keyword? "DEFAULT" then return ()
    let _ ← literalText <|> (do return (← name).text)
    if ← keyword? "COLLATE" then
      let _ ← literalText <|> (do return (← name).text)
  else if ← keyword? "TRANSACTION" then
    let _ ← many do
      let next ← peek
      match next with
      | some (.word _) => return some (← take)
      | some (.symbol ",") => return some (← take)
      | _ => return none
  else
    let _ ← commaSeparated do
      let _ ← oneOf? ["SESSION", "LOCAL", "GLOBAL"]
      assignment

/-- A user name, with its host. -/
def userName : Reading Unit := do
  let _ ← name
  if ← symbol? "@" then
    let _ ← name

/-- One change of `ALTER TABLE`. -/
def alteration : Reading Unit := do
  if ← keyword? "ADD" then
    match ← constraint? with
    | some _ => return ()
    | none =>
      let _ ← keyword? "COLUMN"
      let _ ← keywords? ["IF", "NOT", "EXISTS"]
      let _ ← columnDefinition
      columnPlace
  else if ← keyword? "DROP" then
    if ← keywords? ["PRIMARY", "KEY"] then return ()
    let _ ← firstOf [["FOREIGN", "KEY"], ["CONSTRAINT"], ["INDEX"], ["KEY"], ["COLUMN"]]
    let _ ← keywords? ["IF", "EXISTS"]
    let _ ← name
    let _ ← oneOf? ["CASCADE", "RESTRICT"]
  else if ← keyword? "MODIFY" then
    let _ ← keyword? "COLUMN"
    let _ ← columnDefinition
    columnPlace
  else if ← keyword? "CHANGE" then
    let _ ← keyword? "COLUMN"
    let _ ← name
    let _ ← columnDefinition
    columnPlace
  else if ← keyword? "RENAME" then
    if ← oneOf? ["TO", "AS"] <&> Option.isSome then
      let _ ← path
    else
      let _ ← oneOf? ["COLUMN", "INDEX", "KEY"]
      let _ ← name
      keywords ["TO"]
      let _ ← name
  else if ← keyword? "ALTER" then
    let _ ← keyword? "COLUMN"
    let _ ← name
    if ← keywords? ["SET", "DEFAULT"] then operand statementInner
    else if ← keywords? ["DROP", "DEFAULT"] then return ()
    else refuse
  else if ← keyword? "ALGORITHM" then
    let _ ← symbol? "="
    let _ ← name
  else if ← keyword? "LOCK" then
    let _ ← symbol? "="
    let _ ← name
  else if ← keyword? "AUTO_INCREMENT" then
    let _ ← symbol? "="
    let _ ← natural
  else refuse
where
  /-- Where a column goes. -/
  columnPlace : Reading Unit := do
    if ← keyword? "FIRST" then return ()
    if ← keyword? "AFTER" then
      let _ ← name

/-- The rest of `ALTER`. -/
def alterStatement : Reading Unit := do
  keywords ["TABLE"]
  let _ ← keywords? ["IF", "EXISTS"]
  let _ ← keyword? "ONLY"
  let _ ← path
  let _ ← commaSeparated alteration

/-- The rest of `RENAME`. -/
def renameStatement : Reading Unit := do
  keywords ["TABLE"]
  let _ ← commaSeparated do
    let _ ← path
    keywords ["TO"]
    path

/-- The rest of `UPDATE`. -/
def updateStatement : Reading Unit := do
  joinedTables statementInner
  keywords ["SET"]
  let _ ← commaSeparated assignment
  if ← keyword? "WHERE" then operand statementInner
  if ← keyword? "LIMIT" then operand statementInner

/-- The rest of `DELETE`. -/
def deleteStatement : Reading Unit := do
  keywords ["FROM"]
  let _ ← commaSeparated (joinedTables statementInner)
  if ← keyword? "WHERE" then operand statementInner
  if ← keywords? ["ORDER", "BY"] then ordering statementInner
  if ← keyword? "LIMIT" then operand statementInner

/-- The rest of `CREATE VIEW`. -/
def viewDefinition : Reading Unit := do
  let _ ← keywords? ["IF", "NOT", "EXISTS"]
  let _ ← path
  if (← peek) == some (.symbol "(") then
    let _ ← nameList
  keywords ["AS"]
  let _ ← query

/-- The rest of `CREATE INDEX`. -/
def indexDefinition : Reading Unit := do
  let _ ← keywords? ["IF", "NOT", "EXISTS"]
  if !(← keyword? "ON") then
    let _ ← path
    indexMethod
    keywords ["ON"]
  let _ ← path
  indexMethod
  let _ ← indexColumns
  indexOptions

/-- The rest of `CREATE DATABASE`. -/
def databaseDefinition : Reading Unit := do
  let _ ← keywords? ["IF", "NOT", "EXISTS"]
  let _ ← path
  let _ ← many do
    let _ ← keyword? "DEFAULT"
    match ← firstOf [["CHARSET"], ["CHARACTER", "SET"], ["COLLATE"], ["LOCATION"]] with
    | some _ =>
      let _ ← symbol? "="
      optionValue
      return some ()
    | none => return none

/-- The rest of `CREATE`: the table if it defines one. -/
def createStatement : Reading (Option TableDefinition) := do
  let orReplace ← keywords? ["OR", "REPLACE"]
  let _ ← keyword? "LOCAL"
  let _ ← keyword? "GLOBAL"
  let _ ← keyword? "TRANSIENT"
  let _ ← oneOf? ["TEMP", "TEMPORARY"]
  if ← keyword? "ALGORITHM" then
    symbol "="
    if (← oneOf? ["UNDEFINED", "MERGE", "TEMPTABLE"]).isNone then refuse
  if ← keyword? "DEFINER" then
    symbol "="
    userName
  if ← keywords? ["SQL", "SECURITY"] then
    if (← oneOf? ["DEFINER", "INVOKER"]).isNone then refuse
  if ← keyword? "TABLE" then return some (← tableDefinition)
  else if ← keyword? "VIEW" then
    viewDefinition
    return none
  else if orReplace then refuse
  else if ← keyword? "INDEX" then
    indexDefinition
    return none
  else if ← keywords? ["UNIQUE", "INDEX"] then
    indexDefinition
    return none
  else if ← keyword? "DATABASE" then
    databaseDefinition
    return none
  else if ← keyword? "SCHEMA" then
    let _ ← keywords? ["IF", "NOT", "EXISTS"]
    let _ ← path
    return none
  else refuse

/-- The lock on a table. -/
def tableLock : Reading Unit := do
  let _ ← path
  match ← firstOf [["READ", "LOCAL"], ["READ"], ["LOW_PRIORITY", "WRITE"], ["WRITE"]] with
  | some _ => return ()
  | none =>
    let _ ← keyword? "AS"
    let _ ← name
    if (← firstOf [["READ", "LOCAL"], ["READ"], ["LOW_PRIORITY", "WRITE"], ["WRITE"]]).isNone then
      refuse

/-- The rest of a statement that is accepted without a look at it. -/
def restOfStatement : Reading Unit := do
  let _ ← many do
    match ← peek with
    | none | some (.symbol ";") => return none
    | some _ => return some (← take)

/-- **A statement**: the table it defines, if it is a table definition. -/
def statement : Reading (Option TableDefinition) := do
  if ← keywords? ["LOCK", "TABLES"] then
    let _ ← commaSeparated tableLock
    return none
  if ← keywords? ["UNLOCK", "TABLES"] then return none
  if (← peek) == some (.symbol "(") || (← seesKeywords ["SELECT"]) || (← seesKeywords ["WITH"])
      || (← seesKeywords ["VALUES"]) then
    let _ ← query
    return none
  match ← take with
  | .word w =>
    match Text.asciiUpper w with
    | "CREATE" => createStatement
    | "DROP" => dropStatement; return none
    | "INSERT" => insertStatement; return none
    | "REPLACE" => insertStatement; return none
    | "SET" => setStatement; return none
    | "ALTER" => alterStatement; return none
    | "RENAME" => renameStatement; return none
    | "UPDATE" => updateStatement; return none
    | "DELETE" => deleteStatement; return none
    | "USE" => let _ ← path; return none
    | "TRUNCATE" =>
      let _ ← keyword? "TABLE"
      paths
      return none
    | "START" =>
      keywords ["TRANSACTION"]
      restOfStatement
      return none
    | "BEGIN" | "COMMIT" | "ROLLBACK" =>
      let _ ← oneOf? ["TRANSACTION", "WORK"]
      return none
    | "DESC" | "DESCRIBE" | "EXPLAIN" | "SHOW" | "GRANT" | "REVOKE" | "CALL" | "FLUSH" | "KILL"
    | "ANALYZE" | "SAVEPOINT" | "RELEASE" =>
      let _ ← take
      restOfStatement
      return none
    | _ => refuse
  | _ => refuse

/-- The statements of a script, at most `limit` of them: one follows another
behind a semicolon, and the word `END` behind one ends the script. -/
def statements : Nat → Reading (List TableDefinition)
  | 0 => refuse
  | limit + 1 => do
    let _ ← many do
      if ← symbol? ";" then return some () else return none
    if (← get).isEmpty then return []
    let table ← statement
    let rest ← (do
      match ← peek with
      | none | some (.symbol ";") => statements limit
      | some token => if token.isKeyword "END" then return [] else refuse)
    return table.toList ++ rest

end Reading

/-- **The tables that a script defines**, or nothing when it is malformed. -/
def tableDefinitions? (script : String) : Option (List TableDefinition) := do
  let tokens ← tokens? script
  let (tables, _) ← (Reading.statements (tokens.length + 1)).run tokens
  return tables

end TableMapper.Ddl
