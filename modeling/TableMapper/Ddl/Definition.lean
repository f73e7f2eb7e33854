import TableMapper.Ddl.Query

/-!
# Table definitions

A table is defined by its columns, each with a type and options, by
constraints over several columns, and by options of the table. What a
mapper does not depend on is read and dropped.
-/

namespace TableMapper.Ddl

/-- An option of a column. -/
inductive ColumnOption
  | notNull
  | null
  | default (value : Expr)
  | primaryKey
  | comment (text : String)
  /-- The database computes the value. -/
  | generated
  | autoIncrement
  /-- An option without effect on the metadata. -/
  | other
deriving Repr, DecidableEq

/-- The definition of a column. -/
structure ColumnDefinition where
  name : Name
  type : ColumnType
  options : List ColumnOption
deriving Repr, DecidableEq

/-- A constraint of a table. -/
inductive TableConstraint
  | primaryKey (columns : List Expr)
  /-- A constraint without effect on the metadata. -/
  | other
deriving Repr, DecidableEq

/-- **The definition of a table.** -/
structure TableDefinition where
  path : List Name
  columns : List ColumnDefinition
  constraints : List TableConstraint
  /-- The comments among the options of the table, in order. -/
  comments : List String
deriving Repr, DecidableEq

namespace Reading

/-! ## Constraints -/

/-- When a constraint is checked. -/
def characteristics : Reading Unit := do
  let _ ← many (firstOf
    [["NOT", "DEFERRABLE"], ["DEFERRABLE"], ["INITIALLY", "DEFERRED"], ["INITIALLY", "IMMEDIATE"],
     ["ENFORCED"], ["NOT", "ENFORCED"]])

/-- Whether a check is enforced. -/
def enforcement : Reading Unit := do
  let _ ← firstOf [["ENFORCED"], ["NOT", "ENFORCED"]]

/-- The effect of a change on the rows that refer to the changed one. -/
def referentialAction : Reading Unit := do
  match ← firstOf [["RESTRICT"], ["CASCADE"], ["SET", "NULL"], ["NO", "ACTION"],
      ["SET", "DEFAULT"]] with
  | some _ => return ()
  | none => refuse

/-- The table a foreign key refers to. -/
def foreignTable : Reading Unit := do
  let _ ← path
  if (← peek) == some (.symbol "(") then
    let _ ← nameList
  let _ ← many do
    if ← keyword? "MATCH" then
      match ← oneOf? ["FULL", "PARTIAL", "SIMPLE"] with
      | some _ => return some ()
      | none => refuse
    else
      match ← firstOf [["ON", "DELETE"], ["ON", "UPDATE"]] with
      | some _ =>
        referentialAction
        return some ()
      | none => return none
  characteristics

/-- A column of an index: an expression, with an operator class and a
direction. -/
def indexColumn : Reading Expr := do
  let e ← expression
  match ← peek with
  | some (.word w) =>
    if !(["ASC", "DESC", "NULLS", "WITH"].contains (Text.asciiUpper w)) then
      let _ ← attempt path
  | _ =>
    let _ ← attempt path
  let _ ← oneOf? ["ASC", "DESC"]
  let _ ← firstOf [["NULLS", "FIRST"], ["NULLS", "LAST"]]
  return e

/-- The columns of an index. -/
def indexColumns : Reading (List Expr) :=
  parenthesized (commaSeparated indexColumn)

/-- The kind of an index. -/
def indexMethod : Reading Unit := do
  if ← keyword? "USING" then
    let _ ← name

/-- Options behind an index. -/
def indexOptions : Reading Unit := do
  let _ ← many do
    if ← keyword? "USING" then
      let _ ← name
      return some ()
    else if ← keyword? "COMMENT" then
      let _ ← literalText
      return some ()
    else return none

/-- The name, kind and columns of an index. -/
def index : Reading (List Expr) := do
  let _ ← attempt name
  indexMethod
  let columns ← indexColumns
  indexOptions
  return columns

/-- A constraint of a table behind its optional name. A plain index has no
constraint name. -/
def namedConstraint? (isNamed : Bool) : Reading (Option TableConstraint) := do
  if ← keyword? "UNIQUE" then
    let _ ← oneOf? ["KEY", "INDEX"]
    if ← keyword? "NULLS" then
      let _ ← keyword? "NOT"
      keywords ["DISTINCT"]
    let _ ← index
    characteristics
    return some .other
  else if ← keyword? "PRIMARY" then
    keywords ["KEY"]
    let columns ← index
    characteristics
    return some (.primaryKey columns)
  else if ← keyword? "FOREIGN" then
    keywords ["KEY"]
    let _ ← attempt name
    let _ ← nameList
    keywords ["REFERENCES"]
    foreignTable
    return some .other
  else if ← keyword? "CHECK" then
    let _ ← parenthesized expression
    enforcement
    return some .other
  else if isNamed then refuse
  else
    match ← oneOf? ["INDEX", "KEY", "FULLTEXT", "SPATIAL"] with
    | some keyword =>
      if keyword == "INDEX" || keyword == "KEY" then
        if ← seesKeywords ["USING"] then
          indexMethod
          let _ ← indexColumns
          indexOptions
        else
          let _ ← index
      else
        let _ ← oneOf? ["KEY", "INDEX"]
        let _ ← attempt name
        let _ ← indexColumns
      return some .other
    | none => return none

/-- A constraint of a table, or nothing when a column comes next. -/
def constraint? : Reading (Option TableConstraint) := do
  if ← keyword? "CONSTRAINT" then
    let _ ← name
    namedConstraint? true
  else namedConstraint? false

/-! ## Columns -/

/-- How a computed value is kept. -/
def computedMode : Reading Unit := do
  let _ ← oneOf? ["STORED", "VIRTUAL"]

/-- The rest of a computed column behind `GENERATED`, or nothing. -/
def computed? : Reading (Option ColumnOption) := do
  if ← keywords? ["ALWAYS", "AS"] then
    if ← symbol? "(" then
      let _ ← expression
      symbol ")"
      computedMode
      return some .generated
    else if ← keyword? "IDENTITY" then return some .generated
    else return none
  else if ← keywords? ["BY", "DEFAULT", "AS", "IDENTITY"] then return some .generated
  else return none

/-- **An option of a column**, or nothing. A lone direction and the other
spellings of an identity column are skipped without effect. -/
def columnOption? : Reading (Option ColumnOption) := do
  if ← keywords? ["CHARACTER", "SET"] then
    let _ ← path
    return some .other
  else if ← keyword? "COLLATE" then
    let _ ← path
    return some .other
  else if ← keywords? ["NOT", "NULL"] then return some .notNull
  else if ← keyword? "COMMENT" then return some (.comment (← quotedText))
  else if ← keyword? "NULL" then return some .null
  else if ← keyword? "DEFAULT" then return some (.default (← definitionExpression))
  else if ← keywords? ["PRIMARY", "KEY"] then
    characteristics
    return some .primaryKey
  else if ← keyword? "UNIQUE" then
    characteristics
    return some .other
  else if ← keyword? "REFERENCES" then
    foreignTable
    return some .other
  else if ← keyword? "CHECK" then
    let _ ← parenthesized expression
    enforcement
    return some .other
  else if ← keyword? "AUTO_INCREMENT" then return some .autoIncrement
  else
    let _ ← keyword? "AUTOINCREMENT"
    let _ ← keyword? "ASC"
    let _ ← keyword? "DESC"
    if ← keywords? ["ON", "UPDATE"] then
      let _ ← definitionExpression
      return some .other
    else if ← keyword? "GENERATED" then computed?
    else if ← keyword? "AS" then
      let _ ← parenthesized (nested statementInner true)
      computedMode
      return some .generated
    else if ← keyword? "SRID" then
      let _ ← definitionExpression
      return some .other
    else
      let _ ← keyword? "IDENTITY"
      if ← keyword? "INVISIBLE" then return some .other else return none

/-- A column. An option may carry a constraint name, which then has to be
followed by one. -/
def columnDefinition : Reading ColumnDefinition := do
  let name ← name
  let type ← columnType
  let options ← many do
    if ← keyword? "CONSTRAINT" then
      let _ ← Reading.name
      match ← columnOption? with
      | some option => return some option
      | none => refuse
    else columnOption?
  return ⟨name, type, options⟩

/-- A column or a constraint. -/
def tableItem : Reading (ColumnDefinition ⊕ TableConstraint) := do
  match ← constraint? with
  | some constraint => return .inr constraint
  | none =>
    match ← peek with
    | some (.word _) | some (.quotedWord _) => return .inl (← columnDefinition)
    | _ => refuse

/-- The columns and constraints of a table, which may be absent. -/
def tableItems : Reading (List (ColumnDefinition ⊕ TableConstraint)) := do
  if ← symbol? "(" then
    if ← symbol? ")" then return [] else
      let items ← commaSeparated tableItem
      symbol ")"
      return items
  else return []

/-! ## Options of a table -/

/-- The options that have a value. -/
def valuedOptions : List (List String) :=
  [["DEFAULT", "CHARSET"], ["CHARSET"], ["DEFAULT", "CHARACTER", "SET"], ["CHARACTER", "SET"],
   ["DEFAULT", "COLLATE"], ["COLLATE"], ["DATA", "DIRECTORY"], ["INDEX", "DIRECTORY"],
   ["KEY_BLOCK_SIZE"], ["ROW_FORMAT"], ["PACK_KEYS"], ["STATS_AUTO_RECALC"],
   ["STATS_PERSISTENT"], ["STATS_SAMPLE_PAGES"], ["DELAY_KEY_WRITE"], ["COMPRESSION"],
   ["ENCRYPTION"], ["MAX_ROWS"], ["MIN_ROWS"], ["AUTOEXTEND_SIZE"], ["AVG_ROW_LENGTH"],
   ["CHECKSUM"], ["CONNECTION"], ["ENGINE_ATTRIBUTE"], ["PASSWORD"],
   ["SECONDARY_ENGINE_ATTRIBUTE"], ["INSERT_METHOD"], ["AUTO_INCREMENT"]]

/-- The value of an option. -/
def optionValue : Reading Unit := do
  match ← attempt value with
  | some _ => return ()
  | none =>
    let _ ← name

/-- **An option of a table**: its comment if it is one. -/
def tableOption? : Reading (Option (Option String)) := do
  if ← keywords? ["START", "TRANSACTION"] then return some none
  else if ← keyword? "COMMENT" then
    let _ ← symbol? "="
    return some (some (← quotedText))
  else if ← keyword? "ENGINE" then
    let _ ← symbol? "="
    match ← take with
    | .word _ | .quotedWord _ =>
      if (← peek) == some (.symbol "(") then
        let _ ← nameList
      return some none
    | _ => refuse
  else if ← keyword? "TABLESPACE" then
    let _ ← symbol? "="
    let _ ← name
    if ← keyword? "STORAGE" then
      let _ ← symbol? "="
      if (← oneOf? ["DISK", "MEMORY"]).isNone then refuse
    return some none
  else if ← keyword? "UNION" then
    let _ ← symbol? "="
    symbol "("
    if ← symbol? ")" then return some none else
      let _ ← commaSeparated name
      symbol ")"
      return some none
  else
    match ← firstOf valuedOptions with
    | some _ =>
      let _ ← symbol? "="
      optionValue
      return some none
    | none => return none

/-- The options of a table, with or without commas between them. -/
def tableOptions : Reading (List (Option String)) :=
  many do
    match ← tableOption? with
    | some option =>
      let _ ← symbol? ","
      return some option
    | none => return none

/-- **A table definition** behind `CREATE TABLE`. -/
def tableDefinition : Reading TableDefinition := do
  let _ ← keywords? ["IF", "NOT", "EXISTS"]
  let path ← path
  if (← oneOf? ["LIKE", "ILIKE"]).isSome then
    let _ ← Reading.path
  let items ← tableItems
  let options ← tableOptions
  if ← keyword? "AS" then
    let _ ← query
  else if ← seesKeywords ["SELECT"] then
    let _ ← query
  return {
    path
    columns := items.filterMap fun
      | .inl column => some column
      | .inr _ => none
    constraints := items.filterMap fun
      | .inl _ => none
      | .inr constraint => some constraint
    comments := options.filterMap id }

end Reading

end TableMapper.Ddl
