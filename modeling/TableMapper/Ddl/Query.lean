import TableMapper.Ddl.Expression

/-!
# Queries

A query is read so that a script with one is accepted or refused as a whole;
what is kept of it is its text. Expressions and queries contain one another,
and `Inner.upTo` ties the two readers together for a bounded depth.
-/

namespace TableMapper.Ddl

/-- How a token is spelled. -/
def Token.spelling : Token → String
  | .word w => w
  | .quotedWord w => enclosed '\x60' w
  | .number n long => if long then n ++ "L" else n
  | .text s => enclosed '\x27' s
  | .doubleText s => enclosed '"' s
  | .bytes quote s => "B" ++ String.singleton quote ++ s ++ String.singleton quote
  | .national s => "N'" ++ s ++ "'"
  | .hex s => "X'" ++ s ++ "'"
  | .placeholder s => s
  | .symbol s => s

namespace Reading

variable (inner : Inner)

/-- An expression that is not kept. -/
def operand : Reading Unit := do
  let _ ← nested inner false

/-- Expressions with commas between them that are not kept. -/
def operands : Reading Unit := do
  let _ ← commaSeparated (operand inner)

/-- The words that end an item of a query and are no short name for it. -/
def clauseWords : List String :=
  ["FROM", "WHERE", "GROUP", "HAVING", "ORDER", "LIMIT", "OFFSET", "UNION", "EXCEPT",
   "INTERSECT", "WITH", "SELECT", "ON", "USING", "JOIN", "INNER", "CROSS", "LEFT", "RIGHT",
   "FULL", "NATURAL", "STRAIGHT_JOIN", "FOR", "INTO", "END", "AS", "SET", "VALUES", "PARTITION",
   "USE", "IGNORE", "FORCE", "FETCH", "LATERAL", "WINDOW", "QUALIFY", "CLUSTER", "DISTRIBUTE",
   "SORT", "OUTER", "ANTI", "SEMI", "ASOF", "MATCH_CONDITION", "SAMPLE", "TABLESAMPLE", "RETURNING"]

/-- A short name behind an item, with or without `AS`. -/
def alias? : Reading Unit := do
  if ← keyword? "AS" then
    let _ ← name
  else
    match ← peek with
    | some (.word w) =>
      if clauseWords.contains (Text.asciiUpper w) then return () else
        let _ ← take
    | some (.quotedWord _) | some (.text _) | some (.doubleText _) =>
      let _ ← take
    | _ => return ()

/-- One item of a selection. -/
def selectItem : Reading Unit := do
  if ← symbol? "*" then return ()
  if ← seesKeywords ["FROM"] then refuse
  let star ← attempt do
    let _ ← name
    let _ ← many (attempt do
      symbol "."
      name)
    symbol "."
    symbol "*"
  if star.isSome then return ()
  operand inner
  alias?

/-- A table or a query in parentheses, with a short name. -/
def tableFactor : Reading Unit := do
  if (← peek) == some (.symbol "(") then
    let _ ← parenthesized (do if ← seesQuery then inner.query else return Name.path (← path))
    alias?
  else
    let _ ← path
    if ← symbol? "(" then
      let _ ← callArguments inner false
    alias?

/-- The words before `JOIN`. -/
def joinKinds : List (List String) :=
  [["JOIN"], ["INNER", "JOIN"], ["CROSS", "JOIN"], ["LEFT", "JOIN"], ["LEFT", "OUTER", "JOIN"],
   ["RIGHT", "JOIN"], ["RIGHT", "OUTER", "JOIN"], ["FULL", "JOIN"], ["FULL", "OUTER", "JOIN"],
   ["NATURAL", "JOIN"], ["STRAIGHT_JOIN"]]

/-- Names with commas between them, in parentheses. -/
def nameList : Reading (List Name) :=
  parenthesized (commaSeparated name)

/-- A table with the tables joined to it. -/
def joinedTables : Reading Unit := do
  tableFactor inner
  let _ ← many do
    match ← firstOf joinKinds with
    | some _ =>
      tableFactor inner
      if ← keyword? "ON" then operand inner
      else if ← keyword? "USING" then
        let _ ← nameList
      return some ()
    | none => return none

/-- An order of rows. -/
def ordering : Reading Unit := do
  let _ ← commaSeparated do
    operand inner
    let _ ← oneOf? ["ASC", "DESC"]

/-- Rows of values. -/
def valueRows : Reading Unit := do
  let _ ← commaSeparated do
    let _ ← keyword? "ROW"
    symbol "("
    if ← symbol? ")" then return () else
      operands inner
      symbol ")"

/-- A selection, rows of values, or a query in parentheses. -/
def queryTerm : Reading Unit := do
  if ← symbol? "(" then
    let _ ← inner.query
    symbol ")"
  else if ← keyword? "VALUES" then valueRows inner
  else
    keywords ["SELECT"]
    let _ ← oneOf? ["DISTINCT", "ALL"]
    let _ ← commaSeparated (selectItem inner)
    if ← keyword? "FROM" then
      let _ ← commaSeparated (joinedTables inner)
    if ← keyword? "WHERE" then operand inner
    if ← keywords? ["GROUP", "BY"] then
      operands inner
      let _ ← keywords? ["WITH", "ROLLUP"]
    if ← keyword? "HAVING" then operand inner

/-- A table expression before a query. -/
def commonTable : Reading Unit := do
  let _ ← name
  if (← peek) == some (.symbol "(") then
    let _ ← nameList
  keywords ["AS"]
  let _ ← parenthesized inner.query

/-- The parts of a query. -/
def queryParts : Reading Unit := do
  if ← keyword? "WITH" then
    let _ ← keyword? "RECURSIVE"
    let _ ← commaSeparated (commonTable inner)
  queryTerm inner
  let _ ← many do
    match ← oneOf? ["UNION", "EXCEPT", "INTERSECT"] with
    | some _ =>
      let _ ← oneOf? ["ALL", "DISTINCT"]
      queryTerm inner
      return some ()
    | none => return none
  if ← keywords? ["ORDER", "BY"] then ordering inner
  if ← keyword? "LIMIT" then
    operand inner
    if ← symbol? "," then operand inner
    else if ← keyword? "OFFSET" then operand inner
  if ← keyword? "FOR" then
    match ← oneOf? ["UPDATE", "SHARE"] with
    | some _ => return ()
    | none => refuse

/-- **A query**, with the tokens it consists of as its text. -/
def queryOver : Reading String := do
  let before ← get
  queryParts inner
  let consumed := before.take (before.length - (← get).length)
  return " ".intercalate (consumed.map Token.spelling)

end Reading

/-- **The readers of expressions and queries up to a depth.** -/
def Inner.upTo : Nat → Inner
  | 0 => ⟨fun _ _ => Reading.refuse, Reading.refuse⟩
  | depth + 1 =>
    ⟨fun inDefinition level => Reading.expressionOver (Inner.upTo depth) inDefinition level,
      Reading.queryOver (Inner.upTo depth)⟩

/-- How deep expressions may nest inside a statement. -/
def deepest : Nat := 49

/-- The readers that statements use. -/
def statementInner : Inner :=
  Inner.upTo deepest

namespace Reading

/-- An expression of a statement. -/
def expression : Reading Expr :=
  nested statementInner false

/-- An expression of a column definition. In parentheses it ends with them. -/
def definitionExpression : Reading Expr := do
  if (← peek) == some (.symbol "(") then collated false (← primary statementInner false)
  else nested statementInner true

/-- A query of a statement. -/
def query : Reading String :=
  statementInner.query

end Reading

end TableMapper.Ddl
