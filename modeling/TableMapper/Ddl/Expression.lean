import TableMapper.Ddl.ColumnType

/-!
# Expressions

An expression is kept as its normal spelling: keywords in upper case, one
blank around a binary operator, a comma and a blank between arguments. Only
a bare column name is told apart, since a key may name its columns so.

Operators bind by precedence: reading at a level takes the operators that
bind tighter than it. The readers below are written over the two recursive
ones, for an expression inside an expression and for a query inside an
expression, which `Ddl/Query` ties together.
-/

namespace TableMapper.Ddl

/-- **An expression.** -/
inductive Expr
  | column (name : Name)
  | other (text : String)
deriving Repr, DecidableEq

/-- How an expression is spelled. -/
def Expr.spelling : Expr → String
  | .column name => name.spelling
  | .other text => text

/-- How tightly operators bind. -/
inductive Level
  | loosest | or | and | not | arrow | is | like | comparison | pipe | caret | ampersand | xor
  | sum | product
deriving Repr, DecidableEq

namespace Level

/-- The levels by number; a greater one binds tighter. -/
def rank : Level → Nat
  | .loosest => 0
  | .or => 1
  | .and => 2
  | .not => 3
  | .arrow => 4
  | .is => 5
  | .like => 6
  | .comparison => 7
  | .pipe => 8
  | .caret => 9
  | .ampersand => 10
  | .xor => 11
  | .sum => 12
  | .product => 13

end Level

/-- The binary operators that are symbols, with their level and spelling. -/
def symbolOperators : List (String × Level × String) :=
  [("=", .comparison, "="), ("==", .comparison, "=="), ("<>", .comparison, "<>"),
   ("<", .comparison, "<"), ("<=", .comparison, "<="), (">", .comparison, ">"),
   (">=", .comparison, ">="), ("<=>", .comparison, "<=>"), (":=", .comparison, ":="),
   ("|", .pipe, "|"),
   ("^", .caret, "^"), ("<<", .caret, "<<"), (">>", .caret, ">>"),
   ("&", .ampersand, "&"), ("+", .sum, "+"), ("-", .sum, "-"),
   ("*", .product, "*"), ("/", .product, "/"), ("%", .product, "%"), ("||", .product, "||"),
   ("->", .arrow, "->"), ("->>", .arrow, "->>"), ("&&", .arrow, "AND")]

/-- The binary operators that are words, with their level. -/
def wordOperators : List (String × Level) :=
  [("OR", .or), ("AND", .and), ("XOR", .xor), ("DIV", .product)]

/-- The readers of what stands inside an expression. Inside a column
definition, outside of parentheses, `COLLATE` and `NOT NULL` belong to the
definition and not to the expression. -/
structure Inner where
  expr : Bool → Level → Reading Expr
  /-- A query, spelled. -/
  query : Reading String

namespace Reading

variable (inner : Inner) (inDefinition : Bool)

/-- A whole expression inside another one. -/
def nested : Reading Expr :=
  inner.expr inDefinition .loosest

/-- `nested`, spelled. -/
def nestedText : Reading String := do
  return (← nested inner inDefinition).spelling

/-- Expressions with commas between them, spelled. -/
def nestedList : Reading String := do
  return ", ".intercalate (← commaSeparated (nestedText inner inDefinition))

/-- The next token begins a query. -/
def seesQuery : Reading Bool := do
  return (← seesKeywords ["SELECT"]) || (← seesKeywords ["WITH"])

/-- An argument of a function: `*`, an expression, or either behind the name
of a parameter. -/
def argument : Reading String := do
  let parameter ← attempt (do
    let parameter ← name
    symbol "=>"
    return parameter.spelling ++ " => ")
  let argument ← (do if ← symbol? "*" then return "*" else nestedText inner inDefinition)
  return parameter.getD "" ++ argument

/-- The arguments of a function behind its opening parenthesis, with the
closing one. -/
def callArguments : Reading String := do
  if ← symbol? ")" then return ")"
  if ← seesQuery then
    let query ← inner.query
    symbol ")"
    return query ++ ")"
  let distinct ← oneOf? ["DISTINCT", "ALL"]
  let first := match distinct with
    | some word => word ++ " "
    | none => ""
  let arguments := ", ".intercalate (← commaSeparated (argument inner inDefinition))
  let order ← (do
    if ← keywords? ["ORDER", "BY"] then
      let keys ← commaSeparated do
        let key ← nestedText inner inDefinition
        match ← oneOf? ["ASC", "DESC"] with
        | some direction => return key ++ " " ++ direction
        | none => return key
      return " ORDER BY " ++ ", ".intercalate keys
    else return "")
  let separator ← (do
    if ← keyword? "SEPARATOR" then return " SEPARATOR " ++ (← value) else return "")
  symbol ")"
  return first ++ arguments ++ order ++ separator ++ ")"

/-- A function call whose name has been read; its opening parenthesis is
next. -/
def call (function : List Name) : Reading Expr := do
  symbol "("
  return .other (Name.path function ++ "(" ++ (← callArguments inner inDefinition))

/-- A time function, with or without arguments. -/
def timeFunction (written : String) : Reading Expr := do
  if ← symbol? "(" then
    return .other (written ++ "(" ++ (← callArguments inner inDefinition))
  else return .other written

/-- A case distinction behind its first keyword. -/
def caseExpression : Reading Expr := do
  let operand ← (do
    if ← seesKeywords ["WHEN"] then return "" else
      return " " ++ (← nestedText inner inDefinition))
  let branch? := do
    if ← keyword? "WHEN" then
      let condition ← nestedText inner inDefinition
      keywords ["THEN"]
      return some (" WHEN " ++ condition ++ " THEN " ++ (← nestedText inner inDefinition))
    else return none
  let branches ← many branch?
  if branches.isEmpty then refuse
  let otherwise ← (do
    if ← keyword? "ELSE" then return " ELSE " ++ (← nestedText inner inDefinition) else return "")
  keywords ["END"]
  return .other ("CASE" ++ operand ++ String.join branches ++ otherwise ++ " END")

/-- A conversion behind `CAST`. -/
def castExpression : Reading Expr := do
  symbol "("
  let e ← nestedText inner inDefinition
  keywords ["AS"]
  let type ← columnType
  symbol ")"
  return .other ("CAST(" ++ e ++ " AS " ++ type.spelling ++ ")")

/-- A conversion behind `CONVERT`: to a type, or to a character set. -/
def convertExpression : Reading Expr := do
  symbol "("
  let e ← nestedText inner inDefinition
  if ← keyword? "USING" then
    let charset ← path
    symbol ")"
    return .other ("CONVERT(" ++ e ++ " USING " ++ Name.path charset ++ ")")
  else
    symbol ","
    let type ← columnType
    let charset ← (do
      if ← keywords? ["CHARACTER", "SET"] then
        return " CHARACTER SET " ++ Name.path (← path)
      else return "")
    symbol ")"
    return .other ("CONVERT(" ++ e ++ ", " ++ type.spelling ++ charset ++ ")")

/-- The units of a date and time distance. -/
def units : List String :=
  ["YEAR", "YEARS", "QUARTER", "QUARTERS", "MONTH", "MONTHS", "WEEK", "WEEKS", "DAY", "DAYS",
   "HOUR", "HOURS", "MINUTE", "MINUTES", "SECOND", "SECONDS", "MICROSECOND", "MICROSECONDS",
   "MILLISECOND", "MILLISECONDS"]

/-- A date and time distance behind `INTERVAL`. -/
def intervalExpression : Reading Expr := do
  let e ← nestedText inner inDefinition
  match ← oneOf? units with
  | some unit => return .other ("INTERVAL " ++ e ++ " " ++ unit)
  | none => refuse

/-- A part of a date behind `EXTRACT`. -/
def extractExpression : Reading Expr := do
  symbol "("
  match ← oneOf? units with
  | some unit =>
    keywords ["FROM"]
    let e ← nestedText inner inDefinition
    symbol ")"
    return .other ("EXTRACT(" ++ unit ++ " FROM " ++ e ++ ")")
  | none => refuse

/-- A part of a text behind `SUBSTRING`, or its short name. -/
def substringExpression (function : String) : Reading Expr := do
  symbol "("
  let e ← nestedText inner inDefinition
  let commas ← symbol? ","
  let start ← (do
    if commas then return some (← nestedText inner inDefinition)
    else if ← keyword? "FROM" then return some (← nestedText inner inDefinition) else return none)
  let length ← (do
    if ← (if commas then symbol? "," else keyword? "FOR") then
      return some (← nestedText inner inDefinition)
    else return none)
  symbol ")"
  let part (comma word : String) : Option String → String
    | some text => (if commas then comma else word) ++ text
    | none => ""
  return .other (function ++ "(" ++ e ++ part ", " " FROM " start ++ part ", " " FOR " length ++ ")")

/-- A trimmed text behind `TRIM`. -/
def trimExpression : Reading Expr := do
  symbol "("
  let side ← oneOf? ["BOTH", "LEADING", "TRAILING"]
  let first := match side with
    | some word => word ++ " "
    | none => ""
  let e ← nestedText inner inDefinition
  if ← keyword? "FROM" then
    let source ← nestedText inner inDefinition
    symbol ")"
    return .other ("TRIM(" ++ first ++ e ++ " FROM " ++ source ++ ")")
  else
    symbol ")"
    return .other ("TRIM(" ++ first ++ e ++ ")")

/-- A place in a text behind `POSITION`. -/
def positionExpression : Reading Expr := do
  symbol "("
  let e ← (do return (← inner.expr inDefinition .comparison).spelling)
  keywords ["IN"]
  let source ← nestedText inner inDefinition
  symbol ")"
  return .other ("POSITION(" ++ e ++ " IN " ++ source ++ ")")

/-- A rounding behind its function name. -/
def roundingExpression (function : String) : Reading Expr := do
  symbol "("
  let e ← nestedText inner inDefinition
  symbol ")"
  return .other (function ++ "(" ++ e ++ ")")

/-- A test for rows behind `EXISTS`. -/
def existsExpression : Reading Expr := do
  return .other ("EXISTS (" ++ (← parenthesized inner.query) ++ ")")

/-- The expression a word of special meaning begins, or nothing when the
word has none. -/
def wordExpression? (word : String) : Reading (Option Expr) := do
  match Text.asciiUpper word with
  | "TRUE" => return some (.other "true")
  | "FALSE" => return some (.other "false")
  | "NULL" => return some (.other "NULL")
  | "CURRENT_TIMESTAMP" | "CURRENT_TIME" | "CURRENT_DATE" | "LOCALTIME" | "LOCALTIMESTAMP" =>
    return some (← timeFunction inner inDefinition word)
  | "CASE" => return some (← caseExpression inner inDefinition)
  | "CAST" => return some (← castExpression inner inDefinition)
  | "CONVERT" => return some (← convertExpression inner inDefinition)
  | "EXISTS" => return some (← existsExpression inner)
  | "EXTRACT" => return some (← extractExpression inner inDefinition)
  | "CEIL" => return some (← roundingExpression inner inDefinition "CEIL")
  | "FLOOR" => return some (← roundingExpression inner inDefinition "FLOOR")
  | "POSITION" =>
    if (← peek) == some (.symbol "(") then
      return some (← positionExpression inner inDefinition)
    else return none
  | "SUBSTR" => return some (← substringExpression inner inDefinition "SUBSTR")
  | "SUBSTRING" => return some (← substringExpression inner inDefinition "SUBSTRING")
  | "TRIM" => return some (← trimExpression inner inDefinition)
  | "INTERVAL" => return some (← intervalExpression inner inDefinition)
  | "NOT" =>
    return some (.other ("NOT " ++ (← inner.expr inDefinition .not).spelling))
  | _ => return none

/-- The expression a word without special meaning begins: a function call,
a text behind the name of its character set, or a column. -/
def plainWord (name : Name) : Reading Expr := do
  match ← peek with
  | some (.symbol "(") => call inner inDefinition [name]
  | some (.text _) | some (.doubleText _) | some (.hex _) =>
    if name.text.toList.head? == some '_' then
      return .other (name.spelling ++ " " ++ (← value))
    else return .column name
  | _ => return .column name

/-- The words that name no column, even when their special reading fails. -/
def reservedWords : List String :=
  ["EXISTS", "INTERVAL", "STRUCT", "TRIM"]

/-- The expression a word begins. A word whose special reading fails is
taken as a name, unless it is reserved. -/
def wordExpression (word : String) : Reading Expr := do
  let name : Name := ⟨word, none⟩
  match ← attempt (wordExpression? inner inDefinition word) with
  | some (some e) => return e
  | some none => plainWord inner inDefinition name
  | none =>
    if reservedWords.contains (Text.asciiUpper word) then refuse
    else plainWord inner inDefinition name

/-- A literal behind the name of its type, such as `DATE '2020-01-31'`. -/
def typedLiteral : Reading Expr := do
  match ← columnType with
  | .custom _ _ => refuse
  | .interval => intervalExpression inner inDefinition
  | type => return .other (type.spelling ++ " " ++ (← value))

/-- A parenthesis, open already: a query, one expression or several. Inside
it nothing belongs to a column definition. -/
def parenthesis : Reading Expr := do
  let content ← (do if ← seesQuery then inner.query else nestedList inner false)
  symbol ")"
  return .other ("(" ++ content ++ ")")

/-- What an expression begins with. -/
def primary : Reading Expr := do
  match ← attempt (typedLiteral inner inDefinition) with
  | some e => return e
  | none =>
    match ← take with
    | .word w => wordExpression inner inDefinition w
    | .quotedWord w => plainWord inner inDefinition ⟨w, some '\x60'⟩
    | .symbol "-" => return .other ("-" ++ (← inner.expr inDefinition .product).spelling)
    | .symbol "+" => return .other ("+" ++ (← inner.expr inDefinition .product).spelling)
    | .symbol "~" => return .other ("~" ++ (← inner.expr inDefinition .sum).spelling)
    | .symbol "!" => return .other ("!" ++ (← inner.expr inDefinition .not).spelling)
    | .symbol "(" => parenthesis inner
    | .symbol "," | .symbol ")" | .symbol ";" => refuse
    | token =>
      modify (token :: ·)
      return .other (← value)

/-- A collation behind an expression. -/
def collated (e : Expr) : Reading Expr := do
  if inDefinition then return e
  else if ← keyword? "COLLATE" then
    return .other (e.spelling ++ " COLLATE " ++ Name.path (← path))
  else return e

/-- The parts of a dotted name behind its first. -/
def qualified (e : Expr) : Reading Expr := do
  match e with
  | .column first =>
    let rest ← many do
      if ← symbol? "." then return some (← name) else return none
    if rest.isEmpty then return e
    else if (← peek) == some (.symbol "(") then call inner inDefinition (first :: rest)
    else return .other (Name.path (first :: rest))
  | .other _ => return e

/-- The list or query behind `IN`. -/
def membership : Reading String := do
  parenthesized (do if ← seesQuery then inner.query else nestedList inner inDefinition)

/-- What the word `NOT` may precede as an operator. -/
def negatable : List (String × Level) :=
  [("IN", .comparison), ("BETWEEN", .comparison), ("LIKE", .like), ("RLIKE", .like),
   ("REGEXP", .like)]

/-- The level of the operator that comes next; the loosest when none does. -/
def nextLevel : Reading Level := do
  match ← get with
  | .symbol s :: _ =>
    return match symbolOperators.lookup s with
      | some (level, _) => level
      | none => .loosest
  | .word w :: rest =>
    let keyword := Text.asciiUpper w
    if keyword == "IS" then return .is
    else if keyword == "NOT" then
      match rest with
      | .word v :: _ =>
        if Text.asciiUpper v == "NULL" then return if inDefinition then .loosest else .is
        else return (negatable.lookup (Text.asciiUpper v)).getD .loosest
      | _ => return .loosest
    else return ((wordOperators ++ negatable).lookup keyword).getD .loosest
  | _ => return .loosest

/-- What may follow `IS`. -/
def predicates : List (List String) :=
  [["NULL"], ["NOT", "NULL"], ["TRUE"], ["NOT", "TRUE"], ["FALSE"], ["NOT", "FALSE"],
   ["UNKNOWN"], ["NOT", "UNKNOWN"]]

/-- The first row of keywords that comes next, taken. -/
def firstOf : List (List String) → Reading (Option (List String))
  | [] => return none
  | row :: rest => do
    if ← keywords? row then return some row else firstOf rest

/-- An operator, which comes next, behind its left operand. -/
def operation (left : Expr) (level : Level) : Reading Expr := do
  let right : Level → Reading String := fun level => do
    return (← inner.expr inDefinition level).spelling
  match ← take with
  | .symbol s =>
    match symbolOperators.lookup s with
    | some (_, written) => return .other (left.spelling ++ " " ++ written ++ " " ++ (← right level))
    | none => refuse
  | .word w =>
    let keyword := Text.asciiUpper w
    if keyword == "IS" then
      match ← firstOf predicates with
      | some row => return .other (left.spelling ++ " IS " ++ " ".intercalate row)
      | none => refuse
    else if (wordOperators.lookup keyword).isSome then
      return .other (left.spelling ++ " " ++ keyword ++ " " ++ (← right level))
    else
      let negated := keyword == "NOT"
      let keyword ← (do
        if !negated then return keyword
        else if ← keyword? "NULL" then return "NULL"
        else
          match ← oneOf? (negatable.map (·.1)) with
          | some k => return k
          | none => refuse)
      let before := left.spelling ++ (if negated then " NOT " else " ") ++ keyword ++ " "
      match keyword with
      | "NULL" => return .other (left.spelling ++ " IS NOT NULL")
      | "IN" => return .other (before ++ "(" ++ (← membership inner inDefinition) ++ ")")
      | "BETWEEN" =>
        let low ← right .comparison
        keywords ["AND"]
        return .other (before ++ low ++ " AND " ++ (← right .comparison))
      | _ =>
        let pattern ← right .like
        let escape ← (do
          if ← keyword? "ESCAPE" then return " ESCAPE " ++ (← value) else return "")
        return .other (before ++ pattern ++ escape)
  | _ => refuse

/-- Operators that bind tighter than a level, at most `limit` of them. -/
def operations (level : Level) : Nat → Expr → Reading Expr
  | 0, e => return e
  | limit + 1, e => do
    let next ← nextLevel inDefinition
    if next.rank ≤ level.rank then return e
    else operations level limit (← operation inner inDefinition e next)

/-- **An expression**, over the readers of what stands inside it. -/
def expressionOver (level : Level) : Reading Expr := do
  let e ← primary inner inDefinition
  let e ← qualified inner inDefinition e
  let e ← collated inDefinition e
  operations inner inDefinition level (← get).length e

end Reading

end TableMapper.Ddl
