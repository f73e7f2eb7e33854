import TableMapper.Ddl.Token

/-!
# Reading tokens

A reading takes tokens off the front of a list and gives a value, or fails.
Optional parts are tried at the front and leave the list as it was when they
are absent. Repetitions are bounded by the number of tokens that are left.
-/

namespace TableMapper.Ddl

/-- **A reading of tokens.** -/
abbrev Reading (α : Type) : Type :=
  StateT (List Token) Option α

namespace Reading

/-- No reading. -/
def refuse {α : Type} : Reading α :=
  fun _ => none

/-- The next token. -/
def peek : Reading (Option Token) := do
  return (← get).head?

/-- The next token, taken. -/
def take : Reading Token := do
  match ← get with
  | [] => refuse
  | t :: rest => set rest; return t

/-- A reading that leaves the tokens alone when it fails. -/
def attempt {α : Type} (p : Reading α) : Reading (Option α) := fun tokens =>
  match p tokens with
  | some (value, rest) => some (some value, rest)
  | none => some (none, tokens)

/-- The next words are given keywords. -/
def seesKeywords (keywords : List String) : Reading Bool := do
  let tokens ← get
  return keywords.length ≤ tokens.length
    && (tokens.zip keywords).all fun (token, keyword) => token.isKeyword keyword

/-- Takes keywords that stand in a row, or nothing. -/
def keywords? (keywords : List String) : Reading Bool := do
  if ← seesKeywords keywords then
    modify (·.drop keywords.length)
    return true
  else return false

/-- Takes a keyword, or nothing. -/
def keyword? (keyword : String) : Reading Bool :=
  keywords? [keyword]

/-- Takes the first of several keywords that is next, or nothing. -/
def oneOf? : List String → Reading (Option String)
  | [] => return none
  | keyword :: rest => do
    if ← keyword? keyword then return some keyword else oneOf? rest

/-- Keywords that have to stand here. -/
def keywords (keywords : List String) : Reading Unit := do
  if ← keywords? keywords then return () else refuse

/-- Takes a symbol, or nothing. -/
def symbol? (text : String) : Reading Bool := do
  if (← peek) == some (.symbol text) then
    modify (·.drop 1)
    return true
  else return false

/-- A symbol that has to stand here. -/
def symbol (text : String) : Reading Unit := do
  if ← symbol? text then return () else refuse

/-- Items until one is absent, at most `limit` of them. -/
def upTo {α : Type} (item? : Reading (Option α)) : Nat → Reading (List α)
  | 0 => return []
  | limit + 1 => do
    match ← item? with
    | some item => return item :: (← upTo item? limit)
    | none => return []

/-- **Items until one is absent.** -/
def many {α : Type} (item? : Reading (Option α)) : Reading (List α) := do
  upTo item? (← get).length

/-- **Items with commas between them**, at least one. -/
def commaSeparated {α : Type} (item : Reading α) : Reading (List α) := do
  let first ← item
  let rest ← many do
    if ← symbol? "," then return some (← item) else return none
  return first :: rest

/-- A reading between parentheses. -/
def parenthesized {α : Type} (p : Reading α) : Reading α := do
  symbol "("
  let value ← p
  symbol ")"
  return value

/-- A name. -/
def name : Reading Name := do
  match (← take).name? with
  | some n => return n
  | none => refuse

/-- A dotted path of names. -/
def path : Reading (List Name) := do
  let first ← name
  let rest ← many do
    if ← symbol? "." then return some (← name) else return none
  return first :: rest

/-- The greatest unsigned number a type argument may be. -/
def greatestArgument : Nat := UInt64.size - 1

/-- An unsigned whole number. -/
def natural : Reading Nat := do
  match ← take with
  | .number digits _ =>
    match digits.toNat? with
    | some n => if digits.toList.all Char.isDigit && n ≤ greatestArgument then return n else refuse
    | none => refuse
  | _ => refuse

/-- A quoted text. -/
def quotedText : Reading String := do
  match ← take with
  | .text value => return value
  | _ => refuse

/-- A text in either quotes, or a name in backquotes. -/
def literalText : Reading String := do
  match ← take with
  | .text value | .doubleText value | .quotedWord value => return value
  | _ => refuse

/-- The texts that follow one another are one text. -/
def adjoined (value : String) : Reading String := do
  let more ← many do
    match ← peek with
    | some (.text s) | some (.doubleText s) =>
      let _ ← take
      return some s
    | _ => return none
  return value ++ String.join more

/-- **The spelling of a literal value.** -/
def value : Reading String := do
  match ← take with
  | .word text =>
    match Text.asciiUpper text with
    | "TRUE" => return "true"
    | "FALSE" => return "false"
    | "NULL" => return "NULL"
    | _ => refuse
  | .number digits long => return if long then digits ++ "L" else digits
  | .text s => return enclosed '\x27' (← adjoined s)
  | .doubleText s => return enclosed '"' (← adjoined s)
  | .bytes quote s => return "B" ++ String.singleton quote ++ s ++ String.singleton quote
  | .national s => return "N'" ++ s ++ "'"
  | .hex s => return "X'" ++ s ++ "'"
  | .placeholder s => return s
  | .symbol s =>
    if s == ":" || s == "@" then
      match ← take with
      | .word text | .quotedWord text | .number text false => return s ++ text
      | _ => refuse
    else refuse
  | .quotedWord _ => refuse

end Reading

end TableMapper.Ddl
