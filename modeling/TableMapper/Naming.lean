import TableMapper.Text.Words

/-!
# Names

How properties, accessors and domain objects are named. A domain object is
the Pascal case of its table, a property the camel case of its column unless
another mode is chosen. Accessors follow the bean convention: `orderCode`
has the suffix `OrderCode`, but `xAxis`, whose second letter is upper case
already, keeps its spelling, so that taking the suffix back to lower case
gives the property again.
-/

namespace TableMapper.Naming

/-- How property names are derived from column names. -/
inductive Mode
  /-- The column name as it is. -/
  | actual
  /-- The column name, an underscore, the Pascal case of its remarks. -/
  | compound
  /-- The camel case of the column name. -/
  | camelCase
deriving Repr, DecidableEq, Inhabited

/-- The domain object named after a table. -/
def domainObject (table : String) : String :=
  Text.pascalCase table

/-- The property named after a column. -/
def property (column : String) : String :=
  Text.camelCase column

/-- **The property of a column in each mode.** Without remarks, or with
blank ones, the compound mode has nothing to add. -/
def deriveProperty (mode : Mode) (column : String) (remarks : Option String) : String :=
  match mode with
  | .actual => column
  | .camelCase => property column
  | .compound =>
    match remarks.map Text.trimmed with
    | none | some "" => column
    | some text => column ++ "_" ++ Text.pascalCase text

/-- The suffix of an accessor: the property with its first letter in upper
case, or unchanged when the second letter is upper case. -/
def accessorSuffix (property : String) : String :=
  match property.toList with
  | [] => ""
  | [first] => String.ofList (Text.upper first)
  | first :: second :: rest =>
    if Text.isUppercase second then property
    else String.ofList (Text.upper first ++ second :: rest)

/-- The getter of a property; only a primitive boolean has the prefix
`is`. -/
def getter (property : String) (primitiveBoolean : Bool) : String :=
  (if primitiveBoolean then "is" else "get") ++ accessorSuffix property

/-- The setter of a property. -/
def setter (property : String) : String :=
  "set" ++ accessorSuffix property

/-- The property of a filter over several values of `property`. -/
def listProperty (property : String) : String :=
  property ++ "List"

/-- The reserved words, which no generated property may bear. -/
def reservedWords : List String :=
  ["abstract", "assert", "boolean", "break", "byte", "case", "catch", "char", "class", "const",
   "continue", "default", "do", "double", "else", "enum", "extends", "false", "final", "finally",
   "float", "for", "goto", "if", "implements", "import", "instanceof", "int", "interface", "long",
   "native", "new", "null", "package", "private", "protected", "public", "return", "short",
   "static", "strictfp", "super", "switch", "synchronized", "this", "throw", "throws",
   "transient", "true", "try", "void", "volatile", "while"]

/-- A reserved word. -/
def isReserved (name : String) : Bool :=
  reservedWords.contains name

end TableMapper.Naming
