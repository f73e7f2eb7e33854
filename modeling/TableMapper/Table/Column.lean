import TableMapper.Catalog.TableRef
import TableMapper.Unit.JavaType

/-!
# Columns of a table model

A column after naming, type resolution and overrides, and the forms in which
SQL and mapper documents refer to it.
-/

namespace TableMapper

/-- How the database assigns the value of a column on insert. -/
inductive KeyGeneration
  | notGenerated
  /-- Assigned by the insert itself. -/
  | identity
  /-- Fetched before the insert. -/
  | sequence
deriving Repr, DecidableEq

/-- A resolved column. -/
structure ColumnModel where
  /-- The name as the database reports it. -/
  actualName : String
  property : String
  javaType : JavaType
  jdbcType : String
  nullable : Bool
  primaryKey : Bool
  /-- The place in the primary key, counted from 1; 0 for other columns. -/
  keySequence : Nat
  largeObject : Bool
  keyGeneration : KeyGeneration
  /-- Computed by the database. -/
  generatedAlways : Bool
  typeHandler : Option String
  properties : List (String × String)
  remarks : Option String
  defaultValue : Option String
  length : Nat
  scale : Nat
  /-- Quoted in SQL. -/
  delimited : Bool
deriving Repr, BEq

namespace ColumnModel

/-- **Left out of value lists** when the database computes the value or the
insert itself assigns it. A value fetched before the insert is written like
any other. -/
def isGenerated (c : ColumnModel) : Bool :=
  c.generatedAlways || c.keyGeneration == .identity

/-- The name as SQL writes it. -/
def escapedName (c : ColumnModel) : String :=
  if c.delimited then TableRef.delimited c.actualName else c.actualName

/-- The property, behind the name of a loop variable if there is one. -/
def propertyPath (c : ColumnModel) (owner : Option String) : String :=
  match owner with
  | some owner => owner ++ "." ++ c.property
  | none => c.property

/-- The clause that names a type handler. -/
def handlerClause (c : ColumnModel) : String :=
  match c.typeHandler with
  | some handler => ",typeHandler=" ++ handler
  | none => ""

/-- **The parameter bound to the property**, such as
`#{item.orderCode}`. -/
def parameter (c : ColumnModel) (owner : Option String) : String :=
  "#\x7b" ++ c.propertyPath owner ++ c.handlerClause ++ "\x7d"

/-- The parameter bound to an item of a list of values of the column. -/
def elementParameter (c : ColumnModel) : String :=
  "#\x7bitem" ++ c.handlerClause ++ "\x7d"

end ColumnModel

end TableMapper
