import TableMapper.Plugin.Event
import TableMapper.Settings.Basic

/-!
# Bean properties

The generated classes are beans: a private field for each property, with a
getter and a setter. The documentation of every generated member ends with
the retention tag, which tells it from hand-written ones. Each member is
offered to the plugins, and only what they approve is added.
-/

namespace TableMapper

/-- Documentation that ends with the retention tag. -/
def taggedJavadoc (lines : List String) : List String :=
  (if lines.isEmpty then [] else lines ++ [""]) ++ [Settings.retentionTag]

/-- The lines of a remark, trimmed, without blank ones. -/
def remarkLines (remarks : Option String) : List String :=
  ((Text.lines (remarks.getD "")).map Text.trimmed).filter (!·.isEmpty)

/-- The documentation of a generated type. -/
def typeJavadoc (table : TableModel) : List String :=
  taggedJavadoc (("Table: " ++ table.table.display) :: remarkLines table.remarks)

/-- A property of a bean. -/
structure BeanProperty where
  name : String
  type : JavaType
  /-- The column behind the property, if there is one. -/
  column : Option ColumnModel
  doc : List String
deriving Repr, BEq

namespace BeanProperty

/-- The property of a column. -/
def ofColumn (table : TableModel) (column : ColumnModel) : BeanProperty where
  name := column.property
  type := column.javaType
  column := some column
  doc := ("Column: " ++ table.table.display ++ "." ++ column.actualName) ::
    remarkLines column.remarks

/-- The field of a property. -/
def field (p : BeanProperty) : Field where
  name := p.name
  type := p.type
  javadoc := taggedJavadoc p.doc

/-- The method that reads a property. -/
def getter (p : BeanProperty) : Method where
  name := Naming.getter p.name (p.type.qualifiedName == "boolean")
  returnType := some p.type
  body := some ["return " ++ p.name ++ ";"]
  javadoc := taggedJavadoc []

/-- The statement that stores a parameter in its field. -/
def assignment (name : String) : String :=
  "this." ++ name ++ " = " ++ name ++ ";"

/-- The method that sets a property. -/
def setter (p : BeanProperty) : Method where
  name := Naming.setter p.name
  returnType := some (.named "void")
  parameters := [{ name := p.name, type := p.type }]
  body := some [assignment p.name]
  javadoc := taggedJavadoc []

end BeanProperty

namespace JavaUnit

/-- One more field, with the import its type needs. -/
def addField (u : JavaUnit) (f : Field) : JavaUnit :=
  { u.addImport f.type with fields := u.fields ++ [f] }

/-- One more method, without imports. -/
def addMethod (u : JavaUnit) (m : Method) : JavaUnit :=
  { u with methods := u.methods ++ [m] }

/-- A superclass, with its import. -/
def extending (u : JavaUnit) (superclass : JavaType) : JavaUnit :=
  { u.addImport superclass with superclass := some superclass }

variable (plugins : PluginChain) (table : TableModel) (kind : ModelKind)

/-- **Adds the fields of properties** that the plugins approve. -/
def addFields : List BeanProperty → JavaUnit → Heard JavaUnit
  | [], u => pure u
  | p :: rest, u => do
    let field ← plugins.offer table (.modelField kind p.column) p.field
    addFields rest ((field.map u.addField).getD u)

/-- Adds the getter of a property if the plugins approve it. -/
def addGetter (p : BeanProperty) (u : JavaUnit) : Heard JavaUnit := do
  let getter ← plugins.offer table (.modelGetter kind p.column) p.getter
  return match getter with
    | some m => (u.addImports m.returnType.toList).addMethod m
    | none => u

/-- Adds the setter of a property if the plugins approve it. -/
def addSetter (p : BeanProperty) (u : JavaUnit) : Heard JavaUnit := do
  let setter ← plugins.offer table (.modelSetter kind p.column) p.setter
  return match setter with
    | some m => (u.addImports (m.parameters.map (·.type))).addMethod m
    | none => u

/-- **Adds the accessors of properties** that the plugins approve; read-only
beans have no setters. -/
def addAccessors (readOnly : Bool) : List BeanProperty → JavaUnit → Heard JavaUnit
  | [], u => pure u
  | p :: rest, u => do
    let u ← addGetter plugins table kind p u
    let u ← if readOnly then pure u else addSetter plugins table kind p u
    addAccessors readOnly rest u

end JavaUnit

end TableMapper
