import TableMapper.Text.Sorted
import TableMapper.Unit.JavaType

/-!
# Java source files

A generated source file holds one class or interface with its fields and
methods. It is a plain tree: members stay in the order in which they were
added, imports are a sorted set, so a tree has exactly one text.
-/

namespace TableMapper

/-- Who can see a type or a member. -/
inductive Visibility
  | «public»
  | «protected»
  | «private»
  /-- Visible in its package; written without a keyword. -/
  | package
deriving Repr, DecidableEq, BEq

/-- A class or an interface. -/
inductive TypeKind
  | «class»
  | interface
deriving Repr, DecidableEq, BEq

/-- The keyword of a declaration. -/
def TypeKind.keyword : TypeKind → String
  | .class => "class"
  | .interface => "interface"

/-- A field. -/
structure Field where
  name : String
  type : JavaType
  visibility : Visibility := .private
  isStatic : Bool := false
  isFinal : Bool := false
  initializer : Option String := none
  annotations : List String := []
  javadoc : List String := []
deriving Repr, BEq

/-- A parameter of a method. -/
structure Parameter where
  name : String
  type : JavaType
  annotations : List String := []
deriving Repr, BEq

/-- A method or a constructor. -/
structure Method where
  name : String
  /-- Absent for constructors. -/
  returnType : Option JavaType := none
  visibility : Visibility := .public
  isStatic : Bool := false
  parameters : List Parameter := []
  /-- The lines of the body; without a body the method is a declaration. -/
  body : Option (List String) := some []
  annotations : List String := []
  javadoc : List String := []
deriving Repr, BEq

/-- A declaration in an interface. -/
def Method.declaration (name : String) (returnType : JavaType) : Method :=
  { name, returnType := some returnType, visibility := .package, body := none }

/-- A constructor has no return type. -/
def Method.isConstructor (m : Method) : Bool :=
  m.returnType.isNone

/-- A source file with one class or interface. -/
structure JavaUnit where
  kind : TypeKind
  type : JavaType
  visibility : Visibility := .public
  superclass : Option JavaType := none
  superInterfaces : List JavaType := []
  /-- Ascending, without repetitions. -/
  imports : List String := []
  annotations : List String := []
  javadoc : List String := []
  fields : List Field := []
  methods : List Method := []
  /-- The texts of members taken over from an existing file. -/
  retained : List String := []
deriving Repr, BEq

namespace JavaUnit

/-- The imports a type needs inside this file: what lives in the package of
the file needs none. -/
def neededImports (u : JavaUnit) (t : JavaType) : List String :=
  t.imports.filter fun name =>
    match (JavaType.splitName name).1 with
    | none => true
    | some package => u.type.packageName? != some package

/-- **Imports a type** and its arguments, as far as needed. -/
def addImport (u : JavaUnit) (t : JavaType) : JavaUnit :=
  { u with
    imports := (u.neededImports t).foldl (fun set s => Text.insertSorted s set) u.imports }

/-- Adds several imports. -/
def addImports (u : JavaUnit) (ts : List JavaType) : JavaUnit :=
  ts.foldl addImport u

/-- Adds an interface, with its import, unless it is there. -/
def addSuperInterface (u : JavaUnit) (t : JavaType) : JavaUnit :=
  if u.superInterfaces.contains t then u
  else { u.addImport t with superInterfaces := u.superInterfaces ++ [t] }

/-- Adds an annotation unless it is there. -/
def annotate (u : JavaUnit) (mark : String) : JavaUnit :=
  if u.annotations.contains mark then u
  else { u with annotations := u.annotations ++ [mark] }

/-- The file is named after its type. -/
def fileName (u : JavaUnit) : String :=
  u.type.shortName ++ ".java"

end JavaUnit

end TableMapper
