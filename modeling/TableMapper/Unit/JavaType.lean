import TableMapper.Text.Blank

/-!
# Java types

A reference to a Java type by its qualified name, with type arguments. In
source a type is written by its short name, and everything with a package
other than `java.lang` has to be imported for that.
-/

namespace TableMapper

/-- A reference to a type, possibly with arguments. -/
inductive JavaType
  | mk (qualifiedName : String) (arguments : List JavaType)
deriving Repr, BEq, Inhabited

namespace JavaType

/-- A type without arguments. -/
def named (qualifiedName : String) : JavaType :=
  .mk qualifiedName []

/-- A list of some type. -/
def listOf (item : JavaType) : JavaType :=
  .mk "java.util.List" [item]

/-- The qualified name, without arguments. -/
def qualifiedName : JavaType → String
  | .mk name _ => name

/-- The type arguments. -/
def arguments : JavaType → List JavaType
  | .mk _ arguments => arguments

@[simp] theorem qualifiedName_named (name : String) : (named name).qualifiedName = name := rfl

@[simp] theorem arguments_named (name : String) : (named name).arguments = [] := rfl

/-- A qualified name cut at its last dot. -/
def splitName (name : String) : Option String × String :=
  let (package, last) := Text.splitLast '.' name.toList
  (package.map String.ofList, String.ofList last)

/-- The package of the type, if its name has one. -/
def packageName? (t : JavaType) : Option String :=
  (splitName t.qualifiedName).1

mutual

/-- **The name as written in source**: the last part of the qualified name,
with the arguments written the same way. -/
def shortName : JavaType → String
  | .mk name arguments =>
    let base := (splitName name).2
    match arguments with
    | [] => base
    | first :: rest =>
      base ++ "<" ++ ", ".intercalate (shortName first :: shortNames rest) ++ ">"

/-- The short names of several types. -/
def shortNames : List JavaType → List String
  | [] => []
  | t :: rest => shortName t :: shortNames rest

end

/-- A name without the brackets of an array type behind it, reversed. -/
def dropBrackets : List Char → List Char
  | ']' :: '[' :: rest => dropBrackets rest
  | cs => cs

/-- The name of the innermost element type of an array type. -/
def elementName (name : String) : String :=
  String.ofList (dropBrackets name.toList.reverse).reverse

/-- The primitive types. -/
def primitives : List String :=
  ["boolean", "byte", "char", "double", "float", "int", "long", "short", "void"]

/-- A primitive type or an array of one. -/
def isPrimitive (t : JavaType) : Bool :=
  primitives.contains (elementName t.qualifiedName)

/-- The import that the name of a type needs by itself. -/
def ownImport (t : JavaType) : List String :=
  match t.packageName? with
  | none => []
  | some package =>
    if package != "java.lang" && !t.isPrimitive then [elementName t.qualifiedName] else []

mutual

/-- **The imports a type needs**, those of its arguments included. -/
def imports : JavaType → List String
  | .mk name arguments => ownImport (.named name) ++ importsOf arguments

/-- The imports several types need. -/
def importsOf : List JavaType → List String
  | [] => []
  | t :: rest => imports t ++ importsOf rest

end

end JavaType

end TableMapper
