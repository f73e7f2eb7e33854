/-!
# References to tables

A table is named by a catalog and a schema, both optional, and its own name.
References are ordered by their parts, an absent part before every present
one, and this is the order in which tables are generated.
-/

namespace TableMapper

/-- A reference to one physical table. -/
structure TableRef where
  catalog : Option String
  schema : Option String
  name : String
deriving Repr, DecidableEq, Inhabited

namespace TableRef

/-- A table without catalog and schema. -/
def plain (name : String) : TableRef :=
  ⟨none, none, name⟩

/-- The parts that are present, outermost first. -/
def parts (t : TableRef) : List String :=
  t.catalog.toList ++ t.schema.toList ++ [t.name]

/-- An identifier between backquotes. -/
def delimited (part : String) : String :=
  "`" ++ part ++ "`"

/-- **The name as SQL writes it**: the parts joined by dots, each between
backquotes when identifiers are delimited. -/
def runtimeName (t : TableRef) (delimit : Bool) : String :=
  ".".intercalate (if delimit then t.parts.map delimited else t.parts)

/-- The name as messages show it. -/
def display (t : TableRef) : String :=
  t.runtimeName false

instance : ToString TableRef := ⟨display⟩

/-- The order of optional names: an absent one comes first. -/
def compareOptional : Option String → Option String → Ordering
  | none, none => .eq
  | none, some _ => .lt
  | some _, none => .gt
  | some a, some b => compare a b

/-- **The order of references**: by catalog, then schema, then name. -/
def compare (a b : TableRef) : Ordering :=
  (compareOptional a.catalog b.catalog).then
    ((compareOptional a.schema b.schema).then (Ord.compare a.name b.name))

instance : Ord TableRef := ⟨compare⟩

/-- References in ascending order, equal ones in their given order. -/
def sort (tables : List TableRef) : List TableRef :=
  tables.mergeSort fun a b => a.compare b != .gt

end TableRef

end TableMapper
