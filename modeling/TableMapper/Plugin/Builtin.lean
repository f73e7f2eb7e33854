/-!
# The plugins selectable by name

Two plugins come with the generator and are switched on by their names in
the configuration.
-/

namespace TableMapper

/-- A plugin the configuration can name. -/
inductive BuiltinPlugin
  /-- Record and query classes get `@Data` and lose their accessors. -/
  | lombok
  /-- Mapper interfaces get `@Mapper`. -/
  | mapperMark
deriving Repr, DecidableEq

namespace BuiltinPlugin

/-- Every plugin, in the order they are listed. -/
def all : List BuiltinPlugin :=
  [.lombok, .mapperMark]

/-- The name in the configuration. -/
def name : BuiltinPlugin → String
  | .lombok => "lombok"
  | .mapperMark => "mapper-annotation"

/-- The plugin with a name, which must be spelt exactly. -/
def ofName? (name : String) : Option BuiltinPlugin :=
  all.find? (·.name == name)

@[simp] theorem ofName?_name (p : BuiltinPlugin) : ofName? p.name = some p := by
  cases p <;> rfl

end BuiltinPlugin

end TableMapper
