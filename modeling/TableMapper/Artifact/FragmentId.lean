/-!
# Fragments of a mapper document

The root of a mapper document holds one element per fragment: a result map,
reusable pieces of SQL, and statements that include the pieces.
-/

namespace TableMapper

/-- A fragment of a mapper document. -/
inductive FragmentId
  | resultMap | baseColumn | condition | set | batchSet | batchSetValue | tableName | pageLimit
  | list | getByQc | count | insert | batchInsert | update | batchUpdate
deriving Repr, DecidableEq

namespace FragmentId

/-- **Every fragment, in document order.** -/
def all : List FragmentId :=
  [.resultMap, .baseColumn, .condition, .set, .batchSet, .batchSetValue, .tableName, .pageLimit,
   .list, .getByQc, .count, .insert, .batchInsert, .update, .batchUpdate]

/-- The `id` of a fragment. -/
def name : FragmentId → String
  | .resultMap => "BaseResultMap"
  | .baseColumn => "baseColumn"
  | .condition => "qc"
  | .set => "set"
  | .batchSet => "batchSet"
  | .batchSetValue => "batchSetValue"
  | .tableName => "tableName"
  | .pageLimit => "page-limit"
  | .list => "list"
  | .getByQc => "getByQc"
  | .count => "count"
  | .insert => "insert"
  | .batchInsert => "batchInsert"
  | .update => "update"
  | .batchUpdate => "batchUpdate"

/-- The fragment with an `id`. -/
def ofName? (name : String) : Option FragmentId :=
  all.find? (·.name == name)

@[simp] theorem ofName?_name (id : FragmentId) : ofName? id.name = some id := by
  cases id <;> rfl

theorem mem_all (id : FragmentId) : id ∈ all := by
  cases id <;> decide

end FragmentId

end TableMapper
