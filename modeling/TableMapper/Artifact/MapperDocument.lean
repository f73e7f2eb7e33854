import TableMapper.Artifact.Basic
import TableMapper.Artifact.Statements
import TableMapper.Plugin.Event
import TableMapper.Run.Warning

/-!
# Mapper documents

A mapper document holds the fragments that the rules of a table ask for, in
document order. Its namespace is the mapper interface.
-/

namespace TableMapper.MapperDocument

/-- The public identifier of mapper documents. -/
def publicId : String :=
  "-//mybatis.org//DTD Mapper 3.0//EN"

/-- The system identifier of mapper documents. -/
def systemId : String :=
  "http://mybatis.org/dtd/mybatis-3-mapper.dtd"

/-- **The element of a fragment**, or nothing when the rules of the table
leave it out. -/
def fragment? (table : TableModel) : FragmentId → Option Markup.Element
  | .resultMap => some (Fragments.resultMap table)
  | .baseColumn => some (Fragments.baseColumn table)
  | .condition => some (Fragments.condition table)
  | .set => some (Fragments.set table)
  | .batchSet => some (Fragments.batchSet table)
  | .batchSetValue => some (Fragments.batchSetValue table)
  | .tableName => some (Fragments.tableName table)
  | .pageLimit => Fragments.pageLimit? table
  | .list => Statements.list? table
  | .getByQc => Statements.getByQc? table
  | .count => Statements.count? table
  | .insert => Statements.insert? table
  | .batchInsert => Statements.batchInsert? table
  | .update => Statements.update? table
  | .batchUpdate => Statements.batchUpdate? table

/-- How the fragments of a table are built. -/
abbrev Builder := TableModel → FragmentId → Option Markup.Element

/-- The builder with another element for one fragment. -/
def Builder.replace (build : Builder) (id : FragmentId)
    (element : TableModel → Option Markup.Element) : Builder :=
  fun table other => if other = id then element table else build table other

/-- A wanted update is left out for want of a primary key. -/
def warnings (table : TableModel) : List TableMapper.Warning :=
  if (table.spec.enableUpdate && !table.rules.update) ||
      (table.spec.enableBatchUpdate && !table.rules.batchUpdate) then
    [.noPrimaryKey table.table]
  else []

variable (settings : Settings) (table : TableModel)

/-- Adds the fragments that the plugins approve. -/
def addFragments (plugins : PluginChain) (build : Builder) :
    List FragmentId → Markup.Element → Heard Markup.Element
  | [], root => pure root
  | id :: rest, root =>
    match build table id with
    | none => addFragments plugins build rest root
    | some element => do
      let approved ← plugins.offer table (.mapperElement id) element
      addFragments plugins build rest ((approved.map root.child).getD root)

/-- **The mapper document of a table**, unless the plugins veto it. -/
def generate (build : Builder) (plugins : PluginChain) : Heard (List Artifact) := do
  let root := (Markup.Element.named "mapper").attr "namespace" table.names.mapperNamespace
  let root ← addFragments table plugins build FragmentId.all root
  let document : Markup.Document :=
    { root, publicId := some publicId, systemId := some systemId }
  let approved ← plugins.offer table .mapperDocument document
  return approved.toList.map
    (.ofDocument settings.mapperProject settings.mapperPackage table.names.mapperFile)

end TableMapper.MapperDocument
