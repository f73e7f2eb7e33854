import Mathlib.Data.List.Forall2
import TableMapper.Proofs.Artifact.BatchValues
import TableMapper.Proofs.Artifact.KeyedUpdates
import TableMapper.Proofs.Artifact.RoleEffects
import TableMapper.Proofs.Settings.Accepted

/-!
# Generated keys

A generated key is checked with the settings, marks a column when the table
is introspected, decides with it which columns are written, and shapes the
inserts. These four agree: **the column of a key that comes into being with
the insert is in no list of written columns, and the insert has the key
returned by the driver or reads it afterwards; any other key is read before
the insert and written like any other value** (`GeneratedKey.isHandled`).

That a statement stands on the right side of its insert is not seen where it
is written: there the configured timing counts, and only the check of the
settings keeps it in line with the kind of the key
(`GeneratedKey.runsAfterInsert_eq`).
-/

namespace TableMapper

open Markup (Element Node)

/-! ## Statements of a key -/

namespace GeneratedKey

/-- **The tokens of database dialects**, each with the statement that reads a
key there. -/
def dialects : List (String × String) :=
  [("DB2", "VALUES IDENTITY_VAL_LOCAL()"), ("CLOUDSCAPE", "VALUES IDENTITY_VAL_LOCAL()"),
   ("DERBY", "VALUES IDENTITY_VAL_LOCAL()"), ("MYSQL", "SELECT LAST_INSERT_ID()"),
   ("SQLSERVER", "SELECT SCOPE_IDENTITY()"), ("HSQLDB", "CALL IDENTITY()"),
   ("SYBASE", "SELECT @@IDENTITY"),
   ("DB2_MF", "SELECT IDENTITY_VAL_LOCAL() FROM SYSIBM.SYSDUMMY1"),
   ("INFORMIX", "select dbinfo('sqlca.sqlerrd1') from systables where tabid=1")]

/-- **The SQL of a configured statement**: a token in any case stands for the
statement of its dialect, anything else for itself. -/
inductive StandsFor (configured : String) : String → Prop
  | token {token sql : String} (htoken : Text.asciiUpper configured = token)
      (hsql : (token, sql) ∈ dialects) :
    StandsFor configured sql
  | literal (hnone : ∀ dialect ∈ dialects, Text.asciiUpper configured ≠ dialect.1) :
      StandsFor configured configured

/-- The statement with its token resolved is the one it stands for. -/
theorem standsFor_resolvedStatement (key : GeneratedKey) :
    StandsFor key.statement key.resolvedStatement := by
  rw [resolvedStatement, dialectStatement]
  split
  case h_10 hDb2 hCloudscape hDerby hMysql hSqlserver hHsqldb hSybase hDb2Mf hInformix =>
    refine .literal ?_
    simp only [dialects, List.forall_mem_cons]
    exact ⟨hDb2, hCloudscape, hDerby, hMysql, hSqlserver, hHsqldb, hSybase, hDb2Mf, hInformix,
      List.forall_mem_nil _⟩
  all_goals
    next htoken =>
      refine .token htoken ?_
      rw [Option.getD_some]
      decide

/-- **A key without problems is read after the insert exactly if it comes into
being with it.** The timing may say so, but it may not say otherwise. -/
theorem runsAfterInsert_eq {key : GeneratedKey} {table : String} (h : key.problems table = []) :
    key.runsAfterInsert = key.isIdentity := by
  rw [runsAfterInsert]
  rw [problems, List.append_eq_nil_iff] at h
  replace h := h.2
  cases htiming : key.timing with
  | none => rfl
  | some timing =>
    rw [htiming, Option.map_some] at h
    have hlower : ∀ word, Text.asciiLower timing = word →
        timing.toList.map Char.toLower = word.toList := by
      intro word hword
      rw [← hword, Text.asciiLower, String.toList_ofList]
    dsimp only
    split at h
    case h_1 hnone => cases hnone
    case h_2 hpre =>
      rw [problemIf_eq_nil.1 h, Text.sameIgnoringCase, hlower _ (Option.some.inj hpre)]
      decide
    case h_3 hpost =>
      rw [problemIf_not_eq_nil.1 h, Text.sameIgnoringCase, hlower _ (Option.some.inj hpost)]
      decide
    case h_4 => cases h

end GeneratedKey

/-! ## Elements in a node -/

/-- **A node holds an element of a name**: it is one, or one is in it. -/
inductive Markup.Node.Holds (name : String) : Node → Prop
  | here {attributes : List (String × String)} {children : List Node} :
      Holds name (.element name attributes children)
  | child {other : String} {attributes : List (String × String)}
      {children : List Node} {node : Node}
      (hnode : node ∈ children) (h : Holds name node) :
      Holds name (.element other attributes children)

theorem Markup.Node.not_holds_text {name s : String} : ¬ Holds name (.text s) :=
  nofun

theorem Markup.Element.holds_toNode {e : Element} {name : String} :
    Node.Holds name e.toNode ↔ e.name = name ∨ ∃ node ∈ e.children, node.Holds name := by
  constructor
  · rintro (_ | ⟨hnode, h⟩)
    · exact .inl rfl
    · exact .inr ⟨_, hnode, h⟩
  · rintro (rfl | ⟨node, hnode, h⟩)
    · exact .here
    · exact .child hnode h

/-! ## Lists of written columns -/

/-- **An entry for a column**: a text that always counts, or one that counts
while the property of the column is not null. -/
inductive IsEntry (owner : Option String) (c : ColumnModel) (s : String) : Node → Prop
  | always : IsEntry owner c s (.text s)
  | present : IsEntry owner c s
      (.element "if" [("test", c.propertyPath owner ++ " != null")] [.text s])
  | choice {otherwise : Node} : IsEntry owner c s
      (.element "choose" []
        [.element "when" [("test", c.propertyPath owner ++ " != null")] [.text s], otherwise])

/-- **The columns that the pieces of a document write**: each of the three
lists has an entry for each of them, in order and nothing else, and a batch
insert names them. -/
structure WritesColumns (spec : TableSpec) (artifacts : List Artifact)
    (columns : List ColumnModel) : Prop where
  set : HasElement artifacts .set fun e =>
    List.Forall₂ (fun c => IsEntry none c (c.escapedName ++ " = " ++ c.parameter none ++ ","))
      columns e.children
  batchSet : HasElement artifacts .batchSet fun e =>
    List.Forall₂ (fun c =>
      IsEntry (some "item") c (c.escapedName ++ " = " ++ c.parameter (some "item") ++ ","))
      columns e.children
  batchSetValue : HasElement artifacts .batchSetValue fun e => ∃ trim :
    Element, e.children = [trim.toNode] ∧
    List.Forall₂ (fun c => IsEntry (some "item") c (c.parameter (some "item") ++ ","))
      columns trim.children
  batchInsert : spec.enableBatchInsert = true → HasElement artifacts .batchInsert fun e =>
    e.children[2]? = some (.text ("(" ++ ", ".intercalate (columns.map (·.escapedName)) ++ ")"))

section

variable {settings : Settings} {spec : TableSpec} {table : TableModel}

theorem isEntry_setEntry (c : ColumnModel) :
    IsEntry none c (c.escapedName ++ " = " ++ c.parameter none ++ ",")
    (Fragments.setEntry table c).toNode := by
  rw [Fragments.setEntry]
  split
  · exact .choice
  · exact .present

theorem isEntry_valueNode (c : ColumnModel) :
    IsEntry (some "item") c (c.parameter (some "item") ++ ",")
    (Reference.valueNode table c) := by
  rw [Reference.valueNode]
  split
  · exact .choice
  · exact .always

/-- The lists of a generated document are for the columns that inserts
write. -/
theorem writesColumns_insertableColumns (named : List BuiltinPlugin)
    (hspec : Introspection.KeepsTo table spec) :
    WritesColumns spec (generateTable settings (named.map Plugin.builtin) table
      Generator.defaults).value
      table.insertableColumns := by
  have hentries : ∀ {entry : ColumnModel → Node} {owner : Option String}
      {text : ColumnModel → String},
      (∀ c, IsEntry owner c (text c) (entry c)) →
        List.Forall₂ (fun c => IsEntry owner c (text c)) table.insertableColumns
          (table.insertableColumns.map entry) :=
    fun h => List.forall₂_map_right_iff.2 (List.forall₂_same.2 fun c _ => h c)
  refine ⟨?_, ?_, ?_, fun hbatch => ?_⟩
  case refine_1 =>
    refine (hasElement_iff named).2 ⟨_, rfl, ?_⟩
    rw [Fragments.set, Element.foldl_child, List.map_map]
    exact hentries isEntry_setEntry
  case refine_2 =>
    refine (hasElement_iff named).2 ⟨_, rfl, ?_⟩
    rw [Fragments.batchSet, Element.foldl_child, List.map_map]
    exact hentries fun c => .present
  case refine_3 =>
    refine (hasElement_iff named).2 ⟨_, rfl, _, rfl, ?_⟩
    rw [Reference.foldl_addValue]
    exact hentries isEntry_valueNode
  case refine_4 =>
    have hchildren := Evaluation.children_batchInsert table
    rw [if_pos (hspec.batchInsert.trans hbatch)] at hchildren
    obtain ⟨e, he, hchildren⟩ := Option.map_eq_some_iff.1 hchildren
    refine (hasElement_iff named).2 ⟨e, he, ?_⟩
    rw [hchildren]
    rfl

end

/-- **What is written beside a generated key**: what the database does not
compute, less the column of a key that comes into being with the insert. -/
def GeneratedKey.writtenColumns (key : GeneratedKey) (columns : List ColumnModel) :
    List ColumnModel :=
  columns.filter fun c => !c.generatedAlways && !(key.isIdentity && key.matchesColumn c.actualName)

section

variable {spec : TableSpec} {table : TableModel} {k : GeneratedKey} {c : ColumnModel}

theorem insertableColumns_eq (hspec : Introspection.KeepsTo table spec)
    (hk : spec.generatedKey = some k) :
    table.insertableColumns = k.writtenColumns table.columns := by
  refine List.filter_congr fun d hd => ?_
  rw [ColumnModel.isGenerated, hspec.keyGeneration d hd, Introspection.keyGenerationOf, hk]
  dsimp only
  cases d.generatedAlways <;> cases k.matchesColumn d.actualName <;> cases k.isIdentity <;> rfl

/-- Whether the column of the key is written. -/
theorem mem_writtenColumns_iff {columns : List ColumnModel} (hc : c ∈ columns)
    (hname : k.matchesColumn c.actualName = true) :
    c ∈ k.writtenColumns columns ↔ c.generatedAlways = false ∧ k.isIdentity = false := by
  rw [GeneratedKey.writtenColumns, List.mem_filter, hname]
  simp [hc]

end

/-! ## Inserts -/

/-- **The driver returns the key** of an insert, and no statement reads it. -/
structure ReturnsKey (c : ColumnModel) (e : Element) : Prop where
  useGeneratedKeys : e.attribute? "useGeneratedKeys" = some "true"
  keyProperty : e.attribute? "keyProperty" = some c.property
  noStatement : ¬ Node.Holds "selectKey" e.toNode

/-- **A statement in front of an insert reads the key**, before the insert or
after it. -/
def SelectsKey (k : GeneratedKey) (c : ColumnModel) (order : String) (e : Element) : Prop :=
  ∃ (select : Element) (sql : String), e.children.head? = some select.toNode ∧
    select.name = "selectKey" ∧
    select.attribute? "keyProperty" = some c.property ∧ select.attribute? "order" = some order ∧
    select.children = [.text sql] ∧ GeneratedKey.StandsFor k.statement sql

section

variable {table : TableModel} {k : GeneratedKey} {c : ColumnModel} {e : Element}

/-- **How the insert of one row gets the key.** -/
theorem insert?_key (hk : table.spec.generatedKey = some k)
    (hc : table.generatedKeyColumn? = some c)
    (hproblems : k.problems table.spec.tableName = []) (he : Statements.insert? table = some e) :
    if k.usesDriver then ReturnsKey c e else SelectsKey k c
      (if k.isIdentity then "AFTER" else "BEFORE") e := by
  obtain ⟨-, he⟩ := Option.ite_none_right_eq_some.1 he
  obtain rfl := Option.some.inj he
  rw [RoleSetting.withGeneratedKey_eq hk hc]
  cases hdriver : k.usesDriver with
  | true =>
    refine ⟨rfl, rfl, ?_⟩
    simp [Element.holds_toNode, Node.not_holds_text, Fragments.inclusion, Statements.setOf]
  | false =>
    refine ⟨Statements.selectKey k c, k.resolvedStatement, rfl, rfl, rfl, ?_, rfl,
      k.standsFor_resolvedStatement⟩
    rw [← GeneratedKey.runsAfterInsert_eq hproblems]
    rfl

theorem name_withGeneratedKey (batch : Bool) (e : Element) :
    (Statements.withGeneratedKey table batch e).name = e.name := by
  rw [Statements.withGeneratedKey]
  split
  · split
    · rfl
    · split <;> rfl
  · rfl

/-- The insert of a batch reads no key. -/
theorem not_holds_batchInsert (he : Statements.batchInsert? table = some e) :
    ¬ Node.Holds "selectKey" e.toNode := by
  have hchildren := Evaluation.children_batchInsert table
  obtain ⟨hbatch, heq⟩ := Option.ite_none_right_eq_some.1 he
  have hname : e.name = "insert" := by
    obtain rfl := Option.some.inj heq
    exact name_withGeneratedKey true _
  rw [he, if_pos hbatch, Option.map_some, Option.some_inj] at hchildren
  rw [Element.holds_toNode, hname, hchildren]
  simp [Element.holds_toNode, Node.not_holds_text, Fragments.inclusion, Statements.loop]

end

/-! ## From the settings to the inserts -/

namespace GeneratedKey

/-- **A generated key is handled** in the artifacts of a table, where it has a
column. -/
structure IsHandled (key : GeneratedKey) (spec : TableSpec) (columns : List ColumnModel)
    (c : ColumnModel)
    (artifacts : List Artifact) : Prop where
  /-- The lists are for the columns that are written beside the key. -/
  lists : WritesColumns spec artifacts (key.writtenColumns columns)
  /-- Its own column is among them unless the database computes it or the
  insert produces it. -/
  column : c ∈ key.writtenColumns columns ↔ c.generatedAlways = false ∧ key.isIdentity = false
  /-- The insert of one row has the key returned, or reads it on the right
  side. -/
  insert : spec.enableInsert = true → HasElement artifacts .insert fun e =>
    if key.usesDriver then ReturnsKey c e else SelectsKey key c
      (if key.isIdentity then "AFTER" else "BEFORE") e
  /-- The insert of a batch reads no key, as it would do so once. -/
  batchInsert : ¬ HasElement artifacts .batchInsert fun e => Node.Holds "selectKey" e.toNode

/-- **A generated key is handled in every table that has one column for it**,
if no problem is found in the settings of the table. -/
theorem isHandled (settings : Settings) {spec : TableSpec} (hspec : spec.problems = []) (source : MetadataSource)
    (named : List BuiltinPlugin) :
    ∃ found, Introspection.introspect settings spec source = .ok found ∧
      ∀ table ∈ found.value, ∀ k ∈ spec.generatedKey, ∀ c,
        (table.columns.filter fun d => k.matchesColumn d.actualName) = [c] →
          k.IsHandled spec table.columns c
            (generateTable settings (named.map Plugin.builtin) table Generator.defaults).value := by
  obtain ⟨found, hfound⟩ := Introspection.exists_introspect settings source hspec
  refine ⟨found, hfound, fun table htable k hk c hone => ?_⟩
  have hkeeps := Introspection.keepsTo_of_mem_introspect hfound htable
  obtain ⟨hc, hname⟩ : c ∈ table.columns ∧ k.matchesColumn c.actualName = true :=
    List.mem_filter.1 (hone ▸ List.mem_singleton_self c)
  -- the column that the model takes for that of the key is this one
  obtain ⟨d, hd, hdname, hcolumn⟩ := RoleSetting.exists_generatedKeyColumn? hkeeps hk ⟨c, hc, hname⟩
  have hdc : d ∈ table.columns.filter fun d => k.matchesColumn d.actualName :=
    List.mem_filter.2 ⟨hd, hdname⟩
  rw [hone, List.mem_singleton] at hdc
  subst hdc
  have hkey : table.spec.generatedKey = some k := hkeeps.spec_eq ▸ hk
  have hproblems : k.problems table.spec.tableName = [] := by
    rw [hkeeps.spec_eq]
    exact TableSpec.problems_of_mem_generatedKey hspec hk
  refine ⟨?_, mem_writtenColumns_iff hc hname, fun hinsert => ?_, fun hbatch => ?_⟩
  case refine_1 =>
    rw [← insertableColumns_eq hkeeps hk]
    exact writesColumns_insertableColumns named hkeeps
  case refine_2 =>
    obtain ⟨e, he⟩ : ∃ e, Statements.insert? table = some e :=
      ⟨_, if_pos (hkeeps.insert.trans hinsert)⟩
    exact (hasElement_iff named).2 ⟨e, he, insert?_key hkey hcolumn hproblems he⟩
  case refine_3 =>
    obtain ⟨e, he, hselect⟩ := (hasElement_iff named).1 hbatch
    exact not_holds_batchInsert he hselect

/-! ## A key of the lines of an order -/

/-- An identity of a dialect, with its timing spelt out. -/
def lineKey : GeneratedKey where
  column := "LINE_NO"
  statement := "mysql"
  identity := true
  timing := some "Post"
  delimited := false

/-- The table of the lines, with the key. -/
def orderLinesKeyed : TableSpec :=
  { tableName := "order_lines", generatedKey := some lineKey }

/-- The number of a line is not written, and read after the insert. -/
theorem isHandled_orderLines : orderLinesKeyed.problems = [] ∧
    ∃ found table c, Introspection.introspect {} orderLinesKeyed MapperDocument.orderLines = .ok found ∧
      table ∈ found.value ∧ (table.columns.filter fun d => lineKey.matchesColumn d.actualName) = [c] ∧
      lineKey.IsHandled orderLinesKeyed table.columns c (generateTable {} [] table Generator.defaults).value ∧
      c ∉ lineKey.writtenColumns table.columns ∧
      HasElement (generateTable {} [] table Generator.defaults).value .insert (SelectsKey lineKey c "AFTER") := by
  have hspec : orderLinesKeyed.problems = [] := by decide +kernel
  obtain ⟨found, hfound, hhandled⟩ := isHandled {} hspec MapperDocument.orderLines []
  have hnames : (Introspection.introspect {} orderLinesKeyed MapperDocument.orderLines).toOption.map
      (fun found => found.value.map fun table => table.columns.map (·.actualName)) =
        some [["order_id", "line_no", "note"]] := by decide +kernel
  rw [hfound] at hnames
  obtain ⟨table, htable, hcolumns⟩ := List.map_eq_singleton_iff.1 (Option.some.inj hnames)
  obtain ⟨order, rest, hrest, horder, hlines⟩ := List.map_eq_cons_iff.1 hcolumns
  obtain ⟨line, rest', hrest', hline, hnote⟩ := List.map_eq_cons_iff.1 hlines
  obtain ⟨note, hlast, hname⟩ := List.map_eq_singleton_iff.1 hnote
  have hone : (table.columns.filter fun d => lineKey.matchesColumn d.actualName) = [line] := by
    rw [hrest, hrest', hlast, List.filter_cons_of_neg (by rw [horder]; decide),
      List.filter_cons_of_pos (by rw [hline]; decide),
      List.filter_cons_of_neg (by rw [hname]; decide), List.filter_nil]
  have hmem : table ∈ found.value := htable ▸ List.mem_singleton_self _
  have hkey := hhandled table hmem lineKey rfl line hone
  refine ⟨hspec, found, table, line, hfound, hmem, hone, hkey, fun hwritten => ?_, ?_⟩
  · exact absurd (hkey.column.1 hwritten).2 (by decide)
  · exact hkey.insert rfl

end GeneratedKey

end TableMapper
