import TableMapper.Proofs.Artifact.Document

/-!
# How the elements of a mapper document are assembled

Fifteen builders decide on their own whether they give an element and what
they put into it. They have only a few steps in common: an element begins with
a name, and is given attributes, texts, other elements and inclusions. What
holds of every element of a document follows from these steps, one by one,
and never from the builders.

**Every fragment is assembled by these steps** (`assembled_of_fragment?`), and
links to pieces that every table has, but for the page of a list.
-/

namespace TableMapper.MapperDocument

open Markup (Element)
open Fragments Statements

/-- What elements are called, but for inclusions. -/
def elementNames : List String :=
  ["resultMap", "id", "result", "sql", "if", "foreach", "choose", "when", "otherwise", "trim",
    "where", "set", "select", "selectKey", "insert", "update"]

/-- What attributes are called, but for those that name another fragment. -/
def attributeNames : List String :=
  ["id", "type", "column", "jdbcType", "property", "typeHandler", "test", "collection", "item",
    "index", "open", "close", "separator", "suffixOverrides", "parameterType", "resultType",
    "keyProperty", "order",
    "useGeneratedKeys"]

/-- **How an element is assembled**, with the fragments that it may link to. -/
inductive Assembled (links : FragmentId → Prop) : Element → Prop
  | named {name : String} (hname : name ∈ elementNames) : Assembled links (.named name)
  | attr {e : Element} {name : String} (h : Assembled links e) (hname : name ∈ attributeNames)
      (value : String) :
      Assembled links (e.attr name value)
  | resultMap {e : Element} (h : Assembled links e) (hmap : links .resultMap) :
      Assembled links (e.attr "resultMap" FragmentId.resultMap.name)
  | text {e : Element} (h : Assembled links e) (s : String) : Assembled links (e.text s)
  | child {e inner : Element} (h : Assembled links e) (hinner : Assembled links inner) :
      Assembled links (e.child inner)
  | inclusion {e : Element} {id : FragmentId} (h : Assembled links e) (hid : links id) :
      Assembled links (e.child (Fragments.inclusion id))
  /-- The statement for a generated key stands in front of all else. -/
  | leading {e inner : Element} (h : Assembled links e) (hinner : Assembled links inner) :
      Assembled links { e with children := inner.toNode :: e.children }

variable {links : FragmentId → Prop} {e : Element}

theorem Assembled.foldl_child {α : Type} {f : α → Element} (h : Assembled links e)
    (hf : ∀ x, Assembled links (f x)) (xs : List α) :
    Assembled links ((xs.map f).foldl (·.child ·) e) := by
  induction xs generalizing e with
  | nil => exact h
  | cons x xs ih => exact ih (h.child (hf x))

/-! ## The pieces -/

section

variable (table : TableModel)

theorem assembled_sql (id : FragmentId) : Assembled links (sql id) :=
  (Assembled.named (by decide)).attr (by decide) _

theorem assembled_ifPresent (path text : String) : Assembled links (ifPresent path text) :=
  ((Assembled.named (by decide)).attr (by decide) _).text _

theorem assembled_chooseDefault (path value fallback : String) :
    Assembled links (chooseDefault path value fallback) :=
  ((Assembled.named (by decide)).child
    (((Assembled.named (by decide)).attr (by decide) _).text _)).child
    ((Assembled.named (by decide)).text _)

theorem assembled_resultEntry (c : ColumnModel) : Assembled links (resultEntry c) := by
  have hname : (if c.primaryKey then "id" else "result") ∈ elementNames := by
    split <;> decide
  have hentry : Assembled links _ :=
    (((Assembled.named hname).attr (show "column" ∈ attributeNames by decide) c.actualName).attr
      (show "jdbcType" ∈ attributeNames by decide) c.jdbcType).attr
        (show "property" ∈ attributeNames by decide) c.property
  rw [resultEntry]
  split
  · exact hentry.attr (by decide) _
  · exact hentry

theorem assembled_fieldPredicate (f : QueryField) : Assembled links (fieldPredicate f) := by
  rw [fieldPredicate]
  split
  · have hloop : Assembled links _ :=
      (((((Assembled.named (show "foreach" ∈ elementNames by decide)).attr
        (show "collection" ∈ attributeNames by decide) f.property).attr
          (show "item" ∈ attributeNames by decide) "item").attr
            (show "open" ∈ attributeNames by decide) "(").attr
            (show "close" ∈ attributeNames by decide) ")").attr
              (show "separator" ∈ attributeNames by decide) ","
    exact (((Assembled.named (by decide)).attr (by decide) _).text _).child (hloop.text _)
  · exact assembled_ifPresent _ _

theorem assembled_setEntry (c : ColumnModel) : Assembled links (setEntry table c) := by
  rw [setEntry]
  split
  · exact assembled_chooseDefault _ _ _
  · exact assembled_ifPresent _ _

theorem assembled_foldl_addValue (columns : List ColumnModel) (h : Assembled links e) :
    Assembled links (columns.foldl (addValue table) e) := by
  induction columns generalizing e with
  | nil => exact h
  | cons c columns ih =>
    refine ih ?_
    rw [addValue]
    split
    · exact h.child (assembled_chooseDefault _ _ _)
    · exact h.text _

theorem assembled_condition : Assembled links (condition table) := by
  rw [condition]
  split
  · exact ((assembled_sql _).text _).foldl_child assembled_fieldPredicate _
  · exact (assembled_sql _).foldl_child assembled_fieldPredicate _

theorem assembled_pageLimit? (h : pageLimit? table = some e) : Assembled links e := by
  obtain ⟨-, h⟩ := Option.ite_none_right_eq_some.1 h
  split at h
  · cases h
    exact (assembled_sql _).child (((Assembled.named (by decide)).attr (by decide) _).text _)
  · cases h

/-! ## The statements -/

theorem assembled_whereCondition (h : links .condition) : Assembled links whereCondition :=
  (Assembled.named (by decide)).inclusion h

theorem assembled_setOf {id : FragmentId} (h : links id) : Assembled links (setOf id) :=
  (Assembled.named (by decide)).inclusion h

theorem assembled_selectFrom (id : FragmentId) (hmap : links .resultMap)
    (hcolumns : links .baseColumn)
    (htable : links .tableName) (hcondition : links .condition) :
    Assembled links (selectFrom table id) :=
  ((((((((Assembled.named (by decide)).attr (by decide) _).attr (by decide) _).resultMap hmap).text
    _).inclusion hcolumns).text _).inclusion htable).child (assembled_whereCondition hcondition)

theorem assembled_ordered (h : Assembled links (selectFrom table .list)) :
    Assembled links (ordered table) := by
  rw [ordered]
  split
  · split
    · exact h.child (((Assembled.named (by decide)).attr (by decide) _).text _)
    · exact h
  · exact h

theorem assembled_loop (separator : String) : Assembled links (loop separator) :=
  ((((Assembled.named (by decide)).attr (by decide) _).attr (by decide) _).attr
    (by decide) _).attr (by decide) _

theorem assembled_selectKey (key : GeneratedKey) (c : ColumnModel) :
    Assembled links (selectKey key c) :=
  ((((Assembled.named (by decide)).attr (by decide) _).attr (by decide) _).attr
    (by decide) _).text _

theorem assembled_withGeneratedKey (h : Assembled links e) (batch : Bool) :
    Assembled links (withGeneratedKey table batch e) := by
  rw [withGeneratedKey]
  split
  · split
    · exact (h.attr (by decide) _).attr (by decide) _
    · split
      · exact h
      · exact h.leading (assembled_selectKey _ _)
  · exact h

end

/-! ## All fragments -/

/-- **Every fragment is assembled.** A piece links to nothing, and a statement
to pieces that every table has, but for the page of a list. -/
theorem assembled_of_fragment? {table : TableModel} {id : FragmentId}
    (h : fragment? table id = some e)
    (hpieces : ∀ piece ∈
      [FragmentId.resultMap, .baseColumn, .condition, .set, .batchSet, .batchSetValue, .tableName],
      links piece)
    (hpage : table.rules.pagination = true → links .pageLimit) : Assembled links e := by
  simp only [List.mem_cons, List.not_mem_nil, or_false, forall_eq_or_imp, forall_eq] at hpieces
  obtain ⟨hmap, hcolumns, hcondition, hset, hbatchSet, hvalues, htable⟩ := hpieces
  have hselect := fun id => assembled_selectFrom table id hmap hcolumns htable hcondition
  cases id with
  | resultMap =>
    cases h
    exact (((Assembled.named (by decide)).attr (by decide) _).attr (by decide) _).foldl_child
      assembled_resultEntry _
  | baseColumn | tableName => cases h; exact (assembled_sql _).text _
  | condition => cases h; exact assembled_condition table
  | set => cases h; exact (assembled_sql _).foldl_child (assembled_setEntry table) _
  | batchSet => cases h; exact (assembled_sql _).foldl_child (fun c => assembled_ifPresent _ _) _
  | batchSetValue =>
    cases h
    exact (assembled_sql _).child
      (assembled_foldl_addValue table _ ((Assembled.named (by decide)).attr (by decide) _))
  | pageLimit => exact assembled_pageLimit? table h
  | list =>
    rw [fragment?, list?_eq] at h
    obtain ⟨-, h⟩ := Option.ite_none_right_eq_some.1 h
    cases h
    split
    next hpaging => exact (assembled_ordered table (hselect _)).inclusion (hpage hpaging)
    next => exact assembled_ordered table (hselect _)
  | getByQc =>
    obtain ⟨-, h⟩ := Option.ite_none_right_eq_some.1 h
    cases h
    exact (hselect _).text _
  | count =>
    obtain ⟨-, h⟩ := Option.ite_none_right_eq_some.1 h
    cases h
    exact (((((((Assembled.named (by decide)).attr (by decide) _).attr (by decide) _).attr
      (by decide) _).text _).text _).inclusion htable).child (assembled_whereCondition hcondition)
  | insert =>
    obtain ⟨-, h⟩ := Option.ite_none_right_eq_some.1 h
    cases h
    exact (((assembled_withGeneratedKey table
      (((Assembled.named (by decide)).attr (by decide) _).attr (by decide) _) false).text
        _).inclusion htable).child (assembled_setOf hset)
  | batchInsert =>
    obtain ⟨-, h⟩ := Option.ite_none_right_eq_some.1 h
    cases h
    exact (((((assembled_withGeneratedKey table
      (((Assembled.named (by decide)).attr (by decide) _).attr (by decide) _) true).text
        _).inclusion htable).text _).text _).child
        ((((assembled_loop _).text _).inclusion hvalues).text _)
  | update =>
    obtain ⟨-, h⟩ := Option.ite_none_right_eq_some.1 h
    cases h
    exact ((((((Assembled.named (by decide)).attr (by decide) _).attr (by decide) _).text
      _).inclusion htable).child (assembled_setOf hset)).text _
  | batchUpdate =>
    obtain ⟨-, h⟩ := Option.ite_none_right_eq_some.1 h
    cases h
    exact (((Assembled.named (by decide)).attr (by decide) _).attr (by decide) _).child
      (((((assembled_loop _).text _).inclusion htable).child (assembled_setOf hbatchSet)).text _)

end TableMapper.MapperDocument
