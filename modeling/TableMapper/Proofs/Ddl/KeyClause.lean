import Mathlib.Data.List.Induction
import Mathlib.Data.List.Nodup
import Mathlib.Data.List.Pairwise
import Mathlib.Tactic.ByContra
import TableMapper.Proofs.Ddl.DeclaredTypes
import TableMapper.Proofs.Table.PrimaryKey

/-!
# The key that a table declares

A key is declared by a column, as one of its options, or by a clause that
lists its parts. A part is a column, by its name in any case, and it may be
only the beginning of the column, of a given length. The parts are kept as
the expressions they read as, and a part with a length reads as the call of
a function.

**The rows of a table are those of its columns, where a column may not be
null also if the key has exactly its name** (`HasKey.columns_schema`), **and a
part with a length is kept under a name longer than that of its column**
(`HasKey.forall₂_primaryKey_schema`).
-/

namespace TableMapper.Ddl

/-! ## Parts of a key -/

/-- **A part of a key.** -/
structure KeyPart where
  /-- The column, in some case. -/
  name : Name
  /-- How much of the column counts, as written, if not all of it does. -/
  length : Option String := none
  /-- The direction of sorting, as written. -/
  direction : Option String := none
deriving Repr, DecidableEq

/-- **What a part reads as**: a column by its name, or the call of a function,
of which the spelling may differ in case. -/
inductive KeyPart.Reads : KeyPart → Expr → Prop
  | whole {name : Name} {direction : Option String} : Reads ⟨name, none, direction⟩ (.column name)
  | beginning {name : Name} {length text : String} {direction : Option String}
    (h : Text.sameIgnoringCase text (name.spelling ++ "(" ++ length ++ ")") = true) :
    Reads ⟨name, some length, direction⟩ (.other text)

/-- A part is kept under a name: that of its column, or a longer one. -/
structure KeyPart.IsKeptAs (part : KeyPart) (name : String) : Prop where
  whole : part.length = none → name = part.name.text
  beginning : part.length ≠ none → part.name.text.length < name.length

/-- Escaping makes no text shorter. -/
theorem length_le_escapeQuotes (quote : Char) (escaped : Bool) (cs : List Char) :
    cs.length ≤ (escapeQuotes quote escaped cs).length := by
  fun_induction escapeQuotes quote escaped cs
  case case1 | case3 => exact Nat.le_refl _
  case case2 => exact Nat.le_succ _
  case case4 ih | case5 ih => exact Nat.succ_le_succ ih
  case case6 ih => exact Nat.succ_le_succ (Nat.succ_le_succ ih)
  case case7 ih => exact Nat.le_succ_of_le (Nat.succ_le_succ ih)

theorem Name.length_le_spelling (n : Name) : n.text.length ≤ n.spelling.length := by
  rw [spelling]
  cases n.quote with
  | none => exact Nat.le_refl _
  | some quote =>
    have hescaped := length_le_escapeQuotes quote false n.text.toList
    simp only [enclosed, ← String.length_toList, String.toList_ofList, List.length_append,
      List.length_singleton]
    omega

theorem length_eq_of_sameIgnoringCase {a b : String} (h : Text.sameIgnoringCase a b = true) :
    a.length = b.length := by
  have hlength := congrArg List.length (Text.sameIgnoringCase_iff.1 h)
  rwa [List.length_map, List.length_map, String.length_toList, String.length_toList] at hlength

theorem KeyPart.Reads.isKeptAs {part : KeyPart} {e : Expr} (h : part.Reads e) :
    part.IsKeptAs (keyName e) := by
  cases h with
  | whole => exact ⟨fun _ => rfl, fun hlength => absurd rfl hlength⟩
  | @beginning name length text direction h =>
    refine ⟨nofun, fun _ => ?_⟩
    have hname := name.length_le_spelling
    have hparenthesis : "(".length = 1 := rfl
    show name.text.length < text.length
    rw [length_eq_of_sameIgnoringCase h]
    simp only [String.length_append]
    omega

/-! ## Rows -/

/-- The options that say whether a column may be null. The last one counts. -/
def ColumnOption.setsNull : ColumnOption → Bool
  | .null | .notNull | .primaryKey => true
  | _ => false

/-- What the options of a column say last of whether it may be null. -/
def ColumnDefinition.nullOption? (c : ColumnDefinition) : Option ColumnOption :=
  (c.options.filter ColumnOption.setsNull).getLast?

theorem nullable_foldl_apply (options : List ColumnOption) (row : RawColumn) :
    (options.foldl ColumnOption.apply row).nullable =
      (options.filter ColumnOption.setsNull).getLast?.elim row.nullable (· == .null) := by
  induction options using List.reverseRecOn with
  | nil => rfl
  | append_singleton options last ih =>
    rw [List.foldl_concat, List.filter_append]
    cases hlast : last.setsNull with
    | true =>
      rw [List.filter_cons_of_pos hlast, List.filter_nil, List.getLast?_concat]
      cases last <;> first | rfl | exact nomatch hlast
    | false =>
      rw [List.filter_cons_of_neg (by rw [hlast]; decide), List.filter_nil, List.append_nil, ← ih]
      cases last <;> first | rfl | exact nomatch hlast

theorem ColumnDefinition.nullable_row (table : TableRef) (c : ColumnDefinition) :
    (c.row table).nullable = c.nullOption?.elim true (· == .null) := by
  rw [row, nullable_foldl_apply, bareRow_eq, nullOption?]

/-- A column that is not declared `NULL` may be null unless an option says
otherwise. -/
theorem ColumnDefinition.nullable_row_eq_false_iff (table : TableRef) {c : ColumnDefinition}
    (hnull : c.nullOption? ≠ some .null) :
    (c.row table).nullable = false ↔ .notNull ∈ c.options ∨ .primaryKey ∈ c.options := by
  rw [nullable_row]
  cases hlast : c.nullOption? with
  | none =>
    rw [nullOption?, List.getLast?_eq_none_iff, List.filter_eq_nil_iff] at hlast
    refine iff_of_false nofun ?_
    rintro (hmem | hmem) <;> exact hlast _ hmem rfl
  | some last =>
    obtain ⟨hmem, hsets⟩ := List.mem_filter.1 (List.mem_of_getLast? hlast)
    rw [hlast] at hnull
    cases last with
    | notNull => exact iff_of_true rfl (.inl hmem)
    | primaryKey => exact iff_of_true rfl (.inr hmem)
    | null => exact absurd rfl hnull
    | default | comment | generated | autoIncrement | other => exact nomatch hsets

/-- A row that may not be null if its name is among some. -/
def exceptNull (names : List String) (row : RawColumn) : RawColumn :=
  { row with nullable := row.nullable && !names.contains row.name }

theorem exceptNull_of_not_mem {names : List String} {row : RawColumn} (h : row.name ∉ names) :
    exceptNull names row = row := by
  have hcontains : names.contains row.name = false := by simpa using h
  rw [exceptNull, hcontains, Bool.not_false, Bool.and_true]

/-- Of rows with different names the one of a name may not be null. -/
theorem forbidNull_eq_map {rows : List RawColumn} (hnames : (rows.map (·.name)).Nodup)
    (name : String) :
    forbidNull name rows = rows.map (exceptNull [name]) := by
  induction rows with
  | nil => rfl
  | cons row rows ih =>
    obtain ⟨hrow, hrows⟩ := List.nodup_cons.1 hnames
    rw [forbidNull, List.map_cons]
    by_cases hname : row.name = name
    · have hothers : rows.map (exceptNull [name]) = rows := by
        refine (List.map_congr_left fun other hother => exceptNull_of_not_mem fun hmem =>
          hrow ?_).trans (List.map_id _)
        show row.name ∈ rows.map (·.name)
        rw [hname, ← List.mem_singleton.1 hmem]
        exact List.mem_map_of_mem hother
      rw [if_pos (by simpa using hname), hothers, exceptNull]
      simp [hname]
    · rw [if_neg (by simpa using hname), ih hrows, exceptNull_of_not_mem (by simpa using hname)]

theorem map_name_exceptNull (names : List String) (rows : List RawColumn) :
    (rows.map (exceptNull names)).map (·.name) = rows.map (·.name) := by
  rw [List.map_map]
  rfl

theorem foldl_forbidNull {rows : List RawColumn} (hnames : (rows.map (·.name)).Nodup)
    (key : List String) :
    key.foldl (fun rows name => forbidNull name rows) rows = rows.map (exceptNull key) := by
  induction key generalizing rows with
  | nil =>
    exact ((List.map_congr_left fun row _ => exceptNull_of_not_mem List.not_mem_nil).trans
      (List.map_id _)).symm
  | cons name key ih =>
    have hforbidden : (((rows.map (exceptNull [name])).map (·.name))).Nodup := by
      rwa [map_name_exceptNull]
    rw [List.foldl_cons, forbidNull_eq_map hnames, ih hforbidden, List.map_map]
    refine List.map_congr_left fun row _ => ?_
    simp only [Function.comp_apply, exceptNull, List.contains_cons, List.contains_nil,
      Bool.or_false, Bool.not_or, Bool.and_assoc]

/-! ## Keys -/

/-- The table that a definition is of. -/
def TableDefinition.ref (t : TableDefinition) : TableRef :=
  tableRef t.path

/-- **How a key is declared**: by one column, or by one clause. -/
inductive TableDefinition.DeclaresKey (t : TableDefinition) : List KeyPart → Prop
  | column {c : ColumnDefinition} (hc : c ∈ t.columns) (hkey : .primaryKey ∈ c.options)
    (honly : ∀ d ∈ t.columns, .primaryKey ∈ d.options → d = c)
    (hclause : t.constraints.filter (· ≠ .other) = []) : DeclaresKey t [{ name := c.name }]
  | clause {parts : List KeyPart} {columns : List Expr}
    (hclause : t.constraints.filter (· ≠ .other) = [.primaryKey columns])
    (hreads : List.Forall₂ KeyPart.Reads parts columns)
    (hcolumns : ∀ c ∈ t.columns, .primaryKey ∉ c.options) : DeclaresKey t parts

/-- **A table has a key** of some parts, as the database accepts it. -/
structure TableDefinition.HasKey (t : TableDefinition) (parts : List KeyPart) : Prop where
  declared : t.DeclaresKey parts
  /-- The columns have different names. -/
  columns : t.columns.Pairwise fun c d => Text.sameIgnoringCase c.name.text d.name.text = false
  /-- So have the parts. -/
  distinct : parts.Pairwise fun a b => Text.sameIgnoringCase a.name.text b.name.text = false
  nonempty : parts ≠ []
  /-- Every part is a column, which is not declared `NULL`. -/
  present : ∀ part ∈ parts, ∃ c ∈ t.columns, Text.sameIgnoringCase c.name.text part.name.text = true
  nullOption : ∀ part ∈ parts, ∀ c ∈ t.columns,
    Text.sameIgnoringCase c.name.text part.name.text = true →
    c.nullOption? ≠ some .null
  /-- A key has some sixteen parts at most. -/
  short : parts.length < UInt16.size

/-- Constraints of other kinds do nothing. -/
theorem foldl_apply_constraints (constraints : List TableConstraint)
    (state : List RawColumn × List String) :
    constraints.foldl TableConstraint.apply state =
      (constraints.filter (· ≠ .other)).foldl TableConstraint.apply state := by
  induction constraints generalizing state with
  | nil => rfl
  | cons constraint constraints ih =>
    cases constraint with
    | primaryKey columns => exact ih _
    | other => exact ih _

/-- The only item with a property is the first that is found. -/
theorem find?_eq_some_of_unique {α : Type} {p : α → Bool} {items : List α} {a : α}
    (ha : a ∈ items) (hp : p a = true)
    (honly : ∀ b ∈ items, p b = true → b = a) : items.find? p = some a := by
  obtain ⟨b, hb⟩ := Option.isSome_iff_exists.1 (List.find?_isSome.2 ⟨a, ha, hp⟩)
  rw [hb, honly b (List.mem_of_find?_eq_some hb) (List.find?_some hb)]

/-- The key of the only column that declares one. -/
theorem declaredKey_eq {columns : List ColumnDefinition} {c : ColumnDefinition} (hc : c ∈ columns)
    (hkey : .primaryKey ∈ c.options) (honly : ∀ d ∈ columns, .primaryKey ∈ d.options → d = c) :
    declaredKey columns = [c.name.text] := by
  have hfind : columns.reverse.find? (·.options.contains .primaryKey) = some c :=
    find?_eq_some_of_unique (List.mem_reverse.2 hc) (List.contains_iff_mem.2 hkey) fun d hd hdkey =>
      honly d (List.mem_reverse.1 hd) (List.contains_iff_mem.1 hdkey)
  rw [declaredKey, hfind]

namespace TableDefinition

variable {t : TableDefinition} {parts : List KeyPart}

theorem schema_eq (t : TableDefinition) : (t.schema.columns, t.schema.primaryKey) =
    (t.constraints.filter (· ≠ .other)).foldl TableConstraint.apply
      (t.columns.map (·.row t.ref), declaredKey t.columns) := by
  rw [← foldl_apply_constraints, schema]
  rfl

namespace HasKey

variable (h : t.HasKey parts)
include h

/-- A name is that of one column. -/
theorem eq_of_name {c d : ColumnDefinition} (hc : c ∈ t.columns) (hd : d ∈ t.columns)
    (hname : Text.sameIgnoringCase c.name.text d.name.text = true) : c = d := by
  have hsymm : Std.Symm fun c d : ColumnDefinition =>
    Text.sameIgnoringCase c.name.text d.name.text = false :=
    ⟨fun c d hcd => (Text.sameIgnoringCase_comm _ _).trans hcd⟩
  by_contra hne
  exact Bool.eq_false_iff.1 (h.columns.forall hc hd hne) hname

/-- A name is that of one part. -/
theorem eq_of_part {a b : KeyPart} (ha : a ∈ parts) (hb : b ∈ parts)
    (hname : Text.sameIgnoringCase a.name.text b.name.text = true) : a = b := by
  have hsymm : Std.Symm fun a b : KeyPart =>
    Text.sameIgnoringCase a.name.text b.name.text = false :=
    ⟨fun a b hab => (Text.sameIgnoringCase_comm _ _).trans hab⟩
  by_contra hne
  exact Bool.eq_false_iff.1 (h.distinct.forall ha hb hne) hname

theorem nodup_names : ((t.columns.map (·.row t.ref)).map (·.name)).Nodup := by
  rw [List.map_map, List.Nodup, List.pairwise_map]
  refine h.columns.imp fun {c d} hcd heq => ?_
  simp only [Function.comp_apply, ColumnDefinition.name_row] at heq
  rw [heq, Text.sameIgnoringCase_self] at hcd
  exact Bool.noConfusion hcd

/-- **The rows of a table with a key.** -/
theorem columns_schema :
    t.schema.columns = (t.columns.map (·.row t.ref)).map (exceptNull t.schema.primaryKey) := by
  have hschema := t.schema_eq
  cases h.declared with
  | @column c hc hkey honly hclause =>
    rw [hclause, declaredKey_eq hc hkey honly] at hschema
    obtain ⟨hcolumns, hprimary⟩ := Prod.mk.inj hschema
    rw [hcolumns, hprimary]
    refine ((List.map_congr_left fun row hrow => ?_).trans (List.map_id _)).symm
    obtain ⟨d, hd, rfl⟩ := List.mem_map.1 hrow
    -- the column itself may not be null by its option
    by_cases hname : d.name.text = c.name.text
    · obtain rfl := h.eq_of_name hd hc (by rw [hname, Text.sameIgnoringCase_self])
      have hnull := (ColumnDefinition.nullable_row_eq_false_iff t.ref
        (h.nullOption _ List.mem_cons_self d hd (Text.sameIgnoringCase_self _))).2 (.inr hkey)
      rw [exceptNull, hnull, Bool.false_and, ← hnull]
      rfl
    · exact exceptNull_of_not_mem (by simpa using hname)
  | clause hclause hreads hcolumns =>
    rw [hclause] at hschema
    obtain ⟨hcolumns, hprimary⟩ := Prod.mk.inj hschema
    rw [hcolumns, hprimary]
    exact foldl_forbidNull h.nodup_names _

/-- **The names under which the parts are kept.** -/
theorem forall₂_primaryKey_schema : List.Forall₂ KeyPart.IsKeptAs parts t.schema.primaryKey := by
  have hschema := t.schema_eq
  cases h.declared with
  | @column c hc hkey honly hclause =>
    rw [hclause, declaredKey_eq hc hkey honly] at hschema
    rw [(Prod.mk.inj hschema).2]
    exact .cons ⟨fun _ => rfl, fun hlength => absurd rfl hlength⟩ .nil
  | clause hclause hreads hcolumns =>
    rw [hclause] at hschema
    rw [(Prod.mk.inj hschema).2]
    exact List.forall₂_map_right_iff.2 (hreads.imp fun _ _ hpart => hpart.isKeptAs)

/-- A column that declares the key is it. -/
theorem mem_primaryKey_of_option {c : ColumnDefinition} (hc : c ∈ t.columns)
    (hkey : .primaryKey ∈ c.options) :
    c.name.text ∈ t.schema.primaryKey := by
  have hschema := t.schema_eq
  cases h.declared with
  | column hd hdkey honly hclause =>
    rw [hclause, declaredKey_eq hd hdkey honly] at hschema
    rw [(Prod.mk.inj hschema).2, honly c hc hkey]
    exact List.mem_cons_self
  | clause _ _ hcolumns => exact absurd hkey (hcolumns c hc)

end HasKey

end TableDefinition

end TableMapper.Ddl
