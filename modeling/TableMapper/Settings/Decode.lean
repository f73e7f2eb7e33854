import TableMapper.ConfigText.Reader
import TableMapper.Settings.Basic

/-!
# Settings from a configuration text

Every setting is a field of the root table. A missing field takes its
default, a field of another type is a fault, and fields that no setting has
are passed over. A record may also be written as a list of its fields in
order.

A file of its own is read strictly. When file and environment are combined,
texts, numbers and truth values stand for each other where that makes sense,
because the environment knows texts only.
-/

namespace TableMapper.Settings

open ConfigText (Value Fields)

/-- Why a configuration text gives no settings. -/
inductive DecodeFault
  | malformed
  | missing (key : String)
  | mistyped (key : String)
deriving Repr, DecidableEq

/-- Which values are accepted as a text and as a truth value. -/
structure Coercion where
  text : Value → Option String
  boolean : Value → Option Bool

/-- Only a text is a text, only a truth value a truth value. -/
def Coercion.strict : Coercion where
  text
    | .text s => some s
    | _ => none
  boolean
    | .boolean b => some b
    | _ => none

/-- A decimal fraction is zero: no digit before its exponent counts. -/
def isZero (fraction : String) : Bool :=
  (fraction.toList.takeWhile fun c => c != 'e' && c != 'E').all
    fun c => c == '0' || c == '.' || c == '_' || c == '+' || c == '-'

/-- Scalars stand for each other. -/
def Coercion.lenient : Coercion where
  text
    | .text s => some s
    | .boolean b => some (if b then "true" else "false")
    | .integer n => some (toString n)
    | .fraction s => some s
    | .moment s => some s
    | _ => none
  boolean
    | .boolean b => some b
    | .integer n => some (n != 0)
    | .fraction s => some (!isZero s)
    | .text s =>
      match Text.asciiLower s with
      | "1" | "true" | "on" | "yes" => some true
      | "0" | "false" | "off" | "no" => some false
      | _ => none
    | _ => none

/-- A decoder of one kind of value; the key is for faults. -/
abbrev Decoder (α : Type) := String → Value → Except DecodeFault α

/-- A decoder by a coercion. -/
def ofCoercion {α : Type} (f : Value → Option α) : Decoder α := fun key v =>
  (f v).elim (.error (.mistyped key)) .ok

/-- A list decoded item by item. -/
def listOf {α : Type} (item : Decoder α) : Decoder (List α) := fun key v =>
  match v with
  | .list items => items.mapM (item key)
  | .tables items => items.mapM fun (origin, fields) => item key (.table origin fields)
  | _ => .error (.mistyped key)

/-- A field of a record, by its key or, in a list, by its place. -/
def field? (v : Value) (place : Nat) (key : String) : Except DecodeFault (Option Value) :=
  match v with
  | .table _ fields => .ok (fields.lookup key)
  | .list items => .ok items[place]?
  | .tables items => .ok (items[place]?.map fun (origin, fields) => .table origin fields)
  | _ => .error (.mistyped key)

/-- A field that must be there. -/
def required {α : Type} (item : Decoder α) (v : Value) (place : Nat) (key : String) :
    Except DecodeFault α := do
  match ← field? v place key with
  | none => throw (.missing key)
  | some inner => item key inner

/-- A field with a default. -/
def withDefault {α : Type} (item : Decoder α) (default : α) (v : Value) (place : Nat)
    (key : String) : Except DecodeFault α := do
  match ← field? v place key with
  | none => return default
  | some inner => item key inner

/-- A field that may be absent. -/
def optional {α : Type} (item : Decoder α) (v : Value) (place : Nat) (key : String) :
    Except DecodeFault (Option α) :=
  withDefault (fun key v => (item key v).map some) none v place key

/-- Pairs of texts in the order of their keys. -/
def textPairs (c : Coercion) : Decoder (List (String × String)) := fun key v =>
  match v with
  | .table _ fields => do
    let pairs ← fields.mapM fun (name, v) => do
      return (name, ← ofCoercion c.text key v)
    return pairs.mergeSort fun a b => !(b.1 < a.1)
  | _ => .error (.mistyped key)

section Records

variable (c : Coercion)

/-- A root class. -/
def rootClass : Decoder RootClass := fun _ v => do
  return {
    typeName := ← required (ofCoercion c.text) v 0 "type"
    properties := ← withDefault (listOf (ofCoercion c.text)) [] v 1 "properties" }

/-- An ignored column. -/
def ignoredColumn : Decoder IgnoredColumn := fun _ v => do
  return {
    column := ← required (ofCoercion c.text) v 0 "column"
    delimited := ← withDefault (ofCoercion c.boolean) false v 1 "delimited" }

/-- An ignore pattern. -/
def ignoredPattern : Decoder IgnoredPattern := fun _ v => do
  return {
    pattern := ← required (ofCoercion c.text) v 0 "pattern"
    except := ← withDefault (listOf (ofCoercion c.text)) [] v 1 "except" }

/-- A column override. -/
def columnOverride : Decoder ColumnOverride := fun _ v => do
  return {
    column := ← required (ofCoercion c.text) v 0 "column"
    property := ← optional (ofCoercion c.text) v 1 "property"
    javaType := ← optional (ofCoercion c.text) v 2 "java_type"
    jdbcType := ← optional (ofCoercion c.text) v 3 "jdbc_type"
    typeHandler := ← optional (ofCoercion c.text) v 4 "type_handler"
    generatedAlways := ← withDefault (ofCoercion c.boolean) false v 5 "generated_always"
    delimited := ← withDefault (ofCoercion c.boolean) false v 6 "delimited"
    properties := ← withDefault (textPairs c) [] v 7 "properties" }

/-- A generated key. -/
def generatedKey : Decoder GeneratedKey := fun _ v => do
  return {
    column := ← required (ofCoercion c.text) v 0 "column"
    statement := ← required (ofCoercion c.text) v 1 "statement"
    identity := ← withDefault (ofCoercion c.boolean) false v 2 "identity"
    timing := ← optional (ofCoercion c.text) v 3 "timing"
    delimited := ← withDefault (ofCoercion c.boolean) false v 4 "delimited" }

/-- A renaming rule. -/
def renamingRule : Decoder RenamingRule := fun _ v => do
  return {
    search := ← required (ofCoercion c.text) v 0 "search"
    replace := ← withDefault (ofCoercion c.text) "" v 1 "replace" }

/-- A soft-delete column. -/
def softDelete : Decoder SoftDelete := fun _ v => do
  return {
    column := ← required (ofCoercion c.text) v 0 "column"
    aliveValue := ← required (ofCoercion c.text) v 1 "alive_value" }

/-- A filter column. -/
def filterColumn : Decoder FilterColumn := fun _ v => do
  return {
    column := ← required (ofCoercion c.text) v 0 "column"
    multiValue := ← withDefault (ofCoercion c.boolean) false v 1 "multi_value" }

/-- A way to name properties. -/
def propertyNaming : Decoder Naming.Mode := fun key v =>
  match v with
  | .text "actual" => .ok .actual
  | .text "compound" => .ok .compound
  | .text "camel_case" => .ok .camelCase
  | _ => .error (.mistyped key)

/-- A table specification. -/
def tableSpec : Decoder TableSpec := fun _ v => do
  let text := ofCoercion c.text
  let flag := ofCoercion c.boolean
  return {
    catalog := ← optional text v 0 "catalog"
    schema := ← optional text v 1 "schema"
    tableName := ← required text v 2 "table_name"
    domainObjectName := ← optional text v 3 "domain_object_name"
    enableInsert := ← withDefault flag true v 4 "enable_insert"
    enableBatchInsert := ← withDefault flag true v 5 "enable_batch_insert"
    enableCount := ← withDefault flag true v 6 "enable_count"
    enableGetByQc := ← withDefault flag true v 7 "enable_get_by_qc"
    enableList := ← withDefault flag true v 8 "enable_list"
    enableUpdate := ← withDefault flag true v 9 "enable_update"
    enableBatchUpdate := ← withDefault flag true v 10 "enable_batch_update"
    ignoredColumns := ← withDefault (listOf (ignoredColumn c)) [] v 11 "ignored_columns"
    ignoredPatterns :=
      ← withDefault (listOf (ignoredPattern c)) [] v 12 "ignored_column_patterns"
    columnOverrides := ← withDefault (listOf (columnOverride c)) [] v 13 "column_overrides"
    generatedKey := ← optional (generatedKey c) v 14 "generated_key"
    domainObjectRenaming := ← optional (renamingRule c) v 15 "domain_object_renaming_rule"
    columnRenaming := ← optional (renamingRule c) v 16 "column_renaming_rule"
    propertyNaming := ← withDefault propertyNaming .camelCase v 17 "property_naming"
    softDelete := ← optional (softDelete c) v 18 "soft_delete"
    createdColumn := ← optional text v 19 "gmt_create_column"
    modifiedColumn := ← optional text v 20 "gmt_modified_column"
    filters := ← withDefault (listOf (filterColumn c)) [] v 21 "filters"
    orderByField := ← optional text v 22 "order_by_field"
    offsetField := ← optional text v 23 "offset_field"
    limitField := ← optional text v 24 "limit_field"
    delimitIdentifiers := ← withDefault flag false v 25 "delimit_identifiers"
    wildcardEscaping := ← withDefault flag false v 26 "wildcard_escaping" }

/-- **The settings of a root table.** -/
def decode (v : Value) : Except DecodeFault Settings := do
  let text := ofCoercion c.text
  let flag := ofCoercion c.boolean
  let d : Settings := {}
  return {
    schemaFile := ← withDefault text d.schemaFile v 0 "schema_file"
    targetProject := ← withDefault text d.targetProject v 1 "target_project"
    mapperProject := ← withDefault text d.mapperProject v 2 "sqlmap_target_project"
    modelPackage := ← withDefault text d.modelPackage v 3 "model_package"
    queryPackage := ← withDefault text d.queryPackage v 4 "query_package"
    clientPackage := ← withDefault text d.clientPackage v 5 "client_package"
    mapperPackage := ← withDefault text d.mapperPackage v 6 "sqlmap_package"
    merge := ← withDefault flag d.merge v 7 "merge"
    overwrite := ← withDefault flag d.overwrite v 8 "overwrite"
    constructorBased := ← withDefault flag d.constructorBased v 9 "constructor_based"
    immutable := ← withDefault flag d.immutable v 10 "immutable"
    serializable := ← withDefault flag d.serializable v 11 "serializable"
    recordRoot := ← optional (rootClass c) v 12 "record_root_class"
    queryRoot := ← optional text v 13 "query_root_class"
    useJavaTime := ← withDefault flag d.useJavaTime v 14 "use_java_time"
    forceBigDecimals := ← withDefault flag d.forceBigDecimals v 15 "force_big_decimals"
    plugins := ← withDefault (listOf text) [] v 16 "plugins"
    tables := ← withDefault (listOf (tableSpec c)) [] v 17 "tables"
    dryRun := ← withDefault flag d.dryRun v 18 "dry_run"
    logLevel := ← optional text v 19 "log_level" }

end Records

/-- **The settings of a configuration text**, read strictly. -/
def ofText (text : String) : Except DecodeFault Settings :=
  match ConfigText.read text with
  | none => .error .malformed
  | some fields => decode .strict (.table .header fields)

end TableMapper.Settings
