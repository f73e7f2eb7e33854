import TableMapper.Ddl.Schema
import TableMapper.Table.Column

/-!
# Names between backquotes

MySQL lets any character stand in a name between backquotes, if a backquote
is doubled. A script is read that way (`scanText`): from two backquotes the
name gets one. **What is read as a name is its text with every backquote
doubled** (`scanText_eq_some_iff`), so no text is read as two different names.

Names are written into SQL between backquotes too, those of tables part by
part and those of columns alone, but nothing is doubled there. **A name that
is written is read back exactly if it holds no backquote** (`readsBack_iff`):
dots, blanks and all other characters do no harm, while a backquote ends the
name early or loses itself. What one part of a name loses no other part can
make up for, since what is read tells how long the text was. Scripts can
declare such names (`not_readsBack`).
-/

namespace TableMapper

namespace Ddl

/-- A text with every quote doubled. -/
def doubled (quote : Char) (name : List Char) : List Char :=
  name.flatMap fun c => if c = quote then [c, c] else [c]

/-- A name between backquotes, as MySQL has it. -/
def quoted (name : List Char) : List Char :=
  '\x60' :: (doubled '\x60' name ++ ['\x60'])

/-- The name between backquotes at the beginning of a text, and what follows
it. -/
def leadingName? : List Char → Option (List Char × List Char)
  | [] => none
  | c :: rest => if c = '\x60' then scanText '\x60' false rest else none

section

variable {quote c : Char} {cs name rest : List Char} {names : List (List Char)}

/-! ## Doubled quotes -/

theorem doubled_cons_self (quote : Char) (name : List Char) :
    doubled quote (quote :: name) = quote :: quote :: doubled quote name := by
  rw [doubled, List.flatMap_cons, if_pos rfl]
  rfl

theorem doubled_cons_of_ne (hc : c ≠ quote) (name : List Char) :
    doubled quote (c :: name) = c :: doubled quote name := by
  rw [doubled, List.flatMap_cons, if_neg hc]
  rfl

/-- A text without quotes stays as it is. -/
theorem doubled_eq_self (h : quote ∉ name) : doubled quote name = name := by
  induction name with
  | nil => rfl
  | cons c name ih =>
    rw [List.mem_cons, not_or] at h
    rw [doubled_cons_of_ne (Ne.symm h.1), ih h.2]

/-- Every quote adds one character. -/
theorem length_doubled (quote : Char) (name : List Char) :
    (doubled quote name).length = name.length + name.count quote := by
  induction name with
  | nil => rfl
  | cons c name ih =>
    by_cases hc : c = quote
    · rw [hc, doubled_cons_self, List.count_cons_self, List.length_cons,
        List.length_cons, List.length_cons, ih]
      omega
    · rw [doubled_cons_of_ne hc, List.count_cons_of_ne hc, List.length_cons, List.length_cons, ih]
      omega

/-! ## One name -/

/-- What has been read is a text with its quotes doubled. -/
theorem eq_of_scanText (h : scanText quote false cs = some (name, rest)) :
    cs = doubled quote name ++ quote :: rest ∧ rest.head? ≠ some quote := by
  fun_induction scanText quote false cs generalizing name with
  | case1 => cases h
  | case2 c hc =>
    cases h
    rw [eq_of_beq hc]
    exact ⟨rfl, nofun⟩
  | case3 => cases h
  | case4 c d cs hc hd ih =>
    obtain ⟨⟨text, behind⟩, hread, heq⟩ := Option.map_eq_some_iff.1 h
    cases heq
    obtain ⟨rfl, hbehind⟩ := ih hread
    rw [doubled_cons_self, eq_of_beq hc, eq_of_beq hd]
    exact ⟨rfl, hbehind⟩
  | case5 c d cs hc hd =>
    cases h
    rw [eq_of_beq hc]
    exact ⟨rfl, fun hhead => hd (beq_iff_eq.2 (Option.some.inj hhead))⟩
  | case6 c d cs hc hescapes ih => simp at hescapes
  | case7 c d cs hc hescapes ih =>
    obtain ⟨⟨text, behind⟩, hread, heq⟩ := Option.map_eq_some_iff.1 h
    cases heq
    obtain ⟨hcut, hbehind⟩ := ih hread
    rw [doubled_cons_of_ne (fun heq => hc (beq_iff_eq.2 heq)), List.cons_append, ← hcut]
    exact ⟨rfl, hbehind⟩

/-- A text with its quotes doubled is read up to the quote behind it. -/
theorem scanText_doubled (h : rest.head? ≠ some quote) :
    scanText quote false (doubled quote name ++ quote :: rest) = some (name, rest) := by
  induction name with
  | nil =>
    show scanText quote false (quote :: rest) = _
    cases rest with
    | nil => rw [scanText, if_pos (beq_self_eq_true quote)]
    | cons d rest =>
      rw [scanText, if_pos (beq_self_eq_true quote), if_neg]
      exact fun hd => h (congrArg some (eq_of_beq hd))
  | cons c name ih =>
    by_cases hc : c = quote
    · rw [hc, doubled_cons_self, List.cons_append, List.cons_append, scanText,
        if_pos (beq_self_eq_true quote), if_pos (beq_self_eq_true quote), ih]
      rfl
    · obtain ⟨d, more, hmore⟩ : ∃ d more, doubled quote name ++ quote :: rest = d :: more :=
        List.exists_cons_of_ne_nil (by simp)
      rw [doubled_cons_of_ne hc, List.cons_append, hmore, scanText, if_neg (by simpa using hc),
        if_neg (by simp), ← hmore, ih]
      rfl

/-- **A name is read up to the first quote that is not doubled.** -/
theorem scanText_eq_some_iff : scanText quote false cs = some (name, rest) ↔
    cs = doubled quote name ++ quote :: rest ∧ rest.head? ≠ some quote := by
  refine ⟨eq_of_scanText, ?_⟩
  rintro ⟨rfl, hrest⟩
  exact scanText_doubled hrest

theorem leadingName?_eq_some_iff :
    leadingName? cs = some (name, rest) ↔ cs = quoted name ++ rest ∧ rest.head? ≠ some '\x60' := by
  cases cs with
  | nil => simp [leadingName?, quoted]
  | cons c cs =>
    rw [leadingName?, quoted]
    split
    next hc =>
      rw [scanText_eq_some_iff, hc, List.cons_append, List.cons.injEq, List.append_assoc]
      simp
    next hc => simp [hc]

theorem leadingName?_length (h : leadingName? cs = some (name, rest)) :
    rest.length < cs.length := by
  rw [(leadingName?_eq_some_iff.1 h).1, quoted, List.cons_append,
    List.length_cons, List.length_append]
  omega

end

/-! ## Names with dots between them -/

/-- The names of a list with dots, each between backquotes. -/
def dottedFrom? (cs : List Char) : Option (List (List Char)) :=
  match _h : leadingName? cs with
  | some (name, []) => some [name]
  | some (name, c :: behind) => if c = '.' then (dottedFrom? behind).map (name :: ·) else none
  | none => none
termination_by cs.length
decreasing_by
  have hlength := leadingName?_length _h
  rw [List.length_cons] at hlength
  omega

section

variable {cs : List Char} {names : List (List Char)}

theorem dottedFrom?_last {name : List Char} (h : leadingName? cs = some (name, [])) :
    dottedFrom? cs = some [name] := by
  rw [dottedFrom?]
  split <;> simp_all

theorem dottedFrom?_dot {name behind : List Char}
    (h : leadingName? cs = some (name, '.' :: behind)) :
    dottedFrom? cs = (dottedFrom? behind).map (name :: ·) := by
  rw [dottedFrom?]
  split
  · simp_all
  next second c rest hread =>
    rw [h] at hread
    cases hread
    rw [if_pos rfl]
  · simp_all

theorem eq_of_dottedFrom? (h : dottedFrom? cs = some names) :
    names ≠ [] ∧ cs = ['.'].intercalate (names.map quoted) := by
  fun_induction dottedFrom? cs generalizing names with
  | case1 cs name hname =>
    cases h
    rw [(leadingName?_eq_some_iff.1 hname).1]
    exact ⟨List.cons_ne_nil _ _, by simp⟩
  | case2 cs name behind hname ih =>
    obtain ⟨more, hmore, rfl⟩ := Option.map_eq_some_iff.1 h
    obtain ⟨hne, hcut⟩ := ih hmore
    obtain ⟨second, more, rfl⟩ := List.exists_cons_of_ne_nil hne
    rw [(leadingName?_eq_some_iff.1 hname).1, hcut, List.map_cons, List.map_cons, List.map_cons,
      List.intercalate_cons_cons]
    exact ⟨List.cons_ne_nil _ _, by simp⟩
  | case3 => cases h
  | case4 => cases h

theorem dottedFrom?_intercalate (h : names ≠ []) :
    dottedFrom? (['.'].intercalate (names.map quoted)) = some names := by
  induction names with
  | nil => exact absurd rfl h
  | cons name names ih =>
    cases names with
    | nil => exact dottedFrom?_last (leadingName?_eq_some_iff.2 ⟨by simp, nofun⟩)
    | cons second names =>
      rw [List.map_cons, List.map_cons, List.intercalate_cons_cons, List.append_assoc,
        ← List.map_cons, List.singleton_append,
        dottedFrom?_dot (leadingName?_eq_some_iff.2 ⟨rfl, by simp⟩), ih (List.cons_ne_nil _ _)]
      rfl

/-- **A list with dots is read as the names that it is made of.** -/
theorem dottedFrom?_eq_some_iff :
    dottedFrom? cs = some names ↔ names ≠ [] ∧ cs = ['.'].intercalate (names.map quoted) :=
  ⟨eq_of_dottedFrom?, fun ⟨hne, hcut⟩ => hcut ▸ dottedFrom?_intercalate hne⟩

end

/-! ## Names as they are written -/

/-- **The names that a text writes between backquotes**, with dots between
them. -/
def dottedNames? (s : String) : Option (List String) :=
  (dottedFrom? s.toList).map (·.map String.ofList)

/-- **The name that a text writes between backquotes.** -/
def quotedName? (s : String) : Option String :=
  match dottedNames? s with
  | some [name] => some name
  | _ => none

theorem dottedNames?_eq_some_iff {s : String} {names : List String} :
    dottedNames? s = some names ↔
      names ≠ [] ∧ s.toList = ['.'].intercalate (names.map fun name => quoted name.toList) := by
  rw [dottedNames?, Option.map_eq_some_iff]
  constructor
  · rintro ⟨found, hfound, rfl⟩
    obtain ⟨hne, hcut⟩ := dottedFrom?_eq_some_iff.1 hfound
    exact ⟨by simpa using hne, by simpa [Function.comp_def] using hcut⟩
  · rintro ⟨hne, hcut⟩
    refine ⟨names.map String.toList, dottedFrom?_eq_some_iff.2 ⟨by simpa using hne, ?_⟩, by simp⟩
    rw [hcut, List.map_map]
    rfl

theorem quotedName?_eq_some_iff {s name : String} :
    quotedName? s = some name ↔ dottedNames? s = some [name] := by
  unfold quotedName?
  split <;> simp_all

/-- Without its backquotes doubled a name is shorter by their number. -/
theorem length_quoted (name : String) : (quoted name.toList).length
    = (TableRef.delimited name).toList.length + name.toList.count '\x60' := by
  have hquote : "`".toList.length = 1 := rfl
  rw [quoted, TableRef.delimited, String.toList_append, String.toList_append]
  simp only [List.length_cons, List.length_append, length_doubled, hquote, List.length_nil]
  omega

theorem length_intercalate_quoted (names : List String) :
    (['.'].intercalate (names.map fun name => quoted name.toList)).length
      = (".".intercalate (names.map TableRef.delimited)).toList.length
        + (names.flatMap String.toList).count '\x60' := by
  rw [String.toList_intercalate]
  induction names with
  | nil => rfl
  | cons name names ih =>
    cases names with
    | nil => simp [length_quoted]
    | cons second names =>
      have hdot : ".".toList = ['.'] := rfl
      simp only [List.map_cons, List.intercalate_cons_cons, List.length_append, List.flatMap_cons,
        List.count_append, hdot] at ih ⊢
      rw [ih, length_quoted]
      omega

/-- **Names between backquotes are read back exactly if they hold none.** -/
theorem dottedNames?_delimited_iff {names : List String} (h : names ≠ []) :
    dottedNames? (".".intercalate (names.map TableRef.delimited)) = some names ↔
      ∀ name ∈ names, '\x60' ∉ name.toList := by
  rw [dottedNames?_eq_some_iff, and_iff_right h]
  constructor
  · intro hcut name hname hquote
    have hlength := length_intercalate_quoted names
    rw [← hcut] at hlength
    have hcount : (names.flatMap String.toList).count '\x60' = 0 := by omega
    exact List.count_eq_zero.1 hcount (List.mem_flatMap.2 ⟨name, hname, hquote⟩)
  · intro hnone
    have hsame : ∀ name ∈ names, (TableRef.delimited name).toList = quoted name.toList := by
      intro name hname
      rw [quoted, doubled_eq_self (hnone name hname), TableRef.delimited,
        String.toList_append, String.toList_append]
      rfl
    have hdot : ".".toList = ['.'] := rfl
    rw [String.toList_intercalate, List.map_map, hdot]
    exact congrArg _ (List.map_congr_left hsame)

end Ddl

open Ddl

/-- **Which names read back.** The parts of a delimited table name, and the
name of a delimited column, are read back exactly if they hold no backquote. -/
theorem delimited_readsBack_iff (t : TableRef) {c : ColumnModel} (hc : c.delimited = true) :
    (dottedNames? (t.runtimeName true) = some t.parts ↔ ∀ part ∈ t.parts, '\x60' ∉ part.toList) ∧
      (quotedName? c.escapedName = some c.actualName ↔ '\x60' ∉ c.actualName.toList) := by
  have hparts : t.parts ≠ [] := by simp [TableRef.parts]
  have hname : c.escapedName = ".".intercalate ([c.actualName].map TableRef.delimited) := by
    rw [ColumnModel.escapedName, if_pos hc]
    simp
  refine ⟨dottedNames?_delimited_iff hparts, ?_⟩
  rw [quotedName?_eq_some_iff, hname, dottedNames?_delimited_iff (List.cons_ne_nil _ _),
    List.forall_mem_singleton]

/-- A delimited column with a given name. -/
def delimitedColumn (name : String) : ColumnModel where
  actualName := name
  property := "total"
  javaType := .named "java.lang.Integer"
  jdbcType := "INTEGER"
  nullable := true
  primaryKey := false
  keySequence := 0
  largeObject := false
  keyGeneration := .notGenerated
  generatedAlways := false
  typeHandler := none
  properties := []
  remarks := none
  defaultValue := none
  length := 0
  scale := 0
  delimited := true

/-- Dots and blanks are part of a name. -/
theorem delimited_readsBack_shop : (delimitedColumn "grand total").delimited = true ∧
    dottedNames? (TableRef.runtimeName ⟨some "shop.eu", none, "order lines"⟩ true)
      = some ["shop.eu", "order lines"] ∧
      quotedName? (delimitedColumn "grand total").escapedName = some "grand total" := by
  obtain ⟨htable, hcolumn⟩ :=
    delimited_readsBack_iff ⟨some "shop.eu", none, "order lines"⟩
      (c := delimitedColumn "grand total") rfl
  exact ⟨rfl, htable.2 (by decide +kernel), hcolumn.2 (by decide +kernel)⟩

/-- A script may declare a table and a column with a backquote in their
names. Neither name is read back where it is written. -/
theorem not_delimited_readsBack :
    (schema? "create table `a``b` (`c``d` int)").map (·.map fun t => (t.table, t.columns.map RawColumn.name))
      = some [(.plain "a`b", ["c`d"])] ∧
    dottedNames? ((TableRef.plain "a`b").runtimeName true) ≠ some ["a`b"] ∧
      quotedName? (delimitedColumn "c`d").escapedName ≠ some "c`d" := by
  obtain ⟨htable, hcolumn⟩ :=
    delimited_readsBack_iff (.plain "a`b") (c := delimitedColumn "c`d") rfl
  exact ⟨by decide +kernel, mt htable.1 (by decide +kernel), mt hcolumn.1 (by decide +kernel)⟩

end TableMapper
