import TableMapper.Proofs.Ddl.KeyClause

/-!
# Key clauses as they are read

A part of a key is read as an expression: the name of a column, or the call
of a function, of which the only argument is the length. What makes it a part
comes behind the expression and is dropped. A direction begins no operator, so
the expression is over in front of it.

A name in backquotes is never read otherwise, and a bare one is not if it is
no word with a meaning of its own. So **a key clause is read part by part,
whatever the directions are** (`readsKey_of_isWritten`).
-/

namespace TableMapper

/-! ## Case -/

/-- Upper and lower case forget each other. -/
theorem Text.toLower_toUpper (c : Char) :
    c.toUpper.toLower = c.toLower ∧ c.toLower.toUpper = c.toUpper := by
  have htable : ∀ n < 128, (Char.ofNat n).toUpper.toLower = (Char.ofNat n).toLower ∧
      (Char.ofNat n).toLower.toUpper = (Char.ofNat n).toUpper := by decide
  by_cases h : c.toNat < 128
  · have hc := htable c.toNat h
    rwa [Char.ofNat_toNat] at hc
  · have hupper : c.toUpper = c := by
      unfold Char.toUpper
      split
      next hletter =>
        have hlast : c.toNat ≤ 122 := hletter.2
        omega
      next => rfl
    have hlower : c.toLower = c := by
      unfold Char.toLower
      split
      next hletter =>
        have hlast : c.toNat ≤ 90 := hletter.2
        omega
      next => rfl
    exact ⟨by rw [hupper], by rw [hlower]⟩

theorem Text.sameIgnoringCase_iff_asciiUpper {a b : String} :
    sameIgnoringCase a b = true ↔ asciiUpper a = asciiUpper b := by
  rw [sameIgnoringCase_iff]
  constructor
  · intro h
    have hupper := congrArg (List.map Char.toUpper) h
    simp only [List.map_map, Function.comp_def, fun c => (toLower_toUpper c).2] at hupper
    rw [asciiUpper, asciiUpper, hupper]
  · intro h
    have hlower := congrArg (fun text => text.toList.map Char.toLower) h
    simpa only [asciiUpper, String.toList_ofList, List.map_map, Function.comp_def,
      fun c => (toLower_toUpper c).1] using hlower

namespace Ddl

namespace Reading

variable {α β : Type} {token : Token} {tokens behind : List Token}

/-! ## One reading after another -/

theorem bind_apply (p : Reading α) (f : α → Reading β) (tokens : List Token) :
    (p >>= f) tokens = (p tokens).bind fun result => f result.1 result.2 := rfl

theorem pure_apply (a : α) (tokens : List Token) :
    (pure a : Reading α) tokens = some (a, tokens) := rfl

theorem peek_cons : peek (token :: behind) = some (some token, token :: behind) := rfl

theorem take_cons : take (token :: behind) = some (token, behind) := rfl

/-! ## Keywords -/

/-- A token begins no row of keywords if it is not the first of them. -/
theorem seesKeywords_of_not {keyword : String} (h : token.isKeyword keyword = false)
    (more : List String) :
    seesKeywords (keyword :: more) (token :: behind) = some (false, token :: behind) := by
  show some (_ && ((token, keyword) :: behind.zip more).all _, _) = _
  rw [List.all_cons]
  simp only [h, Bool.false_and, Bool.and_false]

theorem keywords?_of_not {keyword : String} (h : token.isKeyword keyword = false)
    (more : List String) :
    keywords? (keyword :: more) (token :: behind) = some (false, token :: behind) := by
  rw [keywords?, bind_apply, seesKeywords_of_not h]
  rfl

theorem keyword?_of_not {keyword : String} (h : token.isKeyword keyword = false) :
    keyword? keyword (token :: behind) = some (false, token :: behind) :=
  keywords?_of_not h []

theorem keyword?_of_isKeyword {keyword : String} (h : token.isKeyword keyword = true) :
    keyword? keyword (token :: behind) = some (true, behind) := by
  have hsees : seesKeywords [keyword] (token :: behind) = some (true, token :: behind) := by
    show some (decide (1 ≤ behind.length + 1) && ((token, keyword) :: behind.zip []).all _, _) = _
    rw [List.zip_nil_right, List.all_cons]
    simp [h]
  rw [keyword?, keywords?, bind_apply, hsees]
  rfl

theorem oneOf?_of_not {keywords : List String}
    (h : ∀ keyword ∈ keywords, token.isKeyword keyword = false) :
    oneOf? keywords (token :: behind) = some (none, token :: behind) := by
  induction keywords with
  | nil => rfl
  | cons keyword keywords ih =>
    obtain ⟨hfirst, hrest⟩ := List.forall_mem_cons.1 h
    rw [oneOf?, bind_apply, keyword?_of_not hfirst]
    exact ih hrest

theorem firstOf_of_not {rows : List (List String)}
    (h : ∀ row ∈ rows, ∃ keyword more, row = keyword :: more ∧ token.isKeyword keyword = false) :
    firstOf rows (token :: behind) = some (none, token :: behind) := by
  induction rows with
  | nil => rfl
  | cons row rows ih =>
    obtain ⟨⟨keyword, more, rfl, hfirst⟩, hrest⟩ := List.forall_mem_cons.1 h
    rw [firstOf, bind_apply, keywords?_of_not hfirst]
    exact ih hrest

/-! ## Symbols and repetitions -/

theorem symbol?_self (text : String) :
    symbol? text (.symbol text :: behind) = some (true, behind) := by
  rw [symbol?, bind_apply, peek_cons]
  show (if some (Token.symbol text) == some (Token.symbol text) then _ else _ : Reading Bool) _ = _
  rw [if_pos (beq_self_eq_true _)]
  rfl

theorem symbol?_of_ne {text : String} (h : token ≠ .symbol text) :
    symbol? text (token :: behind) = some (false, token :: behind) := by
  rw [symbol?, bind_apply, peek_cons]
  show (if some token == some (Token.symbol text) then _ else _ : Reading Bool) _ = _
  rw [if_neg (by simpa using h)]
  rfl

theorem symbol_self (text : String) : symbol text (.symbol text :: behind) = some ((), behind) := by
  rw [symbol, bind_apply, symbol?_self]
  rfl

theorem upTo_of_none {item? : Reading (Option α)} (h : item? tokens = some (none, tokens))
    (limit : Nat) :
    upTo item? limit tokens = some ([], tokens) := by
  cases limit with
  | zero => rfl
  | succ limit =>
    rw [upTo, bind_apply, h]
    rfl

theorem many_of_none {item? : Reading (Option α)} (h : item? tokens = some (none, tokens)) :
    many item? tokens = some ([], tokens) :=
  upTo_of_none h tokens.length

/-! ## Behind a part of a key -/

/-- **What may follow a part of a key**: a direction, or the end of the part. -/
inductive EndsPart : Token → Prop
  | comma : EndsPart (.symbol ",")
  | closing : EndsPart (.symbol ")")
  | direction {word : String} (h : Text.asciiUpper word ∈ ["ASC", "DESC"]) : EndsPart (.word word)

namespace EndsPart

variable (h : EndsPart token)
include h

theorem isKeyword_eq_false {keyword : String}
    (hkeyword : Text.asciiUpper keyword ∉ ["ASC", "DESC"]) :
    token.isKeyword keyword = false := by
  cases h with
  | comma | closing => rfl
  | direction hword =>
    refine Bool.eq_false_iff.2 fun htrue => hkeyword ?_
    rwa [← Text.sameIgnoringCase_iff_asciiUpper.1 htrue]

theorem ne_symbol {text : String} (htext : text ≠ "," ∧ text ≠ ")") : token ≠ .symbol text := by
  cases h with
  | comma => exact fun heq => htext.1 (Token.symbol.inj heq).symm
  | closing => exact fun heq => htext.2 (Token.symbol.inj heq).symm
  | direction => exact Token.noConfusion

/-- No operator comes next. -/
theorem nextLevel_eq (inDefinition : Bool) :
    nextLevel inDefinition (token :: behind) = some (.loosest, token :: behind) := by
  cases h with
  | comma | closing => rfl
  | direction hword =>
    simp only [List.mem_cons, List.not_mem_nil, or_false] at hword
    show (if Text.asciiUpper _ == "IS" then _ else _ : Reading Level) _ = _
    rcases hword with hword | hword <;> rw [hword] <;> rfl

theorem operations_eq (inner : Inner) (inDefinition : Bool) (limit : Nat) (e : Expr) :
    operations inner inDefinition .loosest limit e (token :: behind)
      = some (e, token :: behind) := by
  cases limit with
  | zero => rfl
  | succ limit =>
    rw [operations, bind_apply, h.nextLevel_eq]
    rfl

theorem collated_eq (e : Expr) :
    collated false e (token :: behind) = some (e, token :: behind) := by
  show (keyword? "COLLATE" >>= _ : Reading Expr) (token :: behind) = _
  rw [bind_apply, keyword?_of_not (h.isKeyword_eq_false (by decide +kernel))]
  rfl

end EndsPart

/-! ## Words -/

/-- The words that begin a type. -/
def typeWords : List String :=
  IntegerKind.all.map (·.keyword) ++ NumericKind.all.map (·.keyword) ++
    ColumnType.simple.map (·.1) ++
    ColumnType.measured ++
    ["DOUBLE", "REAL", "VARCHAR", "NVARCHAR", "CHARACTER", "CHAR", "VARBINARY", "BIT",
      "TIMESTAMP", "TIME", "ENUM", "SET", "SIGNED", "UNSIGNED", "INTERVAL"]

/-- The words that begin an expression of their own. -/
def expressionWords : List String :=
  ["TRUE", "FALSE", "NULL", "CURRENT_TIMESTAMP", "CURRENT_TIME", "CURRENT_DATE", "LOCALTIME",
    "LOCALTIMESTAMP", "CASE", "CAST", "CONVERT", "EXISTS", "EXTRACT", "CEIL", "FLOOR", "POSITION",
    "SUBSTR", "SUBSTRING", "TRIM",
    "INTERVAL", "NOT"]

/-- **A word without a meaning of its own.** -/
def IsPlainWord (word : String) : Prop :=
  Text.asciiUpper word ∉ typeWords ++ expressionWords

theorem builtinType?_of_not_mem {keyword : String} (h : keyword ∉ typeWords) (behind : List Token) :
    builtinType? keyword behind = some (none, behind) := by
  have hnone : ∀ {α : Type} {kinds : List α} {keywordOf : α → String},
      keyword ∉ kinds.map keywordOf →
      kinds.find? (keywordOf · == keyword) = none := fun hnot =>
    List.find?_eq_none.2 fun kind hkind hkeyword =>
      hnot (List.mem_map.2 ⟨kind, hkind, beq_iff_eq.1 hkeyword⟩)
  simp only [typeWords, List.mem_append, not_or] at h
  obtain ⟨⟨⟨⟨hinteger, hnumeric⟩, hsimple⟩, hmeasured⟩, hother⟩ := h
  have hlookup : ColumnType.simple.lookup keyword = none :=
    List.lookup_eq_none_iff.2 fun entry hentry =>
      bne_iff_ne.2 fun heq => hsimple (List.mem_map.2 ⟨entry, hentry, heq.symm⟩)
  have hdouble : keyword ≠ "DOUBLE" := fun heq => hother (heq ▸ List.mem_cons_self)
  rw [builtinType?, hnone hinteger, hnone hnumeric, hlookup, if_neg (by simpa using hdouble),
    if_neg (by simpa using hmeasured)]
  · rfl
  -- the keywords that are told apart last
  all_goals
    rintro rfl
    exact absurd hother (by decide)

theorem wordExpression?_of_not_mem (inner : Inner) (inDefinition : Bool) {word : String}
    (h : Text.asciiUpper word ∉ expressionWords) (behind : List Token) :
    wordExpression? inner inDefinition word behind = some (none, behind) := by
  rw [wordExpression?]
  generalize Text.asciiUpper word = keyword at h
  split
  case h_22 => rfl
  all_goals exact absurd h (by decide)

end Reading

/-- The token of a name. -/
def Name.token (n : Name) : Token :=
  n.quote.elim (.word n.text) fun _ => .quotedWord n.text

/-- **A name as it is written**: in backquotes, or bare. -/
inductive Name.IsWritten : Name → Prop
  | quoted {text : String} : IsWritten ⟨text, some '\x60'⟩
  | bare {text : String} (h : Reading.IsPlainWord text) : IsWritten ⟨text, none⟩

namespace Reading

variable {token : Token} {tokens behind : List Token}

/-! ## Names and numbers as expressions -/

variable (inner : Inner)

/-- The type of a name is no literal. -/
theorem attempt_typedLiteral (inDefinition : Bool) (hcustom : columnType tokens =
    (path >>= fun path => arguments? >>= fun arguments => pure (.custom path arguments) :
      Reading ColumnType) tokens) :
    attempt (typedLiteral inner inDefinition) tokens = some (none, tokens) := by
  have hnone : typedLiteral inner inDefinition tokens = none := by
    rw [typedLiteral, bind_apply, hcustom, bind_apply]
    cases path tokens with
    | none => rfl
    | some result =>
      rw [Option.bind_some, bind_apply]
      cases arguments? result.2 with
      | none => rfl
      | some arguments => rfl
  rw [attempt, hnone]

/-- **A written name begins an expression as a plain word.** -/
theorem primary_token {name : Name} (h : name.IsWritten) (inDefinition : Bool)
    (behind : List Token) :
    primary inner inDefinition (name.token :: behind)
      = plainWord inner inDefinition name behind := by
  cases h with
  | quoted =>
    rw [primary, bind_apply, attempt_typedLiteral inner inDefinition rfl]
    rfl
  | @bare text h =>
    obtain ⟨htype, hexpression⟩ := not_or.1 (List.mem_append.not.1 h)
    have hcustom : columnType (.word text :: behind) =
        (path >>= fun path => arguments? >>= fun arguments => pure (.custom path arguments) :
          Reading ColumnType)
          (.word text :: behind) := by
      rw [columnType, bind_apply, bind_apply, peek_cons, Option.bind_some]
      show ((take >>= _ : Reading (Option ColumnType)) _).bind _ = _
      rw [bind_apply, take_cons, Option.bind_some, bind_apply, builtinType?_of_not_mem htype]
      rfl
    have hattempt : attempt (wordExpression? inner inDefinition text) behind
        = some (some none, behind) := by
      rw [attempt, wordExpression?_of_not_mem inner inDefinition hexpression]
    rw [primary, Name.token, bind_apply]
    show (attempt (typedLiteral inner inDefinition) (.word text :: behind)).bind _ = _
    rw [attempt_typedLiteral inner inDefinition hcustom]
    show wordExpression inner inDefinition text behind = _
    rw [wordExpression, bind_apply, hattempt]
    rfl

namespace EndsPart

variable (h : EndsPart token)
include h

theorem qualified_eq (inDefinition : Bool) (e : Expr) :
    qualified inner inDefinition e (token :: behind) = some (e, token :: behind) := by
  cases e with
  | other text => rfl
  | column first =>
    rw [qualified, bind_apply, many_of_none]
    · rfl
    · rw [bind_apply, symbol?_of_ne (h.ne_symbol (by decide))]
      rfl

/-- **An expression is over with its first part.** -/
theorem expressionOver_eq {e : Expr}
    (hprimary : primary inner false tokens = some (e, token :: behind)) :
    expressionOver inner false .loosest tokens = some (e, token :: behind) := by
  rw [expressionOver, bind_apply, hprimary]
  show (qualified inner false e >>= fun e => collated false e >>= fun e =>
    (get : Reading (List Token)) >>= fun tokens =>
      operations inner false .loosest tokens.length e : Reading Expr)
      (token :: behind) = _
  rw [bind_apply, h.qualified_eq, Option.bind_some, bind_apply, h.collated_eq]
  exact h.operations_eq inner false _ e

theorem plainWord_eq (name : Name) :
    plainWord inner false name (token :: behind) = some (.column name, token :: behind) := by
  cases h <;> rfl

end EndsPart

theorem plainWord_opened (name : Name) :
    plainWord inner false name (.symbol "(" :: behind)
      = call inner false [name] (.symbol "(" :: behind) := by
  rw [plainWord, bind_apply, peek_cons, Option.bind_some]
  rfl

/-- A number is spelled as it is written. -/
theorem nestedText_number (depth : Nat) (digits : String) :
    nestedText (.upTo (depth + 1)) false (.number digits false :: .symbol ")" :: behind) =
      some (digits, .symbol ")" :: behind) := by
  have hexpression : nested (.upTo (depth + 1)) false
      (.number digits false :: .symbol ")" :: behind) =
      some (.other digits, .symbol ")" :: behind) :=
    EndsPart.closing.expressionOver_eq (.upTo depth) rfl
  rw [nestedText, bind_apply, hexpression]
  rfl

theorem argument_number (depth : Nat) (digits : String) :
    argument (.upTo (depth + 1)) false (.number digits false :: .symbol ")" :: behind) =
      some (digits, .symbol ")" :: behind) := by
  have hargument : argument (.upTo (depth + 1)) false
      (.number digits false :: .symbol ")" :: behind) =
      (nestedText (.upTo (depth + 1)) false >>= fun text => pure ("" ++ text) : Reading String)
        (.number digits false :: .symbol ")" :: behind) := rfl
  rw [hargument, bind_apply, nestedText_number, Option.bind_some, pure_apply, String.empty_append]

theorem commaSeparated_argument_number (depth : Nat) (digits : String) :
    commaSeparated (argument (.upTo (depth + 1)) false)
      (.number digits false :: .symbol ")" :: behind) =
      some ([digits], .symbol ")" :: behind) := by
  rw [commaSeparated, bind_apply, argument_number, Option.bind_some, bind_apply, many_of_none]
  · rfl
  · rw [bind_apply, symbol?_of_ne (by decide)]
    rfl

/-- A call with one number. -/
theorem callArguments_number (depth : Nat) (digits : String) :
    callArguments (.upTo (depth + 1)) false (.number digits false :: .symbol ")" :: behind) =
      some (digits ++ ")", behind) := by
  have hsees : ∀ keyword, seesKeywords [keyword] (.number digits false :: .symbol ")" :: behind) =
      some (false, .number digits false :: .symbol ")" :: behind) :=
    fun keyword => seesKeywords_of_not rfl []
  have hopen : symbol? ")" (.number digits false :: .symbol ")" :: behind) =
      some (false, .number digits false :: .symbol ")" :: behind) := symbol?_of_ne Token.noConfusion
  rw [callArguments, bind_apply, hopen, Option.bind_some]
  show (seesQuery >>= _ : Reading String) _ = _
  rw [bind_apply, seesQuery, bind_apply, hsees, Option.bind_some, bind_apply, hsees]
  show (oneOf? ["DISTINCT", "ALL"] >>= _ : Reading String) _ = _
  rw [bind_apply, oneOf?_of_not (by simp [Token.isKeyword]), Option.bind_some]
  show (commaSeparated (argument (.upTo (depth + 1)) false) >>= _ : Reading String) _ = _
  rw [bind_apply, commaSeparated_argument_number, Option.bind_some]
  rw [bind_apply, bind_apply, keywords?_of_not rfl, Option.bind_some]
  show ((keyword? "SEPARATOR" >>= _ : Reading String) >>= _ : Reading String) _ = _
  rw [bind_apply, bind_apply, keyword?_of_not rfl, Option.bind_some]
  show (symbol ")" >>= _ : Reading String) _ = _
  rw [bind_apply, symbol_self, Option.bind_some, pure_apply]
  simp

/-! ## Parts of a key -/

/-- A direction that is written, or none. -/
def IsDirection (direction : Option String) : Prop :=
  ∀ word ∈ direction, Text.asciiUpper word ∈ ["ASC", "DESC"]

/-- What stands between the parts of a key, or behind the last one. -/
def IsClosing (token : Token) : Prop :=
  token = .symbol "," ∨ token = .symbol ")"

theorem oneOf?_direction {word : String} (h : Text.asciiUpper word ∈ ["ASC", "DESC"])
    (behind : List Token) :
    ∃ keyword, oneOf? ["ASC", "DESC"] (.word word :: behind) = some (some keyword, behind) := by
  have hkeyword : ∀ keyword, Text.asciiUpper word = Text.asciiUpper keyword →
      (Token.word word).isKeyword keyword = true :=
    fun keyword => Text.sameIgnoringCase_iff_asciiUpper.2
  by_cases hasc : Text.asciiUpper word = "ASC"
  · refine ⟨"ASC", ?_⟩
    rw [oneOf?, bind_apply, keyword?_of_isKeyword (hkeyword "ASC" (hasc.trans (by decide +kernel)))]
    rfl
  · have hdesc : Text.asciiUpper word = "DESC" := by simpa [hasc] using h
    have hnot : (Token.word word).isKeyword "ASC" = false := by
      refine Bool.eq_false_iff.2 fun htrue => hasc ?_
      exact (Text.sameIgnoringCase_iff_asciiUpper.1 htrue).trans (by decide +kernel)
    refine ⟨"DESC", ?_⟩
    rw [oneOf?, bind_apply, keyword?_of_not hnot]
    show (oneOf? ["DESC"]) _ = _
    rw [oneOf?, bind_apply,
      keyword?_of_isKeyword (hkeyword "DESC" (hdesc.trans (by decide +kernel)))]
    rfl

/-- **A direction is read and dropped.** -/
theorem indexColumn_of_expression {e : Expr} {direction : Option String}
    (hdirection : IsDirection direction)
    (hclosing : IsClosing token)
    (hexpression : expression tokens = some (e, direction.toList.map .word ++ token :: behind)) :
    indexColumn tokens = some (e, token :: behind) := by
  have hnulls : firstOf [["NULLS", "FIRST"], ["NULLS", "LAST"]] (token :: behind)
      = some (none, token :: behind) := by
    refine firstOf_of_not fun row hrow => ?_
    rcases hclosing with rfl | rfl <;> simp at hrow <;> rcases hrow with rfl | rfl <;>
      exact ⟨_, _, rfl, rfl⟩
  rw [indexColumn, bind_apply, hexpression, Option.bind_some]
  show (peek >>= _ : Reading Expr) _ = _
  cases direction with
  | none =>
    have hpath : attempt path (token :: behind) = some (none, token :: behind) := by
      rcases hclosing with rfl | rfl <;> rfl
    have hnone : oneOf? ["ASC", "DESC"] (token :: behind) = some (none, token :: behind) := by
      refine oneOf?_of_not fun keyword _ => ?_
      rcases hclosing with rfl | rfl <;> rfl
    have htry : (attempt path >>= fun _ => oneOf? ["ASC", "DESC"] >>= fun _ =>
        firstOf [["NULLS", "FIRST"], ["NULLS", "LAST"]] >>= fun _ => pure e : Reading Expr)
          (token :: behind) =
          some (e, token :: behind) := by
      rw [bind_apply, hpath, Option.bind_some, bind_apply, hnone,
        Option.bind_some, bind_apply, hnulls]
      rfl
    rw [← htry]
    rcases hclosing with rfl | rfl <;> rfl
  | some word =>
    have hword := hdirection word rfl
    obtain ⟨keyword, hread⟩ := oneOf?_direction hword (token :: behind)
    have hlisted : (!(["ASC", "DESC", "NULLS", "WITH"].contains (Text.asciiUpper word)))
        = false := by
      simp only [List.mem_cons, List.not_mem_nil, or_false] at hword
      rcases hword with hword | hword <;> rw [hword] <;> rfl
    rw [bind_apply]
    show (if !(["ASC", "DESC", "NULLS", "WITH"].contains (Text.asciiUpper word)) then _ else _ :
        Reading Expr) _ = _
    rw [hlisted, if_neg Bool.false_ne_true]
    show (oneOf? ["ASC", "DESC"] >>= _ : Reading Expr) (.word word :: token :: behind) = _
    rw [bind_apply, hread, Option.bind_some]
    show (firstOf _ >>= _ : Reading Expr) (token :: behind) = _
    rw [bind_apply, hnulls]
    rfl

end Reading

namespace KeyPart

/-- The column of a part, and how much of it counts. -/
def columnTokens (part : KeyPart) : List Token :=
  part.name.token :: part.length.elim [] fun digits =>
    [.symbol "(", .number digits false, .symbol ")"]

/-- **A part as it is written.** -/
def tokens (part : KeyPart) : List Token :=
  part.columnTokens ++ part.direction.toList.map .word

/-- The name can be written so, and the direction is one. -/
structure IsWritten (part : KeyPart) : Prop where
  name : part.name.IsWritten
  direction : Reading.IsDirection part.direction

/-- The expression that a part is. -/
def expr (part : KeyPart) : Expr :=
  match part.length with
  | none => .column part.name
  | some length => .other (part.name.spelling ++ "(" ++ length ++ ")")

theorem reads_expr (part : KeyPart) : part.Reads part.expr := by
  obtain ⟨name, length, direction⟩ := part
  cases length with
  | none => exact .whole
  | some length => exact .beginning (Text.sameIgnoringCase_self _)

end KeyPart

namespace Reading

variable {token : Token} {tokens behind : List Token} {part : KeyPart} {parts : List KeyPart}

theorem expression_columnTokens (hname : part.name.IsWritten) (hend : EndsPart token) :
    expression (part.columnTokens ++ token :: behind) = some (part.expr, token :: behind) := by
  obtain ⟨name, length, direction⟩ := part
  show expressionOver (.upTo 48) false .loosest _ = _
  refine hend.expressionOver_eq (.upTo 48) ?_
  cases length with
  | none =>
    show primary _ false (name.token :: token :: behind) = _
    rw [primary_token _ hname, hend.plainWord_eq]
    rfl
  | some digits =>
    show primary _ false
        (name.token :: .symbol "(" :: .number digits false :: .symbol ")" :: token :: behind) = _
    rw [primary_token _ hname, plainWord_opened, call, bind_apply, symbol_self, Option.bind_some,
      bind_apply, callArguments_number, Option.bind_some, pure_apply]
    simp [KeyPart.expr, Name.path, String.append_assoc]

/-- **A part of a key is read**, whatever its direction. -/
theorem indexColumn_keyPart (h : part.IsWritten) (hclosing : IsClosing token) :
    indexColumn (part.tokens ++ token :: behind) = some (part.expr, token :: behind) := by
  refine indexColumn_of_expression h.direction hclosing ?_
  rw [KeyPart.tokens, List.append_assoc]
  cases hdirection : part.direction with
  | none =>
    refine expression_columnTokens h.name ?_
    rcases hclosing with rfl | rfl
    · exact .comma
    · exact .closing
  | some word => exact expression_columnTokens h.name (.direction (h.direction word hdirection))

/-! ## Key clauses -/

/-- The parts of a key behind the first. -/
def moreTokens (parts : List KeyPart) : List Token :=
  parts.flatMap fun part => .symbol "," :: part.tokens

/-- The parts of a key with commas between them. -/
def clauseTokens : List KeyPart → List Token
  | [] => []
  | first :: rest => first.tokens ++ moreTokens rest

/-- Behind a part comes the comma in front of the next one, or the end. -/
theorem exists_isClosing (parts : List KeyPart) (behind : List Token) :
    ∃ token rest, IsClosing token ∧ moreTokens parts ++ .symbol ")" :: behind = token :: rest := by
  cases parts with
  | nil => exact ⟨_, _, .inr rfl, rfl⟩
  | cons part parts => exact ⟨_, _, .inl rfl, rfl⟩

theorem indexColumn_moreTokens (h : part.IsWritten) (parts : List KeyPart) (behind : List Token) :
    indexColumn (part.tokens ++ (moreTokens parts ++ .symbol ")" :: behind)) =
      some (part.expr, moreTokens parts ++ .symbol ")" :: behind) := by
  obtain ⟨token, rest, hclosing, heq⟩ := exists_isClosing parts behind
  rw [heq]
  exact indexColumn_keyPart h hclosing

/-- A part behind a comma, or nothing. -/
def nextPart? : Reading (Option Expr) := do
  if ← symbol? "," then return some (← indexColumn) else return none

/-- **The parts behind the first are read one by one.** -/
theorem upTo_nextPart? (h : ∀ part ∈ parts, part.IsWritten) {limit : Nat}
    (hlimit : parts.length ≤ limit)
    (behind : List Token) : upTo nextPart? limit (moreTokens parts ++ .symbol ")" :: behind) =
      some (parts.map KeyPart.expr, .symbol ")" :: behind) := by
  induction parts generalizing limit with
  | nil =>
    have hend : symbol? "," (.symbol ")" :: behind) = some (false, .symbol ")" :: behind) :=
      symbol?_of_ne (by decide)
    refine upTo_of_none ?_ limit
    show nextPart? (.symbol ")" :: behind) = _
    rw [nextPart?, bind_apply, hend]
    rfl
  | cons part parts ih =>
    obtain ⟨hpart, hparts⟩ := List.forall_mem_cons.1 h
    obtain ⟨limit, rfl⟩ := Nat.exists_eq_add_one_of_ne_zero (Nat.ne_zero_of_lt hlimit)
    have hnext : nextPart? (moreTokens (part :: parts) ++ .symbol ")" :: behind) =
        some (some part.expr, moreTokens parts ++ .symbol ")" :: behind) := by
      have htokens : moreTokens (part :: parts) ++ .symbol ")" :: behind =
          .symbol "," :: (part.tokens ++ (moreTokens parts ++ .symbol ")" :: behind)) := by
        simp [moreTokens]
      rw [htokens, nextPart?, bind_apply, symbol?_self]
      show (indexColumn >>= _ : Reading (Option Expr)) _ = _
      rw [bind_apply, indexColumn_moreTokens hpart]
      rfl
    rw [upTo, bind_apply, hnext]
    show (upTo nextPart? limit >>= _ : Reading (List Expr)) _ = _
    rw [bind_apply, ih hparts (Nat.le_of_succ_le_succ hlimit)]
    rfl

theorem length_le_moreTokens (parts : List KeyPart) : parts.length ≤ (moreTokens parts).length := by
  induction parts with
  | nil => exact Nat.le_refl _
  | cons part parts ih =>
    rw [moreTokens, List.flatMap_cons, List.length_append, List.length_cons,
      List.length_cons, ← moreTokens]
    omega

/-- **A key clause is read part by part**, whatever the directions. -/
theorem indexColumns_clauseTokens (hne : parts ≠ []) (h : ∀ part ∈ parts, part.IsWritten)
    (behind : List Token) :
    indexColumns (.symbol "(" :: clauseTokens parts ++ .symbol ")" :: behind) =
      some (parts.map KeyPart.expr, behind) := by
  obtain ⟨first, rest, rfl⟩ := List.exists_cons_of_ne_nil hne
  obtain ⟨hfirst, hrest⟩ := List.forall_mem_cons.1 h
  have hlimit : rest.length ≤ (moreTokens rest ++ Token.symbol ")" :: behind).length := by
    rw [List.length_append]
    exact Nat.le_trans (length_le_moreTokens rest) (Nat.le_add_right _ _)
  have hmany : many nextPart? (moreTokens rest ++ .symbol ")" :: behind) =
      some (rest.map KeyPart.expr, .symbol ")" :: behind) := upTo_nextPart? hrest hlimit behind
  have hread : commaSeparated indexColumn
      (first.tokens ++ (moreTokens rest ++ .symbol ")" :: behind)) =
      some ((first :: rest).map KeyPart.expr, .symbol ")" :: behind) := by
    rw [commaSeparated, bind_apply, indexColumn_moreTokens hfirst, Option.bind_some]
    show (many nextPart? >>= _ : Reading (List Expr)) _ = _
    rw [bind_apply, hmany]
    rfl
  rw [indexColumns, parenthesized, clauseTokens, List.cons_append, bind_apply, symbol_self,
    Option.bind_some, List.append_assoc, bind_apply, hread, Option.bind_some,
    bind_apply, symbol_self]
  rfl

/-- Behind the columns of a key nothing more is read of it. -/
theorem indexOptions_of_isClosing (hclosing : IsClosing token) :
    indexOptions (token :: behind) = some ((), token :: behind) := by
  have hnot : ∀ keyword, token.isKeyword keyword = false :=
    fun keyword => by rcases hclosing with rfl | rfl <;> rfl
  rw [indexOptions, bind_apply, many_of_none]
  · rfl
  · rw [bind_apply, keyword?_of_not (hnot _)]
    show (keyword? "COMMENT" >>= _ : Reading (Option Unit)) (token :: behind) = _
    rw [bind_apply, keyword?_of_not (hnot _)]
    rfl

theorem characteristics_of_isClosing (hclosing : IsClosing token) :
    characteristics (token :: behind) = some ((), token :: behind) := by
  have hnot : ∀ keyword, token.isKeyword keyword = false :=
    fun keyword => by rcases hclosing with rfl | rfl <;> rfl
  rw [characteristics, bind_apply, many_of_none]
  · rfl
  · refine firstOf_of_not fun row hrow => ?_
    simp only [List.mem_cons, List.not_mem_nil, or_false] at hrow
    rcases hrow with rfl | rfl | rfl | rfl | rfl | rfl <;> exact ⟨_, _, rfl, hnot _⟩

theorem index_clauseTokens (hne : parts ≠ []) (h : ∀ part ∈ parts, part.IsWritten)
    (hclosing : IsClosing token) :
    index (.symbol "(" :: clauseTokens parts ++ .symbol ")" :: token :: behind) =
      some (parts.map KeyPart.expr, token :: behind) := by
  have hname : attempt name (.symbol "(" :: clauseTokens parts ++ .symbol ")" :: token :: behind) =
      some (none, .symbol "(" :: clauseTokens parts ++ .symbol ")" :: token :: behind) := rfl
  have hmethod : indexMethod (.symbol "(" :: clauseTokens parts ++ .symbol ")" :: token :: behind) =
      some ((), .symbol "(" :: clauseTokens parts ++ .symbol ")" :: token :: behind) := by
    rw [indexMethod, List.cons_append, bind_apply, keyword?_of_not rfl]
    rfl
  rw [index, bind_apply, hname, Option.bind_some, bind_apply, hmethod, Option.bind_some, bind_apply,
    indexColumns_clauseTokens hne h, Option.bind_some, bind_apply,
    indexOptions_of_isClosing hclosing]
  rfl

/-- A key clause behind its first two words. -/
def keyClause (primary key : String) (parts : List KeyPart) : List Token :=
  .word primary :: .word key :: .symbol "(" :: clauseTokens parts ++ [.symbol ")"]

/-- **A key clause is a constraint over its parts.** -/
theorem constraint?_primaryKey (hne : parts ≠ []) (h : ∀ part ∈ parts, part.IsWritten)
    (hclosing : IsClosing token)
    {primary key : String} (hprimary : (Token.word primary).isKeyword "PRIMARY" = true)
    (hkey : (Token.word key).isKeyword "KEY" = true) (behind : List Token) :
    constraint? (keyClause primary key parts ++ token :: behind) =
      some (some (.primaryKey (parts.map KeyPart.expr)), token :: behind) := by
  have hnot : ∀ keyword, Text.asciiUpper keyword ≠ Text.asciiUpper "PRIMARY" →
      (Token.word primary).isKeyword keyword = false :=
    fun keyword hother => Bool.eq_false_iff.2 fun htrue =>
    hother ((Text.sameIgnoringCase_iff_asciiUpper.1 htrue).symm.trans
      (Text.sameIgnoringCase_iff_asciiUpper.1 hprimary))
  have hkeywords : ∀ tokens, keywords ["KEY"] (.word key :: tokens) = some ((), tokens) := by
    intro tokens
    show (keyword? "KEY" >>= _ : Reading Unit) _ = _
    rw [bind_apply, keyword?_of_isKeyword hkey]
    rfl
  rw [keyClause, List.cons_append, List.cons_append, List.append_assoc, List.singleton_append,
    constraint?, bind_apply, keyword?_of_not (hnot _ (by decide +kernel)), Option.bind_some]
  show namedConstraint? false _ = _
  rw [namedConstraint?, bind_apply, keyword?_of_not (hnot _ (by decide +kernel)), Option.bind_some]
  show (keyword? "PRIMARY" >>= _ : Reading (Option TableConstraint)) _ = _
  rw [bind_apply, keyword?_of_isKeyword hprimary, Option.bind_some]
  show (keywords ["KEY"] >>= _ : Reading (Option TableConstraint)) _ = _
  rw [bind_apply, List.cons_append, hkeywords, Option.bind_some, bind_apply,
    index_clauseTokens hne h hclosing, Option.bind_some, bind_apply,
    characteristics_of_isClosing hclosing]
  rfl

/-- **A clause is read as a key of its parts**, whatever comes behind it. -/
def ReadsKey (parts : List KeyPart) : Prop :=
  ∀ primary key, (Token.word primary).isKeyword "PRIMARY" = true →
    (Token.word key).isKeyword "KEY" = true →
    ∀ token behind, IsClosing token → ∃ columns,
      constraint? (keyClause primary key parts ++ token :: behind) =
        some (some (.primaryKey columns), token :: behind) ∧
        List.Forall₂ KeyPart.Reads parts columns

theorem readsKey_of_isWritten (hne : parts ≠ []) (h : ∀ part ∈ parts, part.IsWritten) :
    ReadsKey parts :=
  fun _ _ hprimary hkey _ behind hclosing =>
    ⟨_, constraint?_primaryKey hne h hclosing hprimary hkey behind,
      List.forall₂_map_right_iff.2 (List.forall₂_same.2 fun part _ => part.reads_expr)⟩

end Reading

end Ddl

end TableMapper
