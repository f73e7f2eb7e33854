import Mathlib.Data.List.Infix
import TableMapper.Artifact.Fragments
import TableMapper.Proofs.Text.Trimming

/-!
# What a statement refers to

A statement of a mapper document names properties of its parameter: in a
`#{..}` or `${..}` of its text, in a `test`, as the `collection` of a loop
and as a `keyProperty`. **`Refers` says which properties these are**, with
the included pieces followed and the variables of loops resolved. A reading
of the text is composed of readings of its parts (`Reads.append`), and a part
that opens no parameter names nothing (`reads_inert`).
-/

namespace TableMapper.Reference

open Markup (Element Node Document)

/-! ## Parameters in a text -/

/-- How far a parameter has been read. -/
inductive Reading
  | text
  /-- Behind a backslash, which keeps a parameter from being opened. -/
  | escaped
  /-- Behind the first character of an opening. -/
  | opening
  /-- In a parameter, of which this much has been read. -/
  | inside (held : List Char)

/-- The reading behind a character outside of parameters. -/
def Reading.outside (c : Char) : Reading :=
  if c = '\\' then .escaped else if c = '#' ∨ c = '$' then .opening else .text

/-- The name in a parameter: what precedes its clauses. -/
def parameterName (held : List Char) : String :=
  String.ofList (held.takeWhile (· != ','))

/-- The names of the parameters that are closed from a reading on. -/
def parametersFrom : Reading → List Char → List String
  | _, [] => []
  | .text, c :: rest => parametersFrom (.outside c) rest
  | .escaped, c :: rest => parametersFrom (if c = '\\' then .escaped else .text) rest
  | .opening, c :: rest => parametersFrom (if c = '\x7b' then .inside [] else .outside c) rest
  | .inside held, c :: rest =>
    if c = '\x7d' then parameterName held :: parametersFrom .text rest
    else parametersFrom (.inside (held ++ [c])) rest

/-- **The names in the parameters of a text.** -/
def parameters (s : String) : List String :=
  parametersFrom .text s.toList

/-! ## Properties compared in a test -/

/-- The words in front of a comparison with nothing, and those whose size is
compared. -/
def comparedWords : List String → List String
  | word :: operator :: rest =>
    (if operator = "!=" then [word]
      else if operator = ">" then
        [String.ofList (word.toList.take (word.toList.length - ".size()".length))]
      else []) ++ comparedWords (operator :: rest)
  | _ => []

/-- **The paths compared in a test.** -/
def compared (test : String) : List String :=
  comparedWords (Text.splitAt ' ' test)

/-! ## References of a node -/

/-- **The property that a path leads to**, unless it is a variable itself: a
variable in front is removed. -/
def propertyIn (scope : List String) (path : String) : Option String :=
  if path ∈ scope then none
  else
    match scope.find? fun owner => (owner ++ ".").toList.isPrefixOf path.toList with
    | some owner => some (String.ofList (path.toList.drop (owner ++ ".").toList.length))
    | none => some path

/-- The variables that an element introduces. -/
def variablesOf (name : String) (attributes : List (String × String)) : List String :=
  if name = "foreach" then (attributes.lookup "item").toList ++
    (attributes.lookup "index").toList else []

/-- The paths in the attributes of an element. -/
def attributePaths (attributes : List (String × String)) : List String :=
  (attributes.lookup "test").toList.flatMap compared ++ (attributes.lookup "collection").toList

/-- **A node refers to a property**, under some variables. -/
inductive Refers (document : Document) : List String → Node → String → Prop
  | parameter {scope : List String} {s path property : String} (hpath : path ∈ parameters s)
      (hproperty : propertyIn scope path = some property) : Refers document scope (.text s) property
  | read {scope : List String} {name : String} {attributes : List (String × String)}
      {children : List Node}
      {path property : String} (hpath : path ∈ attributePaths attributes)
      (hproperty : propertyIn scope path = some property) :
      Refers document scope (.element name attributes children) property
  /-- A key is stored in a property of what is inserted. -/
  | key {scope : List String} {name : String} {attributes : List (String × String)}
      {children : List Node}
      {property : String} (hkey : attributes.lookup "keyProperty" = some property) :
      Refers document scope (.element name attributes children) property
  | child {scope : List String} {name : String} {attributes : List (String × String)}
      {children : List Node}
      {node : Node} {property : String} (hnode : node ∈ children)
      (hrefers : Refers document (variablesOf name attributes ++ scope) node property) :
      Refers document scope (.element name attributes children) property
  | inclusion {scope : List String} {attributes : List (String × String)}
      {children : List Node} {id : String}
      {piece : Element} {property : String} (hid : attributes.lookup "refid" = some id)
      (hpiece : document.root.elementById? id = some piece)
        (hrefers : Refers document scope piece.toNode property) :
      Refers document scope (.element "include" attributes children) property

/-! ## Reading a text part by part -/

/-- **A part of a text is read on its own**: it holds these parameters,
whatever follows. -/
def Reads (cs : List Char) (names : List String) : Prop :=
  ∀ rest, parametersFrom .text (cs ++ rest) = names ++ parametersFrom .text rest

/-- A text in which no parameter opens. -/
def Inert (cs : List Char) : Prop :=
  ¬ ['#', '\x7b'] <:+: cs ∧ ¬ ['$', '\x7b'] <:+: cs

instance (cs : List Char) : Decidable (Inert cs) :=
  inferInstanceAs (Decidable (_ ∧ _))

section

variable {cs ds path clauses : List Char} {names more : List String} {c : Char}

theorem Reads.parameters_eq {s : String} (h : Reads s.toList names) : parameters s = names := by
  have hs := h []
  rwa [List.append_nil, parametersFrom, List.append_nil] at hs

theorem reads_nil : Reads [] [] :=
  fun _ => rfl

theorem Reads.append (h : Reads cs names) (h' : Reads ds more) :
    Reads (cs ++ ds) (names ++ more) := by
  intro rest
  rw [List.append_assoc, h, h', List.append_assoc]

/-- Parts with a separator between two of them. -/
theorem Reads.intercalate {separator : List Char} (hseparator : Reads separator [])
    {α : Type} {f : α → List Char}
    {g : α → List String} {items : List α} (h : ∀ a ∈ items, Reads (f a) (g a)) :
    Reads (separator.intercalate (items.map f)) (items.flatMap g) := by
  induction items with
  | nil => exact reads_nil
  | cons a items ih =>
    obtain ⟨ha, hitems⟩ := List.forall_mem_cons.1 h
    cases items with
    | nil => simpa using ha
    | cons b items =>
      rw [List.map_cons, List.map_cons, List.intercalate_cons_cons,
        List.append_assoc, List.flatMap_cons]
      exact ha.append (hseparator.append (ih hitems))

/-- A character that opens nothing joins two texts. -/
theorem Inert.append_cons (h : Inert cs) (h' : Inert ds) (hc : c ∉ ['#', '$', '\x7b']) :
    Inert (cs ++ c :: ds) := by
  simp only [List.mem_cons, List.not_mem_nil, or_false, not_or] at hc
  have hjoin : ∀ opening, opening ≠ c → ¬ [opening, '\x7b'] <:+: cs → ¬ [opening, '\x7b'] <:+: ds →
      ¬ [opening, '\x7b'] <:+: cs ++ c :: ds := by
    intro opening hopening hcs hds hin
    clear h
    induction cs with
    | nil =>
      rcases List.infix_cons_iff.1 hin with hprefix | hin
      · exact hopening (List.cons_prefix_cons.1 hprefix).1
      · exact hds hin
    | cons d cs ih =>
      rcases List.infix_cons_iff.1 hin with hprefix | hin
      · obtain ⟨rfl, hnext⟩ := List.cons_prefix_cons.1 hprefix
        cases cs with
        | nil => exact hc.2.2 (List.cons_prefix_cons.1 hnext).1.symm
        | cons d' cs =>
          obtain rfl := (List.cons_prefix_cons.1 hnext).1
          exact hcs ⟨[], cs, rfl⟩
      · exact ih (fun h => hcs (h.trans (List.suffix_cons d cs).isInfix)) hin
  exact ⟨hjoin '#' (Ne.symm hc.1) h.1 h'.1, hjoin '$' (Ne.symm hc.2.1) h.2 h'.2⟩

/-- Texts in a list. -/
theorem Inert.intercalate {texts : List String} (h : ∀ s ∈ texts, Inert s.toList) :
    Inert (", ".intercalate texts).toList := by
  rw [String.toList_intercalate]
  induction texts with
  | nil => decide
  | cons s texts ih =>
    obtain ⟨hs, htexts⟩ := List.forall_mem_cons.1 h
    cases texts with
    | nil => simpa using hs
    | cons s' texts =>
      rw [List.map_cons, List.map_cons, List.intercalate_cons_cons, List.append_assoc]
      exact hs.append_cons
        (Inert.append_cons (show Inert [] by decide) (ih htexts) (by decide)) (by decide)

theorem Inert.of_cons (h : Inert (c :: cs)) : Inert cs :=
  ⟨fun hin => h.1 (hin.trans (List.suffix_cons c cs).isInfix),
    fun hin => h.2 (hin.trans (List.suffix_cons c cs).isInfix)⟩

theorem Inert.of_append_right (h : Inert (cs ++ ds)) : Inert ds :=
  ⟨fun hin => h.1 (hin.trans (List.suffix_append cs ds).isInfix),
    fun hin => h.2 (hin.trans (List.suffix_append cs ds).isInfix)⟩

/-- The readings between parameters, in front of a text that opens none. -/
def Between (state : Reading) (cs : List Char) : Prop :=
  state = .text ∨ state = .escaped ∨ state = .opening ∧ cs.head? ≠ some '\x7b'

theorem Inert.between_outside (h : Inert (c :: cs)) : Between (.outside c) cs := by
  rw [Reading.outside]
  split
  next => exact .inr (.inl rfl)
  next =>
    split
    next hopens =>
      refine .inr (.inr ⟨rfl, fun hhead => ?_⟩)
      obtain ⟨tail, rfl⟩ : ∃ tail, cs = '\x7b' :: tail := by
        cases cs with
        | nil => cases hhead
        | cons d tail => exact ⟨tail, by rw [Option.some_inj.1 hhead]⟩
      rcases hopens with rfl | rfl
      · exact h.1 ⟨[], tail, rfl⟩
      · exact h.2 ⟨[], tail, rfl⟩
    next => exact .inl rfl

/-- A separator ends what could have become an opening. -/
theorem parametersFrom_separator {state : Reading} (hstate : Between state [c])
    (hc : c ∉ ['\\', '#', '$', '\x7b']) (rest : List Char) :
    parametersFrom state (c :: rest) = parametersFrom .text rest := by
  simp only [List.mem_cons, List.not_mem_nil, or_false, not_or] at hc
  obtain ⟨hbackslash, hhash, hdollar, hbrace⟩ := hc
  have houtside : Reading.outside c = .text := by
    rw [Reading.outside, if_neg hbackslash, if_neg (by simp [hhash, hdollar])]
  rcases hstate with rfl | rfl | ⟨rfl, -⟩
  · rw [parametersFrom, houtside]
  · rw [parametersFrom, if_neg hbackslash]
  · rw [parametersFrom, if_neg hbrace, houtside]

/-- **In a text without openings no parameter is entered.** -/
theorem exists_between (h : Inert cs) {state : Reading} (hstate : Between state cs) :
    ∃ state', Between state' [] ∧ ∀ rest,
    parametersFrom state (cs ++ rest) = parametersFrom state' rest := by
  induction cs generalizing state with
  | nil => exact ⟨state, hstate, fun _ => rfl⟩
  | cons d cs ih =>
    rcases hstate with rfl | rfl | ⟨rfl, hhead⟩
    · exact ih h.of_cons h.between_outside
    · have hnext : Between (if d = '\\' then .escaped else .text) cs := by
        split
        · exact .inr (.inl rfl)
        · exact .inl rfl
      exact ih h.of_cons hnext
    · obtain ⟨state', hstate', hread⟩ := ih h.of_cons h.between_outside
      refine ⟨state', hstate', fun rest => ?_⟩
      rw [List.cons_append, parametersFrom, if_neg fun hd => hhead (by rw [hd]; rfl), hread]

/-- **A part that opens no parameter**, up to a separator. -/
theorem reads_inert (h : Inert cs) (hc : c ∉ ['\\', '#', '$', '\x7b']) : Reads (cs ++ [c]) [] := by
  intro rest
  obtain ⟨state, hstate, hread⟩ := exists_between h (.inl rfl)
  rw [List.append_assoc, hread, List.singleton_append, List.nil_append]
  refine parametersFrom_separator (hstate.imp_right (.imp_right fun h => ⟨h.1, ?_⟩)) hc rest
  simpa using fun hbrace : c = '\x7b' => hc (by simp [hbrace])

/-- A text without openings has no parameters. -/
theorem parameters_inert {s : String} (h : Inert s.toList) : parameters s = [] := by
  obtain ⟨state, -, hread⟩ := exists_between h (.inl rfl)
  rw [parameters, ← List.append_nil s.toList, hread, parametersFrom.eq_def]

/-- The inside of a parameter is held until it is closed. -/
theorem parametersFrom_inside (h : '\x7d' ∉ cs) (held rest : List Char) :
    parametersFrom (.inside held) (cs ++ '\x7d' :: rest) =
      parameterName (held ++ cs) :: parametersFrom .text rest := by
  induction cs generalizing held with
  | nil => rw [List.nil_append, parametersFrom, if_pos rfl, List.append_nil]
  | cons c cs ih =>
    obtain ⟨hc, hcs⟩ := List.ne_and_not_mem_of_not_mem_cons h
    rw [List.cons_append, parametersFrom, if_neg hc.symm, ih hcs, List.append_assoc,
      List.singleton_append]

/-- **A parameter is read as its path.** Clauses behind a comma may close it
early; they open no other. -/
theorem reads_parameter {opening : Char} (hopening : opening = '#' ∨ opening = '$')
    (path : List Char)
    {clauses : List Char} (hpath : ∀ c ∈ path, c ≠ ',' ∧ c ≠ '\x7d')
    (hclauses : clauses.head?.all (· = ',')) (hinert : Inert clauses) :
    Reads (opening :: '\x7b' :: path ++ clauses ++ ['\x7d']) [String.ofList path] := by
  intro rest
  have hopen : parametersFrom .text (opening :: '\x7b' :: path ++ clauses ++ ['\x7d'] ++ rest) =
      parametersFrom (.inside []) (path ++ (clauses ++ '\x7d' :: rest)) := by
    rcases hopening with rfl | rfl <;> simp [parametersFrom, Reading.outside]
  have hclosed : '\x7d' ∉ path := fun hmem => (hpath _ hmem).2 rfl
  have hname : ∀ inside : List Char, inside.head?.all (· = ',') →
      parameterName (path ++ inside) = String.ofList path := by
    intro inside hinside
    have hpass : ∀ c ∈ path, (c != ',') = true := fun c hc => by simpa using (hpath c hc).1
    rw [parameterName, List.takeWhile_append_of_pos hpass]
    cases inside with
    | nil => simp
    | cons c inside =>
      obtain rfl : c = ',' := by simpa using hinside
      simp
  rw [hopen]
  by_cases hearly : '\x7d' ∈ clauses
  case neg =>
    rw [← List.append_assoc, parametersFrom_inside (by simp [hclosed, hearly]),
      List.nil_append, hname _ hclauses]
    rfl
  case pos =>
    obtain ⟨front, back, rfl, hfront⟩ := List.eq_append_cons_of_mem hearly
    have hback : Inert back := (hinert.of_append_right).of_cons
    have hhead : front.head?.all (· = ',') := by
      cases front with
      | nil => rfl
      | cons c front => exact hclauses
    have hrest := reads_inert (c := '\x7d') hback (by decide) rest
    rw [List.append_assoc, List.singleton_append, List.nil_append] at hrest
    rw [List.append_assoc, List.cons_append, ← List.append_assoc,
      parametersFrom_inside (by simp [hclosed, hfront]), List.nil_append, hname _ hhead, hrest]
    rfl

end

/-! ## Reading a test -/

/-- A name that parameters and tests show whole. -/
def Nameable (name : String) : Prop :=
  ∀ c ∈ name.toList, c ∉ [' ', ',', '\x7d', '!', '>']

instance (name : String) : Decidable (Nameable name) :=
  inferInstanceAs (Decidable (∀ c ∈ name.toList, c ∉ [' ', ',', '\x7d', '!', '>']))

section

variable {path other : String}

theorem Nameable.append (h : Nameable path) (h' : Nameable other) : Nameable (path ++ other) := by
  intro c hc
  rw [String.toList_append] at hc
  rcases List.mem_append.1 hc with hc | hc
  · exact h c hc
  · exact h' c hc

/-- A nameable text is no operator. -/
theorem Nameable.ne_operator (h : Nameable path) : path ≠ "!=" ∧ path ≠ ">" := by
  constructor
  · rintro rfl
    exact h '!' (by decide) (by decide)
  · rintro rfl
    exact h '>' (by decide) (by decide)

/-- A first word is read up to the blank behind it. -/
theorem splitAt_append (h : ' ' ∉ path.toList) (rest : String) :
    Text.splitAt ' ' (path ++ (" " ++ rest)) = path :: Text.splitAt ' ' rest := by
  have hblank : " ".toList = [' '] := by decide
  have hpass : ∀ c ∈ path.toList, (c == ' ') = false := by
    intro c hc
    simpa using fun heq : c = ' ' => h (heq ▸ hc)
  rw [Text.splitAt, String.toList_append, String.toList_append, hblank, List.singleton_append,
    Text.pieces_append_cons (by decide), Text.pieces_of_forall hpass, List.singleton_append,
    List.map_cons, String.ofList_toList]
  rfl

theorem Nameable.blank (h : Nameable path) : ' ' ∉ path.toList :=
  fun hmem => h ' ' hmem (by decide)

/-- **The test for a value** compares the one path. -/
theorem compared_isPresent (h : Nameable path) : compared (Fragments.isPresent path) = [path] := by
  have hwords : Text.splitAt ' ' (Fragments.isPresent path) = [path, "!=", "null"] :=
    splitAt_append h.blank "!= null"
  rw [compared, hwords]
  simp [comparedWords]

/-- The test for values that are not null and not empty compares the one
path, twice. -/
theorem compared_size (h : Nameable path) :
    compared (Fragments.isPresent path ++ " and " ++ path ++ ".size() > 0") = [path, path] := by
  have hsize : ' ' ∉ (path ++ ".size()").toList := by
    rw [String.toList_append, List.mem_append]
    exact fun hmem => hmem.elim h.blank (by decide)
  have htext : Fragments.isPresent path ++ " and " ++ path ++ ".size() > 0" =
      path ++ (" " ++ ("!=" ++ (" " ++ ("null" ++ (" " ++ ("and" ++ (" " ++
        ((path ++ ".size()") ++ (" " ++ "> 0"))))))))) := by
    simp [Fragments.isPresent, ← String.toList_inj]
  have hwords : Text.splitAt ' ' (Fragments.isPresent path ++ " and " ++ path ++ ".size() > 0") =
      [path, "!=", "null", "and", path ++ ".size()", ">", "0"] := by
    rw [htext, splitAt_append h.blank, splitAt_append (by decide), splitAt_append (by decide),
      splitAt_append (by decide), splitAt_append hsize]
    rfl
  have hop : path ++ ".size()" ≠ "!=" ∧ path ++ ".size()" ≠ ">" := by
    have hparen : '(' ∈ (path ++ ".size()").toList := by
      rw [String.toList_append, List.mem_append]
      exact .inr (by decide)
    constructor <;> intro heq <;> rw [heq] at hparen <;> exact absurd hparen (by decide)
  have hdrop : String.ofList ((path ++ ".size()").toList.take
      ((path ++ ".size()").toList.length - ".size()".length)) = path := by
    have hlength : ".size()".length = ".size()".toList.length := by decide
    rw [String.toList_append, List.length_append, hlength, Nat.add_sub_cancel,
      List.take_left, String.ofList_toList]
  rw [compared, hwords]
  simp only [comparedWords, hdrop]
  simp [hop]

/-- The test for two values compares both paths. -/
theorem compared_and (h : Nameable path) (h' : Nameable other) :
    compared (Fragments.isPresent path ++ " and " ++ Fragments.isPresent other)
      = [path, other] := by
  have htext : Fragments.isPresent path ++ " and " ++ Fragments.isPresent other =
      path ++ (" " ++ ("!=" ++ (" " ++ ("null" ++ (" " ++ ("and" ++ (" " ++
        (other ++ (" " ++ "!= null"))))))))) := by
    simp [Fragments.isPresent, ← String.toList_inj]
  have hwords : Text.splitAt ' '
      (Fragments.isPresent path ++ " and " ++ Fragments.isPresent other) =
      [path, "!=", "null", "and", other, "!=", "null"] := by
    rw [htext, splitAt_append h.blank, splitAt_append (by decide), splitAt_append (by decide),
      splitAt_append (by decide), splitAt_append h'.blank]
    rfl
  rw [compared, hwords]
  simp [comparedWords, h'.ne_operator]

end

/-! ## Paths under variables -/

/-- A variable leads to no property. -/
theorem propertyIn_of_mem {scope : List String} {path : String} (h : path ∈ scope) :
    propertyIn scope path = none := by
  rw [propertyIn, if_pos h]

/-- **The variable in front of a property is removed.** -/
theorem propertyIn_append {owner : String} {scope : List String} (property : String)
    (h : owner ++ "." ++ property ∉ owner :: scope) :
    propertyIn (owner :: scope) (owner ++ "." ++ property) = some property := by
  have htext : (owner ++ "." ++ property).toList = (owner ++ ".").toList ++ property.toList :=
    String.toList_append
  have hfirst : (owner :: scope).find? (fun owner' => (owner' ++ ".").toList.isPrefixOf
      (owner ++ "." ++ property).toList) = some owner := by
    refine List.find?_cons_of_pos ?_
    rw [htext, List.isPrefixOf_iff_prefix]
    exact List.prefix_append _ _
  rw [propertyIn, if_neg h, hfirst]
  show some (String.ofList ((owner ++ "." ++ property).toList.drop (owner ++ ".").toList.length))
      = some property
  rw [htext, List.drop_left, String.ofList_toList]

end TableMapper.Reference
