import TableMapper.Proofs.Artifact.Document

/-!
# What a statement comes to

The statements of a mapper document are evaluated for a parameter: tests
decide which texts count, a `choose` takes one of its texts, a loop repeats
its texts for every element of a list, and `where`, `set` and `trim` clear up
at the ends of what is in them. What comes out is a list of **pieces** of SQL,
each with the elements that the variables of loops stand for in it; the layout
of the document and the spaces between pieces are left out of account.

The parameter says only what the tests can ask: whether a property is null,
and whether a list is empty (`Value`). A test is for one path, and is read
back from the text that the fragments write for it (`Test.ofText?_text`),
whatever characters are in the path.
-/

namespace TableMapper.Evaluation

open Markup (Element Node)

/-! ## Parameters -/

/-- **What a property holds**, as far as tests and loops can tell. -/
inductive Value
  | null
  /-- Something that is neither a list nor has properties. -/
  | single
  | list (items : List Value)
  | bean (property : String → Value)

namespace Value

/-- Nothing is there. -/
def isNull : Value → Bool
  | null => true
  | _ => false

/-- The elements of a list; there are none in anything else. -/
def items : Value → List Value
  | list items => items
  | _ => []

/-- A property of a bean; nothing else has one. -/
def property : Value → String → Value
  | bean property, name => property name
  | _, _ => null

end Value

/-- A variable of a loop. -/
structure Variable where
  name : String
  /-- Where its value is, such as `list[2]`. -/
  origin : String
  value : Value

/-- What a path holds that leads to a variable or to a property of it. -/
def Variable.value? (v : Variable) (path : String) : Option Value :=
  let owner := (v.name ++ ".").toList
  if path = v.name then some v.value
  else if owner.isPrefixOf path.toList then some
    (v.value.property (String.ofList (path.toList.drop owner.length)))
  else none

/-- **What paths lead to**: the properties of the parameter, and in front of
them the variables of loops, the innermost first. -/
structure Scope where
  parameter : Value
  bindings : List Variable := []

namespace Scope

/-- What a path holds. -/
def value (scope : Scope) (path : String) : Value :=
  (scope.bindings.findSome? (·.value? path)).getD (scope.parameter.property path)

/-- The scope of a batch statement: the list is bound to a name of its own. -/
def ofList (items : List Value) : Scope where
  parameter := .bean fun path => if path = "list" then .list items else .null

/-- The scope with one more variable. -/
def bind (scope : Scope) (name origin : String) (value : Value) : Scope :=
  { scope with bindings := ⟨name, origin, value⟩ :: scope.bindings }

/-- A property of the innermost variable. -/
theorem value_bind_property (scope : Scope) (name origin property : String) (value : Value) :
    (scope.bind name origin value).value (name ++ "." ++ property) = value.property property := by
  have hne : name ++ "." ++ property ≠ name := by
    intro heq
    have hlength := congrArg (·.toList.length) heq
    simp only [String.toList_append, List.length_append] at hlength
    have hdot : ".".toList.length = 1 := by decide
    omega
  have hfirst : Variable.value? ⟨name, origin, value⟩ (name ++ "." ++ property)
      = some (value.property property) := by
    rw [Variable.value?, if_neg hne, if_pos]
    · rw [String.toList_append (s := name ++ "."), List.drop_left, String.ofList_toList]
    · rw [List.isPrefixOf_iff_prefix, String.toList_append (s := name ++ ".")]
      exact List.prefix_append _ _
  rw [Scope.value, bind, List.findSome?_cons, hfirst]
  rfl

end Scope

/-! ## Tests -/

/-- **A test for one path.** -/
inductive Test
  /-- It is not null. -/
  | present (path : String)
  /-- It is a list that is not empty. -/
  | filled (path : String)

namespace Test

/-- The test as it is written. -/
def text : Test → String
  | present path => path ++ " != null"
  | filled path => path ++ " != null and " ++ path ++ ".size() > 0"

/-- The first characters of a text. -/
def front (s : String) (n : Nat) : String :=
  String.ofList (s.toList.take n)

/-- **The test that a text is**, if it is one. The length of the text leaves
one path for each kind of test. -/
def ofText? (s : String) : Option Test :=
  let length := s.toList.length
  [present (front s (length - " != null".length)),
    filled (front s ((length - (" != null and ".length + ".size() > 0".length)) / 2))].find?
      (·.text == s)

theorem front_append (path rest : String) : front (path ++ rest) path.toList.length = path := by
  rw [front, String.toList_append, List.take_left, String.ofList_toList]

/-- **A test is read back from its text.** -/
theorem ofText?_text (t : Test) : ofText? t.text = some t := by
  cases t with
  | present path =>
    have hpath : front (path ++ " != null")
        ((path ++ " != null").toList.length - " != null".length) = path := by
      rw [String.toList_append, List.length_append,
        show " != null".toList.length = " != null".length from rfl,
        Nat.add_sub_cancel, front_append]
    rw [ofText?, text, List.find?_cons, hpath, text, beq_self_eq_true]
  | filled path =>
    -- the last characters tell the tests apart
    have hother : ∀ other, other ++ " != null" ≠ path ++ " != null and " ++
        path ++ ".size() > 0" := by
      intro other heq
      have hlast := congrArg (·.toList.getLast?) heq
      rw [String.toList_append, String.toList_append, List.getLast?_append, List.getLast?_append,
        show " != null".toList.getLast?
          = some 'l' by decide, show ".size() > 0".toList.getLast? = some '0' by decide,
        Option.some_or, Option.some_or] at hlast
      exact absurd hlast (by decide)
    have hpath : front (path ++ " != null and " ++ path ++ ".size() > 0")
        (((path ++ " != null and " ++ path ++ ".size() > 0").toList.length -
          (" != null and ".length + ".size() > 0".length)) / 2) = path := by
      rw [String.append_assoc, String.append_assoc]
      refine Eq.trans (congrArg (front _) ?_) (front_append path _)
      simp only [String.toList_append, List.length_append]
      have hfirst : " != null and ".toList.length = " != null and ".length := rfl
      have hsecond : ".size() > 0".toList.length = ".size() > 0".length := rfl
      omega
    rw [ofText?, text, List.find?_cons, List.find?_cons, hpath]
    simp only [text, beq_eq_false_iff_ne.2 (hother _), beq_self_eq_true]

end Test

/-- Whether a test holds. -/
def Test.isTrue (scope : Scope) : Test → Bool
  | present path => !(scope.value path).isNull
  | filled path => !(scope.value path).items.isEmpty

/-- Whether the test that a text is holds. -/
def Scope.holds (scope : Scope) (test : String) : Bool :=
  (Test.ofText? test).any (·.isTrue scope)

theorem Scope.holds_text (scope : Scope) (t : Test) : scope.holds t.text = t.isTrue scope := by
  rw [holds, Test.ofText?_text, Option.any_some]

/-! ## Pieces -/

/-- **A piece of SQL**, with the place of the element that each variable in it
stands for. -/
structure Piece where
  text : String
  bound : List (String × String) := []
deriving DecidableEq, Repr

/-- A text as a piece. -/
def Scope.piece (scope : Scope) (text : String) : Piece :=
  ⟨text, scope.bindings.map fun v => (v.name, v.origin)⟩

/-- A text without an ending. -/
def withoutEnding (ending s : String) : String :=
  if ending.toList.isSuffixOf s.toList then String.ofList
    (s.toList.take (s.toList.length - ending.toList.length))
  else s

/-- The pieces without an ending of the last one. -/
def dropEnding (ending : String) : List Piece → List Piece
  | [] => []
  | [p] => [{ p with text := withoutEnding ending p.text }]
  | p :: rest => p :: dropEnding ending rest

/-- White space that ends a word. -/
def isSpace (c : Char) : Bool :=
  c = ' ' || c = '\t' || c = '\n' || c = '\r'

/-- What is behind a word and a space, if a text begins so, in any case. -/
def behindWord? (word s : List Char) : Option (List Char) :=
  match s.drop word.length with
  | space :: rest =>
    if (s.take word.length).map Char.toLower = word ∧ isSpace space then some rest else none
  | [] => none

/-- **What is behind a leading `and` or `or`**, if a text begins with one. -/
def behindJunction? (s : String) : Option String :=
  let start := s.toList.dropWhile isSpace
  ((behindWord? "and".toList start).or (behindWord? "or".toList start)).map String.ofList

/-- The pieces without a leading `and` or `or`. -/
def dropJunction : List Piece → List Piece
  | [] => []
  | p :: rest => { p with text := (behindJunction? p.text).getD p.text } :: rest

/-- The pieces behind a word, if there are any. -/
def clause (scope : Scope) (word : String) : List Piece → List Piece
  | [] => []
  | p :: rest => scope.piece word :: p :: rest

theorem withoutEnding_append (s ending : String) : withoutEnding ending (s ++ ending) = s := by
  rw [withoutEnding, if_pos, String.toList_append, List.length_append, Nat.add_sub_cancel,
    List.take_left, String.ofList_toList]
  rw [List.isSuffixOf_iff_suffix, String.toList_append]
  exact List.suffix_append _ _

/-- What follows an `and` is behind it. -/
theorem behindJunction?_and (s : String) : behindJunction? ("and " ++ s) = some s := by
  have hstart : ("and " ++ s).toList.dropWhile isSpace = 'a' :: 'n' :: 'd' :: ' ' :: s.toList := by
    rw [String.toList_append]
    rfl
  have hword : behindWord? "and".toList ('a' :: 'n' :: 'd' :: ' ' :: s.toList) = some s.toList :=
    rfl
  rw [behindJunction?, hstart, hword]
  show some (String.ofList s.toList) = _
  rw [String.ofList_toList]

/-- What is behind a word is shorter. -/
theorem length_lt_of_behindWord? {word s rest : List Char} (h : behindWord? word s = some rest) :
    rest.length < s.length := by
  rw [behindWord?] at h
  have hlength := List.length_drop (i := word.length) (l := s)
  cases hdrop : s.drop word.length with
  | nil =>
    rw [hdrop] at h
    exact nomatch h
  | cons space behind =>
    rw [hdrop] at h hlength
    obtain rfl := Option.some.inj (Option.ite_none_right_eq_some.1 h).2
    rw [List.length_cons] at hlength
    omega

/-- **A leading junction is dropped.** -/
theorem ne_of_behindJunction? {s rest : String} (h : behindJunction? s = some rest) : rest ≠ s := by
  obtain ⟨behind, hbehind, rfl⟩ := Option.map_eq_some_iff.1 h
  have hstart := (List.dropWhile_suffix (p := isSpace) (l := s.toList)).length_le
  have hlt : behind.length < (s.toList.dropWhile isSpace).length := by
    rcases Option.or_eq_some_iff.1 hbehind with hand | ⟨-, hor⟩
    · exact length_lt_of_behindWord? hand
    · exact length_lt_of_behindWord? hor
  intro heq
  have hlength := congrArg (·.toList.length) heq
  simp only [String.toList_ofList] at hlength
  omega

/-! ## Evaluation -/

/-- What the inclusion of a piece comes to. -/
abbrev Inclusions := String → Scope → List Piece

/-- The value of an attribute, or nothing. -/
def valueOf (attributes : List (String × String)) (name : String) : String :=
  (attributes.lookup name).getD ""

/-- The piece that an attribute asks for. -/
def Scope.mark (scope : Scope) (attributes : List (String × String)) (name : String) : List Piece :=
  ((attributes.lookup name).map scope.piece).toList

/-- The place of an element of a list. -/
def placeIn (collection : String) (i : Nat) : String :=
  collection ++ "[" ++ toString i ++ "]"

section

variable (included : Inclusions)

mutual

/-- **What a node comes to.** A `selectKey` is a statement of its own. -/
def evaluate (scope : Scope) : Node → List Piece
  | .text s => [scope.piece s]
  | .raw s => [scope.piece s]
  | .element name attributes children =>
    if name = "include" then included (valueOf attributes "refid") scope
    else if name = "if" then if scope.holds (valueOf attributes "test") then evaluateAll
      scope children else []
    else if name = "choose" then evaluateChoice scope children
    else if name = "where" then clause scope "where" (dropJunction (evaluateAll scope children))
    else if name = "set" then clause scope "set" (dropEnding "," (evaluateAll scope children))
    else if name = "trim" then dropEnding (valueOf attributes "suffixOverrides")
      (evaluateAll scope children)
    else if name = "foreach" then
      let collection := valueOf attributes "collection"
      let turns := (scope.value collection).items.mapIdx fun i item =>
        evaluateAll (scope.bind (valueOf attributes "item") (placeIn collection i) item) children
      if turns.isEmpty then []
      else scope.mark attributes "open" ++ (scope.mark attributes "separator").intercalate turns ++
        scope.mark attributes "close"
    else if name = "selectKey" then []
    else evaluateAll scope children

/-- What some nodes come to. -/
def evaluateAll (scope : Scope) : List Node → List Piece
  | [] => []
  | node :: rest => evaluate scope node ++ evaluateAll scope rest

/-- What the first alternative comes to that applies. -/
def evaluateChoice (scope : Scope) : List Node → List Piece
  | .element name attributes children :: rest =>
    if name = "when" then
      if scope.holds (valueOf attributes "test") then evaluateAll scope children
      else evaluateChoice scope rest
    else if name = "otherwise" then evaluateAll scope children
    else evaluateChoice scope rest
  | .text _ :: rest => evaluateChoice scope rest
  | .raw _ :: rest => evaluateChoice scope rest
  | [] => []

end

variable {included} (scope : Scope)

@[simp] theorem evaluate_text (s : String) :
    evaluate included scope (.text s) = [scope.piece s] := by
  rw [evaluate]

@[simp] theorem evaluateAll_nil : evaluateAll included scope [] = [] := by
  rw [evaluateAll]

@[simp] theorem evaluateAll_cons (node : Node) (rest : List Node) :
    evaluateAll included scope (node :: rest) =
    evaluate included scope node ++ evaluateAll included scope rest := by
  rw [evaluateAll]

theorem evaluateAll_eq_flatMap (nodes : List Node) :
    evaluateAll included scope nodes = nodes.flatMap (evaluate included scope) := by
  induction nodes with
  | nil => simp
  | cons node rest ih => simp [ih]

variable (attributes : List (String × String)) (children : List Node)

theorem evaluate_include : evaluate included scope (.element "include" attributes children) =
    included (valueOf attributes "refid") scope := by
  simp [evaluate]

theorem evaluate_if : evaluate included scope (.element "if" attributes children) =
    if scope.holds (valueOf attributes "test") then evaluateAll included scope
      children else [] := by
  simp [evaluate]

theorem evaluate_where : evaluate included scope (.element "where" attributes children) =
    clause scope "where" (dropJunction (evaluateAll included scope children)) := by
  simp [evaluate]

theorem evaluate_trim : evaluate included scope (.element "trim" attributes children) =
    dropEnding (valueOf attributes "suffixOverrides") (evaluateAll included scope children) := by
  simp [evaluate]

theorem evaluate_foreach {turns : List (List Piece)}
    (hturns : ((scope.value (valueOf attributes "collection")).items.mapIdx fun i item =>
      evaluateAll included
        (scope.bind (valueOf attributes "item") (placeIn (valueOf attributes "collection") i) item)
          children) = turns) :
    evaluate included scope (.element "foreach" attributes children) =
      if turns.isEmpty then []
      else scope.mark attributes "open" ++ (scope.mark attributes "separator").intercalate turns ++
        scope.mark attributes "close" := by
  simp [evaluate, hturns]

theorem evaluate_inclusion (id : FragmentId) :
    evaluate included scope (Fragments.inclusion id).toNode = included id.name scope :=
  evaluate_include scope _ []

/-- **A text that counts when a property is not null.** -/
theorem evaluate_ifPresent (path text : String) :
    evaluate included scope (Fragments.ifPresent path text).toNode =
    if (scope.value path).isNull then [] else [scope.piece text] := by
  refine (evaluate_if scope _ _).trans ?_
  show (if scope.holds (Test.present path).text then evaluateAll included scope
      [.text text] else []) = _
  rw [scope.holds_text, Test.isTrue]
  cases (scope.value path).isNull <;> simp

/-- **One text when a property is not null, another when it is.** -/
theorem evaluate_chooseDefault (path value fallback : String) :
    evaluate included scope (Fragments.chooseDefault path value fallback).toNode =
      [scope.piece (if (scope.value path).isNull then fallback else value)] := by
  have hchoose : evaluate included scope (Fragments.chooseDefault path value fallback).toNode =
      evaluateChoice included scope
        [.element "when" [("test", (Test.present path).text)] [.text value],
          .element "otherwise" [] [.text fallback]] := by
    simp [Fragments.chooseDefault, Element.toNode, evaluate, Element.child, Element.text,
      Element.attr, Element.named]
    rfl
  have hfallback : evaluateChoice included scope [.element "otherwise" [] [.text fallback]] =
      evaluateAll included scope [.text fallback] := by
    simp [evaluateChoice]
  have hpath : valueOf [("test", (Test.present path).text)] "test" = (Test.present path).text := rfl
  rw [hchoose, evaluateChoice, if_pos rfl, hpath, hfallback, scope.holds_text, Test.isTrue]
  cases (scope.value path).isNull <;> simp

end

/-! ## Elements of a document -/

/-- **What the element with an id comes to**, with inclusions followed to some
depth. -/
def evaluateById (root : Element) : Nat → Inclusions
  | 0 => fun _ _ => []
  | depth + 1 => fun id scope =>
    evaluateAll (evaluateById root depth) scope (((root.elementById? id).map (·.children)).getD [])

/-- A fragment in the document of its table. -/
theorem evaluateById_document (table : TableModel) (depth : Nat) (id : FragmentId) (scope : Scope) :
    evaluateById (MapperDocument.document table).root (depth + 1) id.name scope =
      evaluateAll (evaluateById (MapperDocument.document table).root depth) scope
        (((MapperDocument.fragment? table id).map (·.children)).getD []) := by
  rw [← MapperDocument.elementById?_document]
  rfl

end TableMapper.Evaluation
