import TableMapper.Pattern.Basic

/-!
# Reading a pattern

The text of a pattern is read from left to right with the flags in force.
A flag directive such as `(?i)` holds to the end of its group; a group with
flags of its own gives the former flags back when it closes. Every call
takes at least one character or ends a group, so a budget of twice the
length of the text is never used up.
-/

namespace TableMapper.Pattern

/-- The flags in force. -/
structure Flags where
  ignoreCase : Bool := false
  multiLine : Bool := false
  dotAll : Bool := false
  swapGreed : Bool := false
  unicode : Bool := true
  verbose : Bool := false
  returns : Bool := false
deriving Repr, DecidableEq

/-- What is left to read, and what the groups read so far have been given. -/
structure Reading where
  rest : List Char
  flags : Flags
  groups : Nat
  names : List (String × Nat)

/-- A reader may fail and moves on in the text. -/
abbrev Reader := StateT Reading (Except Fault)

namespace Reader

/-- What the next characters are, without taking them. -/
def ahead : Reader (List Char) :=
  return (← get).rest

/-- Move on to `rest`. -/
def moveTo (rest : List Char) : Reader Unit :=
  modify fun s => { s with rest }

/-- In verbose mode, the text behind blanks and comments. -/
def afterSpace (verbose : Bool) : List Char → List Char
  | [] => []
  | c :: rest =>
    if verbose && Text.isBlank c then afterSpace verbose rest
    else if verbose && c == '#' then afterComment verbose rest
    else c :: rest
where
  /-- The text behind a comment, which ends with its line. -/
  afterComment (verbose : Bool) : List Char → List Char
    | [] => []
    | c :: rest => if c == '\n' then afterSpace verbose rest else afterComment verbose rest

/-- Skip blanks and comments in verbose mode. -/
def skipSpace : Reader Unit :=
  modify fun s => { s with rest := afterSpace s.flags.verbose s.rest }

/-- Move on to `rest` and past the blanks there in verbose mode. -/
def moveToSkipping (rest : List Char) : Reader Unit := do
  moveTo rest
  skipSpace

end Reader

open Reader

/-- One thing a pattern names: a character, a set, or a condition. -/
inductive Primitive
  | literal (c : Char)
  | set (s : CharSet)
  | look (l : Look)

/-- The word characters of the basic alphabet. -/
def asciiWord : CharSet :=
  .unionOf [.range 48 57, .range 65 90, .range 95 95, .range 97 122]

/-- The word characters under the flags. -/
def Flags.word (f : Flags) : CharSet :=
  if f.unicode then .word else asciiWord

/-- The digits under the flags. -/
def Flags.digit (f : Flags) : CharSet :=
  if f.unicode then .digit else .range 48 57

/-- The blanks under the flags. -/
def Flags.space (f : Flags) : CharSet :=
  if f.unicode then .space else .unionOf [.range 9 13, .single ' ']

/-- The complement of a set, which without the Unicode flag would match
parts of characters. -/
def Flags.negate (f : Flags) (s : CharSet) : Except Fault CharSet :=
  if f.unicode then .ok (.complement s) else .error .notText

/-- The named classes in brackets, such as `[:alpha:]`. -/
def bracketClass (name : String) : Option CharSet :=
  match name with
  | "alnum" => some (.unionOf [.range 48 57, .range 65 90, .range 97 122])
  | "alpha" => some (.unionOf [.range 65 90, .range 97 122])
  | "ascii" => some (.range 0 127)
  | "blank" => some (.unionOf [.range 9 9, .range 32 32])
  | "cntrl" => some (.unionOf [.range 0 31, .range 127 127])
  | "digit" => some (.range 48 57)
  | "graph" => some (.range 33 126)
  | "lower" => some (.range 97 122)
  | "print" => some (.range 32 126)
  | "punct" => some (.unionOf [.range 33 47, .range 58 64, .range 91 96, .range 123 126])
  | "space" => some (.unionOf [.range 9 13, .range 32 32])
  | "upper" => some (.range 65 90)
  | "word" => some asciiWord
  | "xdigit" => some (.unionOf [.range 48 57, .range 65 70, .range 97 102])
  | _ => none

/-- The properties `\p` knows, by their short and long names. -/
def namedProperty (name : String) : Option CharSet :=
  match String.ofList ((name.toList.filter fun c => c != '_' && c != '-' && c != ' ').map Char.toLower) with
  | "l" | "letter" | "alphabetic" | "alpha" => some .letter
  | "lu" | "uppercaseletter" | "uppercase" | "upper" => some .uppercase
  | "ll" | "lowercaseletter" | "lowercase" | "lower" => some .lowercase
  | "n" | "number" => some .numeric
  | "nd" | "decimalnumber" | "digit" => some .digit
  | "whitespace" | "wspace" | "space" => some .space
  | "any" => some .all
  | "ascii" => some (.range 0 127)
  | _ => none

/-- The value of a hexadecimal digit. -/
def hexValue (c : Char) : Option Nat :=
  if '0' ≤ c && c ≤ '9' then some (c.toNat - 48)
  else if 'a' ≤ c && c ≤ 'f' then some (c.toNat - 87)
  else if 'A' ≤ c && c ≤ 'F' then some (c.toNat - 55)
  else none

/-- The character with a hexadecimal code. -/
def charOfHex (digits : List Char) : Except Fault Char := do
  if digits.isEmpty then throw .codePoint
  let values ← digits.mapM fun c => (hexValue c).elim (throw Fault.codePoint) pure
  let n := values.foldl (fun n d => n * 16 + d) 0
  if n.isValidChar then pure (Char.ofNat n) else throw .codePoint

/-- A character given by its code, with `width` digits or in braces. -/
def readHex (width : Nat) : Reader Primitive := do
  let verbose := (← get).flags.verbose
  match afterSpace verbose (← ahead) with
  | [] => throw .escapeUnfinished
  | '{' :: rest =>
    let digits := rest.takeWhile (· != '}')
    match rest.dropWhile (· != '}') with
    | [] => throw .escapeUnfinished
    | _ :: after =>
      moveTo after
      let digits := if verbose then digits.filter (!Text.isBlank ·) else digits
      return .literal (← charOfHex digits)
  | rest =>
    if rest.length < width then throw .escapeUnfinished
    moveTo (rest.drop width)
    return .literal (← charOfHex (rest.take width))

/-- A property class; a single letter needs no braces, and `^` or a capital
`P` negates. -/
def readProperty (negated : Bool) : Reader Primitive := do
  let flags := (← get).flags
  let (name, rest) ← match ← ahead with
    | [] => throw Fault.escapeUnfinished
    | '{' :: rest =>
      match rest.dropWhile (· != '}') with
      | [] => throw Fault.escapeUnfinished
      | _ :: after => pure (rest.takeWhile (· != '}'), after)
    | c :: rest => pure ([c], rest)
  moveTo rest
  let (name, negated) := match name with
    | '^' :: name => (name, !negated)
    | name => (name, negated)
  if !flags.unicode then throw .notText
  match namedProperty (String.ofList name) with
  | none => throw .property
  | some set => return .set (if negated then .complement set else set)

/-- A word boundary, plain or of one of the special kinds in braces. -/
def readBoundary : Reader Primitive := do
  let w := (← get).flags.word
  match ← ahead with
  | '{' :: rest =>
    let name := rest.takeWhile fun c => c.isAlpha || c == '-'
    if name.isEmpty then return .look (.boundary w)
    match rest.drop name.length with
    | '}' :: after =>
      moveTo after
      match String.ofList name with
      | "start" => return .look (.wordStart w)
      | "end" => return .look (.wordEnd w)
      | "start-half" => return .look (.halfStart w)
      | "end-half" => return .look (.halfEnd w)
      | _ => throw .escapeUnknown
    | _ => throw .escapeUnfinished
  | _ => return .look (.boundary w)

/-- Punctuation of the basic alphabet stands for itself behind a
backslash; letters and digits are kept for escapes. -/
def isEscapable (c : Char) : Bool :=
  c.toNat < 128 && !c.isAlphanum && c != '<' && c != '>'

/-- An escape, behind its backslash. -/
def readEscape : Reader Primitive := do
  let flags := (← get).flags
  match ← ahead with
  | [] => throw .escapeUnfinished
  | c :: rest =>
    moveTo rest
    if c.isDigit then throw .backReference
    match c with
    | 'x' => readHex 2
    | 'u' => readHex 4
    | 'U' => readHex 8
    | 'p' => readProperty false
    | 'P' => readProperty true
    | 'd' => return .set flags.digit
    | 's' => return .set flags.space
    | 'w' => return .set flags.word
    | 'D' => return .set (← flags.negate flags.digit)
    | 'S' => return .set (← flags.negate flags.space)
    | 'W' => return .set (← flags.negate flags.word)
    | 'a' => return .literal '\x07'
    | 'f' => return .literal '\x0c'
    | 't' => return .literal '\t'
    | 'n' => return .literal '\n'
    | 'r' => return .literal '\r'
    | 'v' => return .literal '\x0b'
    | 'A' => return .look .textStart
    | 'z' => return .look .textEnd
    | 'b' => readBoundary
    | 'B' => if flags.unicode then return .look (.notBoundary flags.word) else throw .notText
    | '<' => return .look (.wordStart flags.word)
    | '>' => return .look (.wordEnd flags.word)
    | c => if isEscapable c then return .literal c else throw .escapeUnknown

/-! ## Bracketed classes -/

/-- A class in brackets such as `[:^space:]`, if one is ahead. -/
def bracketClassAhead (cs : List Char) : Option (CharSet × List Char) :=
  match cs with
  | '[' :: ':' :: rest =>
    let (negated, rest) := match rest with
      | '^' :: rest => (true, rest)
      | rest => (false, rest)
    let name := rest.takeWhile (· != ':')
    match rest.drop name.length with
    | ':' :: ']' :: after =>
      (bracketClass (String.ofList name)).map fun set =>
        (if negated then .complement set else set, after)
    | _ => none
  | _ => none

/-- A character or an escape inside a class. -/
def readClassItem : Reader Primitive := do
  match ← ahead with
  | [] => throw .classUnclosed
  | '\\' :: rest =>
    moveTo rest
    match ← readEscape with
    | .look _ => throw .escapeUnknown
    | item => return item
  | c :: rest =>
    moveTo rest
    return .literal c

/-- A literal may need the Unicode flag. -/
def checkLiteral (c : Char) : Reader Unit := do
  if !(← get).flags.unicode && c.toNat ≥ 128 then throw .notText

/-- A single item of a class or a range of characters. A hyphen before the
closing bracket or another hyphen makes no range. -/
def readClassRange : Reader CharSet := do
  let first ← readClassItem
  skipSpace
  let verbose := (← get).flags.verbose
  let alone : Reader CharSet := match first with
    | .literal c => do checkLiteral c; return .single c
    | .set s => return s
    | .look _ => throw .escapeUnknown
  match ← ahead with
  | [] => throw .classUnclosed
  | '-' :: rest =>
    match afterSpace verbose rest with
    | ']' :: _ | '-' :: _ => alone
    | [] => throw .classUnclosed
    | rest =>
      moveTo rest
      let last ← readClassItem
      match first, last with
      | .literal a, .literal b =>
        checkLiteral b
        if a ≤ b then return .range a.toNat b.toNat else throw .classRange
      | _, _ => throw .classRange
  | _ => alone

/-- The set operations between the parts of a class. -/
inductive SetOp
  | inter
  | diff
  | exactlyOne

/-- Two operands joined. -/
def SetOp.apply : SetOp → CharSet → CharSet → CharSet
  | .inter => .inter
  | .diff => .diff
  | .exactlyOne => .exactlyOne

/-- The set operation ahead. -/
def setOpAhead : List Char → Option (SetOp × List Char)
  | '&' :: '&' :: rest => some (.inter, rest)
  | '-' :: '-' :: rest => some (.diff, rest)
  | '~' :: '~' :: rest => some (.exactlyOne, rest)
  | _ => none

/-- The hyphens a class may begin with, each standing for itself, and a
closing bracket that would leave it empty. -/
def readClassStart : Reader (Bool × List CharSet) := do
  skipSpace
  let negated ← match ← ahead with
    | '^' :: rest => do moveToSkipping rest; pure true
    | _ => pure false
  let verbose := (← get).flags.verbose
  let hyphens := (← ahead).takeWhile fun c => c == '-' || (verbose && Text.isBlank c)
  let dashes := hyphens.filter (· == '-')
  moveToSkipping ((← ahead).drop hyphens.length)
  match dashes, ← ahead with
  | _, [] => throw .classUnclosed
  | [], ']' :: rest =>
    moveToSkipping rest
    return (negated, [.single ']'])
  | _, _ => return (negated, dashes.map CharSet.single)

/-- A bracketed class, behind its opening bracket: its items joined by
union, the unions by the set operations from left to right. `left` is the
operand before the last operation. -/
def readClass : Nat → Reader CharSet
  | 0 => throw .classUnclosed
  | fuel + 1 => do
    let (negated, items) ← readClassStart
    let set ← parts fuel none items
    let flags := (← get).flags
    if negated then flags.negate set else return set
where
  /-- The rest of a class up to its closing bracket. -/
  parts : Nat → Option (SetOp × CharSet) → List CharSet → Reader CharSet
    | 0, _, _ => throw .classUnclosed
    | fuel + 1, left, items => do
      skipSpace
      let operand := fun (flags : Flags) =>
        let set := CharSet.unionOf items
        let set := if flags.ignoreCase then .anyCase set else set
        match left with
        | none => set
        | some (op, first) => op.apply first set
      let cs ← ahead
      match cs with
      | [] => throw .classUnclosed
      | ']' :: rest =>
        moveTo rest
        return operand (← get).flags
      | c :: rest =>
        match bracketClassAhead cs with
        | some (set, after) =>
          moveTo after
          parts fuel left (items ++ [set])
        | none =>
          if c == '[' then
            moveTo rest
            let inner ← readClass fuel
            parts fuel left (items ++ [inner])
          else
            match setOpAhead cs with
            | some (op, after) =>
              moveTo after
              parts fuel (some (op, operand (← get).flags)) []
            | none =>
              let set ← readClassRange
              parts fuel left (items ++ [set])

/-! ## Repetitions -/

/-- A decimal number, with blanks on either side. -/
def readCount : Reader (Option Nat) := do
  let cs := Text.trimStart (← ahead)
  let digits := cs.takeWhile Char.isDigit
  moveTo (Text.trimStart (cs.drop digits.length))
  if digits.isEmpty then return none
  let n := digits.foldl (fun n d => n * 10 + (d.toNat - 48)) 0
  if n < UInt32.size then return some n else throw .countInvalid

/-- A count that must be there. -/
def needCount (count : Option Nat) : Reader Nat :=
  count.elim (throw .countEmpty) pure

/-- A repetition is lazy with a question mark behind it, unless the flags
swap the two. -/
def readGreedy : Reader Bool := do
  let swap := (← get).flags.swapGreed
  match ← ahead with
  | '?' :: rest =>
    moveTo rest
    return swap
  | _ => return !swap

/-- The bounds of a counted repetition, behind its opening brace. -/
def readBounds : Reader (Nat × Option Nat) := do
  skipSpace
  if (← ahead).isEmpty then throw .repetitionUnclosed
  let least ← readCount
  let bounds ← match ← ahead with
    | [] => throw Fault.repetitionUnclosed
    | ',' :: rest =>
      moveToSkipping rest
      match ← ahead with
      | [] => throw Fault.repetitionUnclosed
      | '}' :: _ => pure (← needCount least, none)
      | _ => do
        let least ← needCount least
        pure (least, some (← needCount (← readCount)))
    | _ => do
      let n ← needCount least
      pure (n, some n)
  match ← ahead with
  | '}' :: rest => moveToSkipping rest
  | _ => throw .repetitionUnclosed
  match bounds with
  | (least, some most) => if most < least then throw .countInvalid else return bounds
  | _ => return bounds

/-! ## Groups -/

/-- One flag switched on or off. -/
def Flags.set (f : Flags) (flag : Char) (on : Bool) : Except Fault Flags :=
  match flag with
  | 'i' => .ok { f with ignoreCase := on }
  | 'm' => .ok { f with multiLine := on }
  | 's' => .ok { f with dotAll := on }
  | 'U' => .ok { f with swapGreed := on }
  | 'u' => .ok { f with unicode := on }
  | 'x' => .ok { f with verbose := on }
  | 'R' => .ok { f with returns := on }
  | _ => .error .flag

/-- The flags of a group, up to the colon or the closing bracket, which is
returned with the text behind it. No flag may be named twice, and something
must follow a minus. -/
def readFlags (flags : Flags) (seen : List Char) : List Char → Except Fault (Flags × Char × List Char)
  | [] => .error .flag
  | c :: rest =>
    if c == ':' || c == ')' then
      if seen.head? == some '-' || (c == ')' && seen.isEmpty) then .error .flag
      else .ok (flags, c, rest)
    else if seen.contains c then .error .flag
    else if c == '-' then readFlags flags (c :: seen) rest
    else
      match flags.set c (!seen.contains '-') with
      | .error e => .error e
      | .ok flags => readFlags flags (c :: seen) rest

/-- How a group begins. -/
inductive GroupStart
  | captured (name : Option String)
  | plain (flags : Flags)
  | directive (flags : Flags)

/-- A character that may begin or, later on, continue a group name. -/
def isNameChar (first : Bool) (c : Char) : Bool :=
  c == '_' ||
    if first then Text.isAlphabetic c
    else c == '.' || c == '[' || c == ']' || Text.isAlphanumeric c

/-- The name of a group up to `>`. -/
def readGroupName (cs : List Char) : Except Fault (String × List Char) :=
  let name := cs.takeWhile (· != '>')
  match name, cs.drop name.length with
  | _, [] | [], _ => .error .groupName
  | c :: more, _ :: rest =>
    if isNameChar true c && more.all (isNameChar false) then .ok (String.ofList name, rest)
    else .error .groupName

/-- The beginning of a group, behind its opening bracket. -/
def readGroupStart : Reader GroupStart := do
  skipSpace
  match ← ahead with
  | '?' :: '=' :: _ | '?' :: '!' :: _ | '?' :: '<' :: '=' :: _ | '?' :: '<' :: '!' :: _ =>
    throw .lookAround
  | '?' :: 'P' :: '<' :: rest | '?' :: '<' :: rest =>
    let (name, rest) ← readGroupName rest
    moveTo rest
    return .captured (some name)
  | '?' :: rest =>
    let (flags, stop, rest) ← readFlags (← get).flags [] rest
    moveTo rest
    return if stop == ')' then .directive flags else .plain flags
  | _ => return .captured none

/-! ## The whole pattern -/

/-- One character under the flags. -/
def literalNode (flags : Flags) (c : Char) : Node :=
  .one (if flags.ignoreCase then .anyCase (.single c) else .single c)

/-- What a dot stands for under the flags. -/
def dotSet (flags : Flags) : CharSet :=
  if flags.dotAll then .all
  else if flags.returns then .complement (.unionOf [.single '\n', .single '\r'])
  else .complement (.single '\n')

/-- What `^` stands for under the flags. -/
def startLook (flags : Flags) : Look :=
  if !flags.multiLine then .textStart
  else if flags.returns then .returnLineStart else .lineStart

/-- What `$` stands for under the flags. -/
def endLook (flags : Flags) : Look :=
  if !flags.multiLine then .textEnd
  else if flags.returns then .returnLineEnd else .lineEnd

/-- A single item under the flags. -/
def primitiveNode : Primitive → Reader Node
  | .literal c => do
    checkLiteral c
    return literalNode (← get).flags c
  | .set s => return .one s
  | .look l => return .look l

/-- The alternatives of a group up to its closing bracket or the end of the
text. `done` holds the alternatives read, last first; `items` the items of
the current one, last first, where `none` stands for a flag directive, which
cannot be repeated. -/
def readAlternatives : Nat → List Node → List (Option Node) → Reader Node
  | 0, _, _ => throw .tooLarge
  | fuel + 1, done, items => do
    skipSpace
    let current := Node.sequence (items.reverse.filterMap id)
    let flags := (← get).flags
    let again := fun (least : Nat) (most : Option Nat) => do
      match items with
      | some n :: items =>
        readAlternatives fuel done (some (.repeated least most (← readGreedy) n) :: items)
      | _ => throw Fault.repetitionMissing
    match ← ahead with
    | [] | ')' :: _ => return .alternatives (current :: done).reverse
    | c :: rest =>
      moveTo rest
      match c with
      | '|' => readAlternatives fuel (current :: done) []
      | '*' => again 0 none
      | '+' => again 1 none
      | '?' => again 0 (some 1)
      | '{' =>
        match items with
        | some _ :: _ =>
          let (least, most) ← readBounds
          again least most
        | _ => throw .repetitionMissing
      | '(' =>
        match ← readGroupStart with
        | .directive flags =>
          modify fun s => { s with flags }
          readAlternatives fuel done (none :: items)
        | .plain inner =>
          modify fun s => { s with flags := inner }
          let n ← readAlternatives fuel [] []
          closeGroup flags
          readAlternatives fuel done (some n :: items)
        | .captured name =>
          let index := (← get).groups + 1
          modify fun s => { s with groups := index }
          if let some name := name then
            if ((← get).names.lookup name).isSome then throw .groupNameDuplicate
            modify fun s => { s with names := s.names ++ [(name, index)] }
          let n ← readAlternatives fuel [] []
          closeGroup flags
          readAlternatives fuel done (some (.group index n) :: items)
      | '[' =>
        let set ← readClass fuel
        readAlternatives fuel done (some (.one set) :: items)
      | '\\' =>
        let n ← primitiveNode (← readEscape)
        readAlternatives fuel done (some n :: items)
      | '.' =>
        if !flags.unicode then throw .notText
        readAlternatives fuel done (some (.one (dotSet flags)) :: items)
      | '^' => readAlternatives fuel done (some (.look (startLook flags)) :: items)
      | '$' => readAlternatives fuel done (some (.look (endLook flags)) :: items)
      | c =>
        let n ← primitiveNode (.literal c)
        readAlternatives fuel done (some n :: items)
where
  /-- The closing bracket of a group, which gives the outer flags back. -/
  closeGroup (outer : Flags) : Reader Unit := do
    match ← ahead with
    | ')' :: rest => modify fun s => { s with rest, flags := outer }
    | _ => throw .groupUnclosed

/-- The most room a pattern may take. -/
def sizeLimit : Nat :=
  327680

/-- **Reads a pattern**, or says why it cannot be used. -/
def compile (text : String) : Except Fault Compiled := do
  let cs := text.toList
  let (root, state) ← (readAlternatives (2 * cs.length + 2) [] []).run ⟨cs, {}, 0, []⟩
  if !state.rest.isEmpty then throw .groupUnopened
  if root.weight > sizeLimit then throw .tooLarge
  return ⟨root, state.names⟩

/-- A pattern that can be used. -/
def isValid (text : String) : Bool :=
  (compile text).isOk

end TableMapper.Pattern
