import TableMapper.ConfigText.Value

/-!
# Keys, strings, numbers and times

The parts of a configuration text that hold no other values. Every reader
takes the text from its first character and returns what it read with the
text behind it, or nothing when the text is not well formed.
-/

namespace TableMapper.ConfigText

/-- Blanks within a line. -/
def isSpace (c : Char) : Bool :=
  c == ' ' || c == '\t'

/-- The text behind blanks within the line. -/
def skipSpaces (cs : List Char) : List Char :=
  cs.dropWhile isSpace

/-- Controls that may not stand in a text, the tab excepted. -/
def isControl (c : Char) : Bool :=
  (c.toNat < 32 && c != '\t') || c.toNat == 127

/-- A character of a bare key. -/
def isKeyChar (c : Char) : Bool :=
  c.isAlphanum || c == '_' || c == '-'

/-- The value of a hexadecimal digit. -/
def digitValue (c : Char) : Option Nat :=
  if '0' ≤ c && c ≤ '9' then some (c.toNat - 48)
  else if 'a' ≤ c && c ≤ 'f' then some (c.toNat - 87)
  else if 'A' ≤ c && c ≤ 'F' then some (c.toNat - 55)
  else none

/-- The character with a code of `width` hexadecimal digits. -/
def readCode (width : Nat) (cs : List Char) : Option (Char × List Char) := do
  let digits := cs.take width
  if digits.length < width then none
  let values ← digits.mapM digitValue
  let n := values.foldl (fun n d => n * 16 + d) 0
  if n.isValidChar then some (Char.ofNat n, cs.drop width) else none

/-- An escape, behind its backslash. -/
def readEscape : List Char → Option (Char × List Char)
  | 'b' :: rest => some ('\x08', rest)
  | 't' :: rest => some ('\t', rest)
  | 'n' :: rest => some ('\n', rest)
  | 'f' :: rest => some ('\x0c', rest)
  | 'r' :: rest => some ('\r', rest)
  | 'e' :: rest => some ('\x1b', rest)
  | '"' :: rest => some ('"', rest)
  | '\\' :: rest => some ('\\', rest)
  | 'x' :: rest => readCode 2 rest
  | 'u' :: rest => readCode 4 rest
  | 'U' :: rest => readCode 8 rest
  | _ => none

/-- A string in double quotes, behind the opening one; `fuel` is at least
the number of characters left. -/
def readBasic : Nat → List Char → List Char → Option (String × List Char)
  | 0, _, _ => none
  | _, _, [] => none
  | fuel + 1, done, c :: rest =>
    if c == '"' then some (String.ofList done.reverse, rest)
    else if c == '\\' then
      match readEscape rest with
      | some (c, rest) => readBasic fuel (c :: done) rest
      | none => none
    else if isControl c then none
    else readBasic fuel (c :: done) rest

/-- A string in single quotes, behind the opening one. -/
def readLiteral (done : List Char) : List Char → Option (String × List Char)
  | [] => none
  | c :: rest =>
    if c == '\x27' then some (String.ofList done.reverse, rest)
    else if isControl c then none
    else readLiteral (c :: done) rest

/-- The text behind a line end, if it begins with one. -/
def lineEnd? : List Char → Option (List Char)
  | '\n' :: rest => some rest
  | '\r' :: '\n' :: rest => some rest
  | _ => none

/-- The closing of a string over several lines: three quotes, and up to two
more that belong to the string. -/
def closing? (quote : Char) (cs : List Char) : Option (List Char × List Char) :=
  let quotes := min 5 (cs.takeWhile (· == quote)).length
  if quotes < 3 then none
  else some (List.replicate (quotes - 3) quote, cs.drop quotes)

/-- The text behind a line that a backslash continues: blanks, at least one
line end, and further blanks. -/
def continued? (cs : List Char) : Option (List Char) :=
  match lineEnd? (skipSpaces cs) with
  | none => none
  | some rest => some (rest.dropWhile fun c => isSpace c || c == '\n' || c == '\r')

/-- A string over several lines, behind the opening quotes and a line end
there. -/
def readLong (quote : Char) : Nat → List Char → List Char → Option (String × List Char)
  | 0, _, _ => none
  | _, _, [] => none
  | fuel + 1, done, c :: rest =>
    match closing? quote (c :: rest) with
    | some (more, rest) => some (String.ofList (done.reverse ++ more), rest)
    | none =>
      if c == '\\' && quote == '"' then
        match continued? rest with
        | some rest => readLong quote fuel done rest
        | none =>
          match readEscape rest with
          | some (c, rest) => readLong quote fuel (c :: done) rest
          | none => none
      else if c == '\r' then
        match rest with
        | '\n' :: rest => readLong quote fuel ('\n' :: '\r' :: done) rest
        | _ => none
      else if isControl c && c != '\n' then none
      else readLong quote fuel (c :: done) rest

/-- A string of any of the four kinds. -/
def readString (cs : List Char) : Option (String × List Char) :=
  let long := fun (quote : Char) (rest : List Char) =>
    let rest := (lineEnd? rest).getD rest
    readLong quote (rest.length + 1) [] rest
  match cs with
  | '"' :: '"' :: '"' :: rest => long '"' rest
  | '\x27' :: '\x27' :: '\x27' :: rest => long '\x27' rest
  | '"' :: rest => readBasic (rest.length + 1) [] rest
  | '\x27' :: rest => readLiteral [] rest
  | _ => none

/-- A single key: bare or in quotes. -/
def readKey (cs : List Char) : Option (String × List Char) :=
  match cs with
  | '"' :: rest => readBasic (rest.length + 1) [] rest
  | '\x27' :: rest => readLiteral [] rest
  | _ =>
    let key := cs.takeWhile isKeyChar
    if key.isEmpty then none else some (String.ofList key, cs.drop key.length)

/-- A key, dotted or not, with blanks around its parts: all parts but the
last, and the last. -/
def readKeys : Nat → List String → List Char → Option (List String × String × List Char)
  | 0, _, _ => none
  | fuel + 1, path, cs =>
    match readKey (skipSpaces cs) with
    | none => none
    | some (key, rest) =>
      match skipSpaces rest with
      | '.' :: rest => readKeys fuel (path ++ [key]) rest
      | rest => some (path, key, rest)

/-- `readKeys` for the whole text. -/
def readPath (cs : List Char) : Option (List String × String × List Char) :=
  readKeys (cs.length + 1) [] cs

/-! ## Numbers and times -/

/-- Digits with single underscores between them, at least one. -/
def digits? (isDigit : Char → Bool) (cs : List Char) : Option (List Char) :=
  match cs with
  | [] => none
  | _ =>
    let runs := (cs.splitBy fun a b => (a == '_') == (b == '_'))
    let fine := runs.all fun run => run == ['_'] || run.all isDigit
    if fine && cs.head? != some '_' && cs.getLast? != some '_' then
      some (cs.filter (· != '_'))
    else none

/-- The number that digits spell in a base. -/
def numberIn (base : Nat) (digits : List Char) : Nat :=
  digits.foldl (fun n c => n * base + (digitValue c).getD 0) 0

/-- Decimal digits without a superfluous zero in front. -/
def decimal? (cs : List Char) : Option Nat :=
  match digits? Char.isDigit cs with
  | none => none
  | some ('0' :: _ :: _) => none
  | some digits => some (numberIn 10 digits)

/-- A whole number in the range of 64 bits. -/
def inRange (n : Int) : Option Value :=
  if Int64.minValue.toInt ≤ n && n ≤ Int64.maxValue.toInt then some (.integer n) else none

/-- A sign and what follows it. -/
def signed (cs : List Char) : Bool × List Char :=
  match cs with
  | '-' :: rest => (true, rest)
  | '+' :: rest => (false, rest)
  | _ => (false, cs)

/-- A decimal fraction without its sign. -/
def isFraction (cs : List Char) : Bool :=
  let whole := cs.takeWhile fun c => c != '.' && c != 'e' && c != 'E'
  let rest := cs.drop whole.length
  let (places, exponent) := match rest with
    | '.' :: rest =>
      let places := rest.takeWhile fun c => c != 'e' && c != 'E'
      ((digits? Char.isDigit places).isSome, rest.drop places.length)
    | rest => (true, rest)
  (decimal? whole).isSome && places && !rest.isEmpty &&
    match exponent with
    | [] => true
    | _ :: power => (digits? Char.isDigit (signed power).2).isSome

/-- A number of exactly `width` digits between two bounds. -/
def within (width low high : Nat) (cs : List Char) : Bool :=
  cs.length == width && cs.all Char.isDigit &&
    low ≤ numberIn 10 cs && numberIn 10 cs ≤ high

/-- The number of days of a month, by the rule of leap years that skips the
centuries but every fourth. -/
def daysOfMonth (year month : Nat) : Nat :=
  match month with
  | 2 => if year % 4 == 0 && (year % 100 != 0 || year % 400 == 0) then 29 else 28
  | 4 | 6 | 9 | 11 => 30
  | _ => 31

/-- A date `YYYY-MM-DD` of the calendar. -/
def isDate (cs : List Char) : Bool :=
  let year := cs.take 4
  let month := (cs.drop 5).take 2
  cs.length == 10 && within 4 0 9999 year && cs[4]? == some '-' &&
    within 2 1 12 month && cs[7]? == some '-' &&
    within 2 1 (daysOfMonth (numberIn 10 year) (numberIn 10 month)) (cs.drop 8)

/-- A time `HH:MM`, with seconds and a fraction of them if given. -/
def isTime (cs : List Char) : Bool :=
  within 2 0 23 (cs.take 2) && cs[2]? == some ':' && within 2 0 59 ((cs.drop 3).take 2) &&
    match cs.drop 5 with
    | [] => true
    | ':' :: rest =>
      within 2 0 60 (rest.take 2) &&
        match rest.drop 2 with
        | [] => true
        | '.' :: places => !places.isEmpty && places.all Char.isDigit
        | _ => false
    | _ => false

/-- A time with the offset from universal time that may follow it. -/
def isOffsetTime (cs : List Char) : Bool :=
  match cs.reverse with
  | 'Z' :: rest | 'z' :: rest => isTime rest.reverse
  | _ =>
    let clock := cs.takeWhile fun c => c != '+' && c != '-'
    let offset := cs.drop clock.length
    isTime clock &&
      match offset with
      | [] => true
      | _ :: zone =>
        zone.length == 5 && within 2 0 23 (zone.take 2) && zone[2]? == some ':' &&
          within 2 0 59 (zone.drop 3)

/-- A date, a time, or a date and a time. -/
def isMoment (cs : List Char) : Bool :=
  isDate cs || isTime cs ||
    (isDate (cs.take 10) && (cs[10]?.any fun c => c == 'T' || c == 't' || c == ' ') &&
      isOffsetTime (cs.drop 11))

/-- **The value a bare word stands for.** -/
def wordValue (word : List Char) : Option Value :=
  let (negative, rest) := signed word
  match String.ofList word, String.ofList rest with
  | "true", _ => some (.boolean true)
  | "false", _ => some (.boolean false)
  | _, "inf" | _, "nan" => some (.fraction (String.ofList word))
  | _, _ =>
    match word with
    | '0' :: 'x' :: hex => (digits? (digitValue · |>.isSome) hex).bind (inRange <| numberIn 16 ·)
    | '0' :: 'o' :: octal =>
      (digits? (fun c => '0' ≤ c && c ≤ '7') octal).bind (inRange <| numberIn 8 ·)
    | '0' :: 'b' :: binary =>
      (digits? (fun c => c == '0' || c == '1') binary).bind (inRange <| numberIn 2 ·)
    | _ =>
      match decimal? rest with
      | some n => inRange (if negative then -(n : Int) else n)
      | none =>
        if isFraction rest then some (.fraction (String.ofList word))
        else if isMoment word then some (.moment (String.ofList word))
        else none

/-- A character that ends a bare word. -/
def endsWord (c : Char) : Bool :=
  isSpace c || c == '\n' || c == '\r' || c == ',' || c == ']' || c == '\x7d' || c == '#'

/-- A number, time or truth value. One blank may stand between a date and
its time. -/
def readWord (cs : List Char) : Option (Value × List Char) :=
  let word := cs.takeWhile (!endsWord ·)
  let rest := cs.drop word.length
  let (word, rest) := match rest with
    | ' ' :: c :: more =>
      if isDate word && c.isDigit then
        let time := (c :: more).takeWhile (!endsWord ·)
        (word ++ ' ' :: time, (c :: more).drop time.length)
      else (word, rest)
    | _ => (word, rest)
  (wordValue word).map fun v => (v, rest)

end TableMapper.ConfigText
