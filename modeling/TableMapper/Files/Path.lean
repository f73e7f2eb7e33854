import TableMapper.Text.Blank

/-!
# Paths

A path is a text with slashes. Joining keeps what is written: a second path
that begins with a slash replaces the first, and the empty path adds nothing
but a slash.
-/

namespace TableMapper.Path

/-- A path that begins at the root. -/
def isAbsolute (path : String) : Bool :=
  path.toList.head? == some '/'

/-- **One path behind another.** -/
def join (base path : String) : String :=
  if isAbsolute path then path
  else if base.isEmpty || base.toList.getLast? == some '/' then base ++ path
  else base ++ "/" ++ path

/-- Several paths one behind the other. -/
def joinAll (paths : List String) : String :=
  paths.foldl join ""

/-- The named parts of a path. Single dots and repeated slashes are no
parts. -/
def parts (path : String) : List String :=
  (Text.splitAt '/' path).filter fun part => !part.isEmpty && part != "."

/-- The last named part of a path, unless it leads back. -/
def fileName (path : String) : String :=
  (((parts path).getLast?).filter (· != "..")).getD ""

/-- A path held in reverse without the slashes and single dots at its end.
A slash or a dot that is the whole path stays. -/
def dropTail : List Char → List Char
  | '/' :: c :: rest => dropTail (c :: rest)
  | '.' :: '/' :: rest => dropTail ('/' :: rest)
  | cs => cs
termination_by cs => cs.length

/-- **The directory of a path**, as written: what stands in front of the last
part. A path that is one name has the empty path as its directory. -/
def parent (path : String) : String :=
  String.ofList (dropTail ((dropTail path.toList.reverse).dropWhile (· != '/'))).reverse

/-- A path that only a directory can have. -/
def namesDirectory (path : String) : Bool :=
  path.endsWith "/" || path.endsWith "/."

/-- A part behind a place: two dots lead back. -/
def step (location : List String) (part : String) : List String :=
  if part = ".." && !location.isEmpty && location.getLast? != some ".." then location.dropLast
  else location ++ [part]

/-- **The place a path leads to**, as the names on the way. The names of a
path from the root follow a slash. -/
def location (path : String) : List String :=
  (parts path).foldl step (if isAbsolute path then ["/"] else [])

/-- The path to a place. -/
def ofLocation (location : List String) : String :=
  joinAll location

end TableMapper.Path
