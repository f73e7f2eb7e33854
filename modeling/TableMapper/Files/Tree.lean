import TableMapper.Files.Path

/-!
# File trees

What a run reads and changes on disk, as a value: a map from places to files
and directories. A place is the list of names that leads to it, and the empty
list is the directory everything starts from. Every operation that changes
the tree does so at places it names (`at?_set`), and one that fails
changes nothing.
-/

namespace TableMapper

/-- What a file holds. -/
inductive Content
  | text (s : String)
  /-- Bytes that are no text in UTF-8. -/
  | binary (bytes : List UInt8)
deriving Repr, DecidableEq

/-- The content that some bytes are. -/
def Content.ofBytes (bytes : List UInt8) : Content :=
  match String.fromUTF8? ⟨bytes.toArray⟩ with
  | some s => .text s
  | none => .binary bytes

/-- Why a file or directory cannot be read or made. -/
inductive FileFault
  | notFound
  | isDirectory
  | notDirectory
  | alreadyExists
  /-- The file holds no text. -/
  | notText
deriving Repr, DecidableEq

/-- The wording of a fault. -/
def FileFault.message : FileFault → String
  | .notFound => "No such file or directory"
  | .isDirectory => "Is a directory"
  | .notDirectory => "Not a directory"
  | .alreadyExists => "File exists"
  | .notText => "stream did not contain valid UTF-8"

/-- The names that lead to a file or directory. -/
abbrev Location := List String

/-- The places on the way to a place, the start included. -/
def Location.above (location : Location) : List Location :=
  (List.range location.length).map location.take

/-- What a tree has at a place. -/
inductive Entry
  | file (content : Content)
  | directory
deriving Repr, DecidableEq

/-- A file tree. -/
structure FileTree where
  entries : List (Location × Entry) := []
deriving Repr

namespace FileTree

variable (t : FileTree)

/-- **What is at a place**; the start is a directory. -/
def at? (location : Location) : Option Entry :=
  if location.isEmpty then some .directory else t.entries.lookup location

/-- The tree with something put at a place. -/
def set (location : Location) (e : Entry) : FileTree :=
  ⟨(location, e) :: t.entries.filter (·.1 != location)⟩

/-- The tree without what is at a place. -/
def remove (location : Location) : FileTree :=
  ⟨t.entries.filter (·.1 != location)⟩

theorem lookup_filter_ne {location other : Location} (entries : List (Location × Entry))
    (h : other ≠ location) :
    (entries.filter (·.1 != location)).lookup other = entries.lookup other := by
  induction entries with
  | nil => rfl
  | cons head rest ih =>
    obtain ⟨place, e⟩ := head
    by_cases hp : place = location
    · subst hp
      have : (other == place) = false := by simpa using h
      simp [ih, List.lookup_cons, this]
    · by_cases ho : other = place
      · subst ho
        simp [hp]
      · have : (other == place) = false := by simpa using ho
        simp [hp, this, ih, List.lookup_cons]

/-- **Only the place itself changes.** -/
theorem at?_set {location other : Location} (e : Entry) (h : location ≠ []) :
    (t.set location e).at? other = if other = location then some e else t.at? other := by
  unfold at? set
  by_cases ho : other = location
  · subst ho
    simp [h]
  · have hne : (other == location) = false := by simpa using ho
    simp [ho, List.lookup_cons, hne, lookup_filter_ne _ ho]

/-- A file is at a place. -/
def isFileAt (location : Location) : Bool :=
  match t.at? location with
  | some (.file _) => true
  | _ => false

/-- Some place on the way is a file. -/
def isBlocked (location : Location) : Bool :=
  location.above.any t.isFileAt

/-- What a path leads to. -/
def find (path : String) : Except FileFault Entry :=
  let location := Path.location path
  if path.isEmpty then .error .notFound
  else if t.isBlocked location then .error .notDirectory
  else
    match t.at? location with
    | none => .error .notFound
    | some .directory => .ok .directory
    | some (.file content) =>
      if Path.namesDirectory path then .error .notDirectory else .ok (.file content)

/-- A path leads to something. -/
def «exists» (path : String) : Bool :=
  match t.find path with
  | .ok _ => true
  | .error _ => false

/-- A path leads to a file. -/
def isFile (path : String) : Bool :=
  match t.find path with
  | .ok (.file _) => true
  | _ => false

/-- **The text of a file.** -/
def readText (path : String) : Except FileFault String :=
  match t.find path with
  | .error fault => .error fault
  | .ok .directory => .error .isDirectory
  | .ok (.file (.binary _)) => .error .notText
  | .ok (.file (.text s)) => .ok s

/-- A directory made at a place, unless something is there. -/
def ensureDirectory (location : Location) : FileTree :=
  if (t.at? location).isSome then t else t.set location .directory

/-- **Makes a directory and all directories on the way.** -/
def makeDirectories (path : String) : Except FileFault FileTree :=
  let location := Path.location path
  if t.isBlocked location then .error .notDirectory
  else if t.isFileAt location then .error .alreadyExists
  else .ok ((Location.above location ++ [location]).foldl ensureDirectory t)

/-- **Makes or replaces a file.** Its directory must be there, and the path
must be one that a file can have. -/
def write (path : String) (content : Content) : Except FileFault FileTree :=
  let location := Path.location path
  if path.isEmpty then .error .notFound
  else if t.isBlocked location then .error .notDirectory
  else if Path.namesDirectory path then .error .isDirectory
  else
    match t.at? location, t.at? location.dropLast with
    | some .directory, _ => .error .isDirectory
    | _, some .directory => .ok (t.set location (.file content))
    | _, _ => .error .notFound

/-- Makes or replaces a file that holds a text. -/
def writeText (path text : String) : Except FileFault FileTree :=
  t.write path (.text text)

end FileTree

end TableMapper
