import Cbor.Text.Utf8

/-!
# The file store

The files below a working directory and the directories that hold them, as far as commands read
and write them.
-/

namespace Cbor

inductive StoreError where
  | notFound
  | alreadyExists
  | notDirectory
  | isDirectory
  | nameTooLong
  | nulInName
  | notText
  deriving DecidableEq, Repr

namespace StoreError

def message : StoreError → Text
  | .notFound => "No such file or directory (os error 2)".toList
  | .alreadyExists => "File exists (os error 17)".toList
  | .notDirectory => "Not a directory (os error 20)".toList
  | .isDirectory => "Is a directory (os error 21)".toList
  | .nameTooLong => "File name too long (os error 36)".toList
  | .nulInName => "file name contained an unexpected NUL byte".toList
  | .notText => "stream did not contain valid UTF-8".toList

end StoreError

/-- The names from the working directory to a file or directory.  Names `..`, which lead out of
it, stand in front; absolute paths start with the name `/`, which no name within a directory is. -/
abbrev Path := List Text

namespace Path

def parts (text : Text) : List Text :=
  text.foldr (fun c parts =>
    match parts with
    | [] => []
    | part :: rest => if c = '/' then [] :: part :: rest else (c :: part) :: rest) [[]]

def toText : Path → Text
  | ['/'] :: names => '/' :: Text.join ['/'] names
  | names => Text.join ['/'] names

def root : Path := [['/']]

def isAbove (path : Path) : Bool := path.all (· == ['.', '.'])

def isWithin (path : Path) : Bool :=
  match path with
  | [] => true
  | name :: _ => !(name == ['.', '.'] || name == ['/'])

def parent (path : Path) : Path :=
  if path = root then root
  else if path.isAbove then path ++ [['.', '.']]
  else path.dropLast

def follow (here : Path) (name : Text) : Path :=
  if name = [] ∨ name = ['.'] then here
  else if name = ['.', '.'] then here.parent
  else here ++ [name]

def trail (here : Path) : List Text → List Path
  | [] => [here]
  | name :: names => here :: trail (here.follow name) names

end Path

/-- Files with their contents, and directories.  The working directory, those that it is in and the
root are always there. -/
structure Store where
  files : List (Path × Bytes) := []
  directories : List Path := []
  deriving Repr

namespace Store

inductive Entry where
  | file (content : Bytes)
  | directory

def lookup (store : Store) (path : Path) : Option Entry :=
  match store.files.find? fun file => file.1 == path with
  | some (_, content) => some (.file content)
  | none =>
      if path.isAbove || path == Path.root || store.directories.contains path then some .directory
      else none

def put (store : Store) (path : Path) (content : Bytes) : Store :=
  { store with
    files := (path, content) :: store.files.filter fun file => !(file.1 == path) }

def checkName (text : Text) : Except StoreError Unit :=
  if text.any (· == '\x00') then .error .nulInName
  else if text.isEmpty then .error .notFound
  else if 4096 ≤ (Utf8.encode text).length then .error .nameTooLong
  else .ok ()

/-- Where a name leads from a directory, which need not exist there. -/
def enter (store : Store) (here : Path) (name : Text) : Except StoreError Path :=
  match store.lookup here with
  | none => .error .notFound
  | some (.file _) => .error .notDirectory
  | some .directory =>
      if 255 < (Utf8.encode name).length then .error .nameTooLong
      else .ok (here.follow name)

def route (text : Text) : Path × List Text :=
  match text with
  | '/' :: rest => (Path.root, Path.parts rest)
  | _ => ([], Path.parts text)

def resolve (store : Store) (text : Text) : Except StoreError Path := do
  checkName text
  let (start, names) := route text
  names.foldlM store.enter start

def read (store : Store) (text : Text) : Except StoreError Bytes := do
  match store.lookup (← store.resolve text) with
  | none => .error .notFound
  | some .directory => .error .isDirectory
  | some (.file content) => .ok content

/-- Writes a file, new or not, into a directory that exists.  A slash at the end says that the path
is meant to be a directory, whether there is one or not. -/
def write (store : Store) (text : Text) (content : Bytes) : Except StoreError Store := do
  checkName text
  let (start, names) := route text
  let stripped := (names.reverse.dropWhile List.isEmpty).reverse
  let here ← stripped.dropLast.foldlM store.enter start
  if stripped.length < names.length then
    let _ ← store.enter here []
    .error .isDirectory
  else
    let path ← store.enter here (names.getLastD [])
    match store.lookup path with
    | some .directory => .error .isDirectory
    | _ => .ok (store.put path content)

def makeDirectory (store : Store) (start : Path) (names : List Text) : Except StoreError Store := do
  let stripped := (names.reverse.dropWhile List.isEmpty).reverse
  let here ← stripped.dropLast.foldlM store.enter start
  let path ← store.enter here (stripped.getLastD [])
  match store.lookup path with
  | some _ => .error .alreadyExists
  | none => .ok { store with directories := path :: store.directories }

def ensureDirectory (store : Store) (start : Path) (names : List Text) :
    Except StoreError Store :=
  match store.makeDirectory start names with
  | .error .alreadyExists =>
      match (names.foldlM store.enter start).toOption.bind store.lookup with
      | some .directory => .ok store
      | _ => .error .alreadyExists
  | result => result

/-- Creates a directory.  If it cannot be reached yet, those in `outer`, which lead to it, come
before it; the nearest of them is the first. -/
def createFrom (store : Store) (start : Path) (names : List Text) (outer : List (List Text)) :
    Except StoreError Store :=
  match store.ensureDirectory start names, outer with
  | .error .notFound, next :: outer => do
      let store ← store.createFrom start next outer
      store.ensureDirectory start names
  | result, _ => result

def leadingTo (names : List Text) : List (List Text) :=
  let proper := names.filter fun name => !(name.isEmpty || name == ['.'])
  (List.range proper.length).reverse.map proper.take

def createDirectories (store : Store) (text : Text) : Except StoreError Store := do
  checkName text
  let (start, names) := route text
  store.createFrom start names (leadingTo names)

def readText (store : Store) (text : Text) : Except StoreError Text := do
  match Utf8.decode? (← store.read text) with
  | some content => .ok content
  | none => .error .notText

def trail (text : Text) : List Path :=
  let (start, names) := route text
  start.trail names

def add (store : Store) (text : Text) (content : Bytes) : Store :=
  let paths := trail text
  { store with directories := store.directories ++ paths.dropLast }.put (paths.getLastD []) content

def addDirectory (store : Store) (text : Text) : Store :=
  { store with directories := store.directories ++ trail text }

def fresh : Store :=
  (({} : Store).addDirectory "/tmp".toList).add "/dev/null".toList []

def newFiles (store before : Store) : List (Text × Bytes) :=
  let new := store.files.filter fun file =>
    file.1.isWithin && before.files.all fun old => !(old.1 == file.1)
  (new.map fun file => (Path.toText file.1, file.2)).mergeSort fun x y => !decide (y.1 < x.1)

end Store

end Cbor
