/-
# Directories and files

A file row has the name of a file and a directory row, a directory row the path below its component and
the component. The absolute path of a file is rebuilt from these rows at each read. In the other direction
a path is split at the base of the component that owns it now, which need not be the component under which
the file was registered.
-/

import CppIndexer.Storage.Corpus

namespace CppIndexer.Sources

open Util (Bytes ascii)
open Util.PathUtil
open Occurrences (insertNew)
open Storage (nextRowId)

/-- A row of `directory`. -/
structure Directory where
  componentId : ℕ
  path : Bytes
  deriving DecidableEq

/-- What a caller of `add_file` says about a file. -/
structure FileMeta where
  mtime : Option ℚ := none
  md5 : Option Bytes := none
  /-- The JSON text of the options. -/
  compileOptions : Option Bytes := none
  driver : Option Bytes := none

/-- A row of `file`. -/
structure File extends FileMeta where
  directoryId : ℕ
  name : Bytes
  indexed : Bool := false
  argsOverridden : Bool := false

/-- `ON CONFLICT(directory_id, name) DO UPDATE`: edited options are kept, and a new digest or other
options make the file pending again. -/
def File.update (row : File) (given : FileMeta) : File :=
  let changes (new old : Option Bytes) : Bool := new.isSome ∧ new ≠ old
  { row with
    mtime := given.mtime <|> row.mtime
    md5 := given.md5 <|> row.md5
    compileOptions :=
      if row.argsOverridden then row.compileOptions else given.compileOptions <|> row.compileOptions
    driver := if row.argsOverridden then row.driver else given.driver <|> row.driver
    indexed :=
      if changes given.md5 row.md5 ∨ (!row.argsOverridden ∧
          (changes given.compileOptions row.compileOptions ∨ changes given.driver row.driver)) then false
      else row.indexed }

/-- The rows that place files. -/
structure Library where
  corpus : Corpus := {}
  directories : AssocMap ℕ Directory := .empty
  files : AssocMap ℕ File := .empty

/-- A directory as `add_directory` stores it. -/
def storedDirectory (path : Bytes) : Bytes :=
  let p := if path = [] then dot else normpath path
  if p = dot then [] else p

/-- `reconstruct_path`. -/
def reconstructPath (root rel name : Bytes) : Bytes :=
  if rel = [] then join root name else join (join root rel) name

namespace Library

variable (s : Surroundings) (library : Library)

/-- `add_directory`. -/
def addDirectory (componentId : ℕ) (path : Bytes) : ℕ × Library :=
  let row : Directory := ⟨componentId, storedDirectory path⟩
  match library.directories.minKey? fun other => other = row with
  | some id => (id, library)
  | none =>
    (nextRowId (library.directories.entries.map Prod.fst),
      { library with directories := insertNew library.directories row })

/-- `add_file`. -/
def addFile (directoryId : ℕ) (name : Bytes) (given : FileMeta) : ℕ × Library :=
  match library.files.minKey? fun row => row.directoryId = directoryId ∧ row.name = name with
  | some id =>
    (id, { library with files := updateRow library.files id fun row => row.update given })
  | none =>
    let row : File := { given with directoryId := directoryId, name := name }
    (nextRowId (library.files.entries.map Prod.fst),
      { library with files := insertNew library.files row })

/-- `split_path`: the component that owns a path, and the directory and the name below its base. -/
def splitPath (path : Bytes) : Option (ℕ × Bytes × Bytes) :=
  let abs := abspath s.cwd path
  match library.corpus.componentForPath s abs with
  | none => none
  | some (id, c) =>
    let (relDir, name) := split (relpath s.cwd abs (library.corpus.componentAbsBase s c))
    some (id, if relDir = dot then [] else relDir, name)

/-- `add_file_path`. -/
def addFilePath (path : Bytes) (given : FileMeta) : Except Bytes (ℕ × Library) :=
  match library.splitPath s path with
  | none =>
    .error (ascii "no component owns " ++ abspath s.cwd path ++ ascii " (add_component first)")
  | some (componentId, relDir, name) =>
    let (directoryId, library) := library.addDirectory componentId relDir
    .ok (library.addFile directoryId name given)

/-- `get_file`: the row that the join selects. -/
def getFile (path : Bytes) : Option ℕ :=
  match library.splitPath s path with
  | none => none
  | some (componentId, relDir, name) =>
    library.files.minKey? fun row =>
      library.directories.find? row.directoryId = some ⟨componentId, relDir⟩ ∧ row.name = name

/-- The rows behind a file: its own, its directory's and its component's. -/
def place (fileId : ℕ) : Option (File × Directory × Component) := do
  let row ← library.files.find? fileId
  let directory ← library.directories.find? row.directoryId
  let component ← library.corpus.components.find? directory.componentId
  return (row, directory, component)

/-- `file_abs_path`. -/
def fileAbsPath (fileId : ℕ) : Option Bytes :=
  (library.place fileId).map fun (row, directory, component) =>
    reconstructPath (library.corpus.componentAbsBase s component) directory.path row.name

/-- `delete_directory`, with its files. -/
def deleteDirectory (directoryId : ℕ) : Library :=
  { library with
    directories := library.directories.eraseWhere fun id _ => id = directoryId
    files := library.files.eraseWhere fun _ row => row.directoryId = directoryId }

/-- `delete_file`. -/
def deleteFile (fileId : ℕ) : Library :=
  { library with files := library.files.eraseWhere fun id _ => id = fileId }

/-- `ON DELETE CASCADE` of a component. -/
def cascade (componentId : ℕ) : Library :=
  { library with
    directories := library.directories.eraseWhere fun _ row => row.componentId = componentId
    files := library.files.eraseWhere fun _ row =>
      (library.directories.find? row.directoryId).any fun row => row.componentId = componentId }

/-- An operation on the catalog; one that throws changes nothing. -/
def operate (op : Operation) : Library :=
  match library.corpus.run s op with
  | .error _ => library
  | .ok (corpus, _) =>
    match op with
    | .deleteComponent componentId => { library.cascade componentId with corpus := corpus }
    | _ => { library with corpus := corpus }

end Library

/-- What a caller does. -/
inductive LibraryStep
  | operation (op : Operation)
  | addFilePath (path : Bytes) (given : FileMeta)
  | deleteDirectory (directoryId : ℕ)
  | deleteFile (fileId : ℕ)

namespace Library

variable (s : Surroundings) (library : Library)

/-- One step; one that throws changes nothing. -/
def step : LibraryStep → Library
  | .operation op => library.operate s op
  | .addFilePath path given =>
    match library.addFilePath s path given with
    | .ok (_, library) => library
    | .error _ => library
  | .deleteDirectory directoryId => library.deleteDirectory directoryId
  | .deleteFile fileId => library.deleteFile fileId

/-- The rows after a sequence of steps. -/
def play (steps : List LibraryStep) : Library := steps.foldl (step s) library

end Library

end CppIndexer.Sources
