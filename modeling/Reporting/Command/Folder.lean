import Reporting.Command.Host

/-!
A folder held in memory as a system for commands to run on. A path is walked name by name, and each name
asks for a folder to be walked from: so a file is no way to what stands beside it. Of what lies outside of
the folder, the folders above it are there and the usual places at the root of the system.
-/

namespace Reporting

/-- Files, and databases, by the names on the way to them. Folders are there for what they hold. -/
structure Folder where
  entries : List (List String × Entry)

namespace Folder

/-- Where a walk along a path has led. -/
inductive Place where
  /-- by the names on the way from the folder -/
  | inside (names : List String)
  /-- a folder that the folder stands in, or one that such a folder stands in -/
  | above
  /-- beside the folder, or beside one that it stands in, where nothing is known to be -/
  | beside
  /-- by the names on the way from the root of the system -/
  | system (names : List String)

namespace Place

/-- Where a name leads from a place. -/
def follow (name : String) : Place → Place
  | place@(inside names) =>
    if name = "" ∨ name = "." then place
    else if name = ".." then if names.isEmpty then above else inside names.dropLast
    else inside (names ++ [name])
  | above => if name = "" ∨ name = "." ∨ name = ".." then above else beside
  | beside => beside
  | place@(system names) =>
    if name = "" ∨ name = "." then place
    else if name = ".." then system names.dropLast
    else system (names ++ [name])

end Place

def empty : Folder := ⟨[]⟩

/-- The longest path that can be walked, and the longest name, in bytes. -/
def longestPath : Nat := 4095
def longestName : Nat := 255

/-- The folders that a system has at its root. -/
def systemFolders : List String :=
  ["bin", "boot", "dev", "etc", "home", "lib", "media", "mnt", "opt", "proc", "root", "run", "sbin", "srv",
    "sys", "tmp", "usr", "var"]

/-- What stands at a place outside of the folder: the device without content among what is known. -/
def systemEntry : List String → Entry
  | [] => .folder
  | [name] => if systemFolders.contains name then .folder else .missing Entry.noFile
  | ["dev", "null"] => .file []
  | _ => .missing Entry.noFile

/-- Something lies below these names, or nothing is needed for them to be a folder. -/
def hasFolder (f : Folder) (names : List String) : Bool :=
  names.isEmpty || f.entries.any fun e => names.isPrefixOf e.1 && e.1 != names

/-- What stands at a place. -/
def standing (f : Folder) : Place → Entry
  | .inside names =>
    match f.entries.lookup names with
    | some entry => entry
    | none =>
      if f.hasFolder names then .folder else .missing Entry.noFile
  | .above => .folder
  | .beside => .missing Entry.noFile
  | .system names => systemEntry names

/-- Goes on from a folder; from anything else there is no way. -/
def step (f : Folder) (place : Place) (name : String) : Except String Place :=
  match f.standing place with
  | .folder => if longestName < name.utf8ByteSize then .error Entry.longName else .ok (place.follow name)
  | .missing why => .error why
  | .barred why => .error why
  | _ => .error Entry.notFolder

/-- Where a path leads, name by name. -/
def walk (f : Folder) (path : String) (names : List String) : Except String Place :=
  if path.isEmpty then .error Entry.noFile
  else if longestPath < path.utf8ByteSize then .error Entry.longName
  else names.foldlM f.step (if path.startsWith "/" then .system [] else .inside [])

/-- What stands at a path. -/
def look (f : Folder) (path : String) : Entry :=
  match f.walk path (path.splitOn "/") with
  | .ok place => f.standing place
  | .error why => .missing why

/-- Puts an entry at the place, instead of one that is there. -/
def put (f : Folder) (names : List String) (entry : Entry) : Folder :=
  ⟨(names, entry) :: f.entries.filter fun e => e.1 != names⟩

/-- The folder with an entry at each path; a path out of the folder is passed over. -/
def ofEntries (entries : List (String × Entry)) : Folder :=
  entries.foldl (fun f (path, entry) =>
    match (path.splitOn "/").foldl (fun place name => Place.follow name place) (Place.inside []) with
    | .inside names => f.put names entry
    | _ => f) empty

/-- The names to walk for writing: a path that ends as that of a folder is one of the folder before. -/
def namesToWrite (path : String) : List String :=
  let names := ((path.splitOn "/").reverse.dropWhile (· = "")).reverse
  if path.endsWith "/" then names.dropLast ++ ["."] else names

/-- Writes a file into a folder that is there. What is written outside of the folder is not kept. -/
def write (f : Folder) (path text : String) : Except String Unit × Folder :=
  match f.walk path (namesToWrite path) with
  | .error why => (.error why, f)
  | .ok place =>
    match f.standing place, place with
    | .folder, _ => (.error Entry.isFolder, f)
    | .barred why, _ => (.error why, f)
    | _, .inside names => (.ok (), f.put names (.file (Text.encode text)))
    | _, _ => (.ok (), f)

/-- The folder as a host, at a point in time and with what the environment sets. It is the home of the
user, with the settings in `.config` and the data in `.local/share`. -/
def host (setting? : String → Option String) (now : Calendar.DateTime) : Host (StateM Folder) where
  look path := fun f => (f.look path, f)
  write path text := fun f => f.write path text
  setting? := setting?
  settingsFolder := some ".config"
  databasePath := ".local/share/tally/tally.db"
  now := now

end Folder
end Reporting
