import Reporting.Calendar.DateTime
import Reporting.Sql.Store
import Reporting.Text.Utf8

/-!
What commands see of the system they run on: what stands at the paths of files, and what the environment
sets. A host is given as a record of these, for any monad, so that the same command runs on a real system
and on a folder held in memory.
-/

namespace Reporting

/-- What stands at a path. -/
inductive Entry where
  /-- nothing, and why that is -/
  | missing (why : String)
  | folder
  | file (bytes : List UInt8)
  /-- the tables of a database, instead of the bytes of its file -/
  | database (store : Sql.Store)
  /-- something that must not be read, and why -/
  | barred (why : String)

namespace Entry

def noFile : String := "No such file or directory (os error 2)"
def notFolder : String := "Not a directory (os error 20)"
def isFolder : String := "Is a directory (os error 21)"
def longName : String := "File name too long (os error 36)"
def notText : String := "stream did not contain valid UTF-8"

/-- The bytes that can be read, or why they cannot. -/
def bytes : Entry → Except String (List UInt8)
  | missing why => .error why
  | folder => .error isFolder
  | file bytes => .ok bytes
  | database _ => .error notText
  | barred why => .error why

/-- The text that can be read, or why it cannot. -/
def text (e : Entry) : Except String String :=
  match e.bytes with
  | .error why => .error why
  | .ok bytes =>
    match Text.decode bytes with
    | .ok cs => .ok (String.ofList cs)
    | .error _ => .error notText

/-- The bytes, unless nothing is there. -/
def bytes? : Entry → Option (Except String (List UInt8))
  | missing _ => none
  | e => some e.bytes

end Entry

/-- The path of a name within a folder. A name that begins at the root stands for itself. -/
def joinPath (folder name : String) : String :=
  if folder.isEmpty || name.startsWith "/" then name
  else if folder.endsWith "/" then folder ++ name
  else folder ++ "/" ++ name

/-- A folder of the user: the one that the environment sets under a name, if its path begins at the root,
else one within the home. -/
def userFolder (setting? : String → Option String) (name folder : String) : Option String :=
  match (setting? name).filter fun path => path.startsWith "/" with
  | some path => some path
  | none => (setting? "HOME").map fun home => joinPath home folder

/-- A system on which commands run. -/
structure Host (m : Type → Type) where
  look : String → m Entry
  /-- writes a file, or says why it cannot -/
  write : String → String → m (Except String Unit)
  /-- what the environment sets -/
  setting? : String → Option String
  /-- the folder with the settings of the user -/
  settingsFolder : Option String
  /-- the path of the database where no settings name one -/
  databasePath : String
  now : Calendar.DateTime

end Reporting
