import MediaCatalogue.Settings.Basic
import MediaCatalogue.Text.Separated
import MediaCatalogue.Text.Utf8

/-!
# Where settings come from

The file of the settings is the one that the command line names, else the one that the environment
names, else the file of the user, if it exists. Without a file, and with a named file that does not
exist, the defaults hold; a file that exists must be readable and hold settings.

* `Environment.settingsPath?` finds the file, `Settings.load` reads it;
* `Settings.Origin` tells what was found.
-/

namespace MediaCatalogue

/-- The files of a system. Paths are lists of names from the root. -/
structure Files where
  /-- The files and what they hold. -/
  files : List (List String × List UInt8)
  /-- Directories, besides those that hold something. -/
  directories : List (List String)
  /-- The directory where relative paths start. -/
  current : List String

namespace Files

/-- There is a directory with this path. -/
def isDirectory (fs : Files) (path : List String) : Bool :=
  path.isEmpty || fs.directories.any (path.isPrefixOf ·) ||
    fs.files.any fun (file, _) => path.isPrefixOf file && path.length < file.length

/-- What the file with this path holds. -/
def file? (fs : Files) (path : List String) : Option (List UInt8) := fs.files.lookup path

/-- Goes on from a directory by one name. -/
def enter (fs : Files) (path : List String) (name : String) : Option (List String) :=
  if !fs.isDirectory path then none
  else if name = "" || name = "." then some path
  else if name = ".." then some path.dropLast
  else
    let next := path ++ [name]
    if fs.isDirectory next || (fs.file? next).isSome then some next else none

/-- The path of an existing file or directory. -/
def find? (fs : Files) (path : String) : Option (List String) :=
  match (Text.separated '/' path.toList).map String.ofList with
  | [""] => none
  | "" :: names => names.foldlM fs.enter []
  | names => names.foldlM fs.enter fs.current

/-- The file or directory exists. -/
def exists? (fs : Files) (path : String) : Bool := (fs.find? path).isSome

/-- The text of a file. -/
def read (fs : Files) (path : String) : Except Fault String :=
  match ((fs.find? path).bind fs.file?).bind Text.Utf8.decode with
  | some text => .ok text
  | none => .error (.io path)

end Files

/-- The environment of a process. -/
structure Environment where
  /-- The variables. -/
  entries : List (String × String)
  /-- The home directory of the account. -/
  account : Option String

namespace Environment

/-- The value of a variable, unless it is empty. -/
def value? (env : Environment) (name : String) : Option String :=
  (env.entries.lookup name).filter (· ≠ "")

/-- A path that continues another one. -/
def join (directory name : String) : String :=
  if directory.toList.getLast? = some '/' then directory ++ name else directory ++ "/" ++ name

/-- The home directory. -/
def home? (env : Environment) : Option String := env.value? "HOME" <|> env.account

/-- A directory that a variable names by an absolute path, or one in the home directory. -/
def userDirectory? (env : Environment) (name fallback : String) : Option String :=
  ((env.value? name).filter (·.toList.head? = some '/')) <|> env.home?.map (join · fallback)

/-- The file of the database if nothing else is said. -/
def databasePath (env : Environment) : String :=
  match env.userDirectory? "XDG_DATA_HOME" ".local/share" with
  | some directory => join (join directory "atlas") "atlas.db"
  | none => "./atlas_data/atlas.db"

/-- The settings file of the user. -/
def userSettings? (env : Environment) : Option String :=
  (env.userDirectory? "XDG_CONFIG_HOME" ".config").map fun directory =>
    join (join directory "atlas") "config.toml"

/-- The settings file: the one of the command line, the one of the environment, or the one of the
user. -/
def settingsPath? (env : Environment) (fs : Files) (argument : Option String) : Option String :=
  argument <|> env.value? "ATLAS_CONFIG" <|> env.userSettings?.filter fs.exists?

end Environment

/-- Where settings come from. -/
inductive Settings.Origin where
  /-- A file. -/
  | file (path : String)
  /-- The defaults, as a named file does not exist. -/
  | missing (path : String)
  /-- The defaults, as no file is named. -/
  | defaults
deriving DecidableEq, Repr

namespace Settings

/-- The defaults hold. -/
def Origin.isDefault : Origin → Bool
  | file _ => false
  | _ => true

/-- How the origin is shown. -/
def Origin.display : Origin → String
  | file path => path
  | missing path => s!"built-in defaults ({path} not found)"
  | defaults => "built-in defaults"

/-- Finds and reads the settings. -/
def load (env : Environment) (fs : Files) (argument : Option String) :
    Except Fault (Settings × Origin) :=
  let fallback : Settings := { databasePath := env.databasePath }
  match env.settingsPath? fs argument with
  | none => .ok (fallback, .defaults)
  | some path =>
    if fs.exists? path then do
      return (← parse env.databasePath (← fs.read path), .file path)
    else .ok (fallback, .missing path)

end Settings

end MediaCatalogue
