import KeywordRunner.Config.Settings

/-!
# Config.Storage — settings as a file

What the content of a settings file means, what is written to one, and where it lies when the
user names no other place. A missing file means the defaults.
-/

namespace KeywordRunner.Config

/-- Why settings could not be loaded or saved. -/
inductive StorageFault where
  /-- There is no directory for settings. -/
  | noDirectory
  /-- The file system failed, in its own words. -/
  | io (path : String) (reason : String)
  | parse (path : String) (fault : JsonFault Empty)
  /-- The document is newer than this library. -/
  | unsupportedVersion (found : UInt32)

def describe : JsonFault Empty → String
  | .malformed => "not valid JSON"
  | .tooDeep => "nested too deeply"
  | .outOfRange => "number out of range"
  | .mismatch => "unexpected value"
  | .repeated field => "duplicate field " ++ Text.quoted field
  | .surplus => "too many items"
  | .rejected cause => nomatch cause

def StorageFault.message : StorageFault → String
  | .noDirectory => "No config directory available on this platform"
  | .io path reason => "IO error on " ++ path ++ ": " ++ reason
  | .parse path fault => "Invalid config file " ++ path ++ ": " ++ describe fault
  | .unsupportedVersion found =>
    "Config version " ++ Digits.text found.toNat ++ " is newer than supported version " ++
      Digits.text currentVersion.toNat

inductive FileContent where
  | missing
  | unreadable (reason : String)
  | text (content : String)

/-- The settings in the text of a file. -/
def decode (path : String) (content : String) : Except StorageFault Settings :=
  match Settings.parse content with
  | .error fault => .error (.parse path fault)
  | .ok s => if currentVersion < s.version then .error (.unsupportedVersion s.version) else .ok s

def load (path : String) : FileContent → Except StorageFault Settings
  | .missing => .ok .default
  | .unreadable reason => .error (.io path reason)
  | .text content => decode path content

/-- The text that saving writes. -/
def encode (s : Settings) : String := s.toJson.pretty

/-! ### Where the file lies -/

/-- The name of the program's own directory. -/
def directoryName : String := "droidkw"

def fileName : String := "config.json"

def isAbsolute (path : String) : Bool := path.toList.head? == some '/'

def join (directory : String) (name : String) : String :=
  if directory = "" then name
  else if directory.toList.getLast? = some '/' then directory ++ name
  else directory ++ "/" ++ name

/-- The directory of the user's settings: the one set for all programs if that is an absolute
path, else the conventional place in the home directory. -/
def baseDirectory? (configHome : Option String) (home : Option String) : Option String :=
  match configHome with
  | some path => if isAbsolute path then some path else home.map (join · ".config")
  | none => home.map (join · ".config")

def directory? (configHome home : Option String) : Option String :=
  (baseDirectory? configHome home).map (join · directoryName)

/-- The settings file used when no other is named. -/
def defaultFile? (configHome home : Option String) : Option String :=
  (directory? configHome home).map (join · fileName)

end KeywordRunner.Config
