import Widgetry.Config.Stored
import Widgetry.Log

/-!
# Configuration files

Where the configuration is looked for, and what loading and saving it does.
-/

namespace Widgetry

/-- The settings that a program is started with. -/
structure Environment where
  configPath : Option String := none
  configHome : Option String := none
  home : Option String := none
  logFilter : Option String := none

/-- A path below another one. -/
def joinPath (base name : String) : String :=
  if base = "" ∨ base.toList.getLast? = some '/' then base ++ name else base ++ "/" ++ name

namespace Environment

/-- The directory for configurations. Without a home directory there is none. -/
def configDirectory (env : Environment) : Option String :=
  match env.home with
  | some home =>
    match env.configHome with
    | some directory =>
      if Disk.isAbsolute directory then some directory else some (joinPath home ".config")
    | none => some (joinPath home ".config")
  | none => none

/-- The path of the configuration file: the one asked for, or the usual one. -/
def configFile (env : Environment) : Option String :=
  match env.configPath with
  | some path => some path
  | none => env.configDirectory.map fun d => joinPath (joinPath d "rectkit") "config.json"

end Environment

namespace Config

/-- Reads a configuration from what was found at a path. -/
def ofFile (path : String) (found : Except Disk.Fault String) : Except Error Config := do
  let text ← found.mapError (.disk path)
  ofJson text

/-- Reads a configuration file. -/
def load (d : Disk) (path : String) : Except Error Config := ofFile path (d.readText path)

/-- Reads the configuration file if there is one; `look` says what is at a path, if anything is. -/
def loadOrStandard (env : Environment) (look : String → Option (Except Disk.Fault String)) :
    List Log.Entry × Except Error Config :=
  match env.configFile with
  | none => ([⟨.warn, "No config directory available, using defaults"⟩], .ok standard)
  | some path =>
    match look path with
    | none => ([⟨.info, "No config at " ++ path ++ ", using defaults"⟩], .ok standard)
    | some found => ([⟨.info, "Loading config from " ++ path⟩], ofFile path found)

/-- Writes a configuration file, with the directories it needs. Answers what is on the disk
afterwards, also after a failure. -/
def save (c : Config) (d : Disk) (path : String) : Disk × Except Error Unit :=
  match d.makeParents path with
  | (d, .error f) => (d, .error (.disk path f))
  | (d, .ok ()) =>
    match d.write path c.toJson.toUTF8 with
    | .error f => (d, .error (.disk path f))
    | .ok d => (d, .ok ())

end Config

/-- What is at a path of a disk, if anything is. -/
def Disk.look (d : Disk) (path : String) : Option (Except Disk.Fault String) :=
  if d.has path then some (d.readText path) else none

end Widgetry
