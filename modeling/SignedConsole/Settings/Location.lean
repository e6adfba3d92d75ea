import SignedConsole.Settings.Basic

namespace SignedConsole

/-- What the environment says about directories. -/
structure Environment where
  configHome : Option String
  dataHome : Option String
  home : Option String
deriving DecidableEq

namespace Environment

/-- The home directory, for which an empty name is none. -/
def homeDir (e : Environment) : Option String := e.home.filter fun h => !h.isEmpty

/-- A directory of the user: the one named, or else the one at a place below home. -/
def userDir (e : Environment) (named : Option String) (belowHome : String) : Option String :=
  (named.filter Path.isAbsolute).or (e.homeDir.map fun h => Path.join h belowHome)

/-- The name of the directories of this program. -/
def programName : String := "combinator"

def settingsPath (e : Environment) : Option String :=
  (e.userDir e.configHome ".config").map fun dir =>
    Path.join (Path.join dir programName) "config.json"

def dataDir (e : Environment) : Option String :=
  (e.userDir e.dataHome ".local/share").map fun dir => Path.join dir programName

end Environment

/-- Where credentials are kept. -/
def Settings.resolvedStateDir (s : Settings) (e : Environment) : Option String :=
  s.stateDir.or e.dataDir

end SignedConsole
