import SignedConsole.Text.Blank

namespace SignedConsole.Path

/-- The parts between slashes, empty ones included. -/
def parts (path : String) : List String :=
  (Text.splitWith (· == '/') path.toList).map String.ofList

def isAbsolute (path : String) : Bool := path.toList.head? == some '/'

def endsWithSlash (path : String) : Bool := path.toList.getLast? == some '/'

/-- The parts that name something: neither empty nor a point. -/
def names (path : String) : List String := (parts path).filter fun p => p != "" && p != "."

/-- The base with a relative path behind it. -/
def join (base path : String) : String :=
  if isAbsolute path || base.isEmpty then path
  else if endsWithSlash base then base ++ path
  else base ++ "/" ++ path

/-- The path without the slashes at its end, of which the root keeps one. -/
def unslashed (path : String) : String :=
  let cs := (path.toList.reverse.dropWhile (· == '/')).reverse
  if cs.isEmpty && isAbsolute path then "/" else String.ofList cs

/-- A path text for the given names. -/
def ofNames (absolute : Bool) (names : List String) : String :=
  (if absolute then "/" else "") ++ String.intercalate "/" names

/-- The path without its last name. The root and the empty path have none. -/
def parent? (path : String) : Option String :=
  match names path with
  | [] => if isAbsolute path || path.isEmpty then none else some ""
  | ns => some (ofNames (isAbsolute path) ns.dropLast)

/-- The path and all that lie above it, the nearest first. -/
def upward (path : String) : List String :=
  let ns := names path
  path :: (List.range ns.length).reverse.map fun i => ofNames (isAbsolute path) (ns.take i)

end SignedConsole.Path
