import WasiSandbox.Outside.Files

/-! # Fetching modules

A module is a string of octets, found at a location. Either every location holds the same octets, or
the location is the path of a file outside the sandbox, which may be meant from a base. -/

namespace WasiSandbox

/-- Why a module cannot be fetched. -/
inductive FetchError where
  | notFound (location : String)
  | io (location message : String)
  deriving DecidableEq, Repr

def FetchError.message : FetchError → String
  | notFound location => "Module not found: " ++ location
  | io location message => "Failed to fetch " ++ location ++ ": " ++ message

/-- The location below a base; a location from the top stands by itself. -/
def joinLocation (base location : String) : String :=
  if location.toList.head? = some '/' then location
  else if base = "" || base.toList.getLast? = some '/' then base ++ location
  else base ++ "/" ++ location

/-- Where modules come from. -/
inductive ModuleSource where
  /-- The same octets for every location. -/
  | bytes (content : Bytes)
  /-- Files outside as they are read by path, perhaps below a base. -/
  | files (read : String → Except OutsideError Bytes) (base : Option String)

/-- The octets at the location. -/
def ModuleSource.fetch (s : ModuleSource) (location : String) : Except FetchError Bytes :=
  match s with
  | bytes content => .ok content
  | files read base =>
    let path := match base with
      | some b => joinLocation b location
      | none => location
    match read path with
    | .ok content => .ok content
    | .error .notFound => .error (.notFound path)
    | .error e => .error (.io path e.message)

end WasiSandbox
