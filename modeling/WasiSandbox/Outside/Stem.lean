/-! # The stem of a path

The name by which a program is known to itself: the last name in its path, without the last dot and
what follows it. A name that starts with its only dot is kept whole. A path that ends in a reference
to an upper directory, or that has no name at all, has no stem. -/

namespace WasiSandbox.Outside

/-- The last name in the path; empty names and references to the same directory do not count. -/
def lastName? (path : String) : Option String :=
  let names := ((path.toList.splitOn '/').map String.ofList).filter fun n => n != "" && n != "."
  names.getLast?.filter (· != "..")

/-- The name without its last dot and what follows it. -/
def withoutExtension (name : String) : String :=
  let cs := name.toList.reverse
  let rest := (cs.dropWhile (· != '.')).drop 1
  if rest.isEmpty then name else String.ofList rest.reverse

/-- The stem of the path, if it has one. -/
def stem? (path : String) : Option String := (lastName? path).map withoutExtension

end WasiSandbox.Outside
