import WasiSandbox.Text.Quoted

/-! # Pairs on the command line

Variables and files are given as two texts with `=` between them. The first `=` divides; what is left
of it must not be empty, and what is right of it may hold more of them. -/

namespace WasiSandbox.Command

/-- The two sides of the first `=`, if there is one. -/
def splitAtEquals : List Char → Option (List Char × List Char)
  | [] => none
  | c :: rest =>
    if c = '=' then some ([], rest)
    else (splitAtEquals rest).map fun (left, right) => (c :: left, right)

/-- The pair that the text stands for, or what is wrong with it. -/
def parsePair (raw : String) : Except String (String × String) :=
  match splitAtEquals raw.toList with
  | some (left, right) =>
    if left = [] then .error ("expected LEFT=RIGHT, got " ++ Text.quoted raw)
    else .ok (String.ofList left, String.ofList right)
  | none => .error ("expected LEFT=RIGHT, got " ++ Text.quoted raw)

end WasiSandbox.Command
