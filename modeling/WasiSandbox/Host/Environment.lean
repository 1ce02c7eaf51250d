import WasiSandbox.Text.Utf8

/-! # Environment variables

The variables of a guest, each key once, in the order of the keys. A key that is set again keeps its
place and takes the later value. The guest sees each variable as one string, the key and the value
with `=` between them. -/

namespace WasiSandbox.Environment

/-- Sets a variable. -/
def insert (key value : String) : List (String × String) → List (String × String)
  | [] => [(key, value)]
  | (k, v) :: rest =>
    if k = key then (key, value) :: rest
    else if Text.nameLe key k then (key, value) :: (k, v) :: rest
    else (k, v) :: insert key value rest

/-- The variables that are set after setting these in order. -/
def ofList (vars : List (String × String)) : List (String × String) :=
  vars.foldl (fun env var => insert var.1 var.2 env) []

/-- The strings that the guest sees. -/
def strings (vars : List (String × String)) : List String :=
  (ofList vars).map fun var => var.1 ++ "=" ++ var.2

end WasiSandbox.Environment
