import WasiSandbox.Import.Basic

/-! # Imports with prepared answers

An import whose answers are laid down in advance: the first call gets the first answer, and the last
answer is given again when they run out. Every call is entered in the journal of the host. -/

namespace WasiSandbox

/-- A prepared answer. -/
inductive CannedAnswer where
  | values (vs : List Value)
  /-- The arguments are the results. -/
  | echo
  | failure (text : String)
  | exit (code : Int32)
  deriving DecidableEq, Repr

/-- What the answer comes to for the arguments. -/
def CannedAnswer.result (args : List Value) : CannedAnswer → Except Abort (List Value)
  | values vs => .ok vs
  | echo => .ok args
  | failure text => .error (.failed text)
  | exit code => .error (.exit code)

/-- The answer to the call that comes after `calls` earlier ones; without answers it is an echo. -/
def CannedAnswer.pick (answers : List CannedAnswer) (calls : Nat) : CannedAnswer :=
  match answers[calls]? with
  | some a => a
  | none => answers.getLast?.getD .echo

/-- The import that gives the answers, at once or by leaving work behind. -/
def Import.canned (id : ImportId) (signature : Signature) (later : Bool)
    (answers : List CannedAnswer) : Import where
  id := id
  signature := signature
  body := fun args => do
    let calls := (← get).host.journal.calls id
    modify fun c => { c with host := { c.host with journal := c.host.journal ++ [.invoked id args] } }
    let result := (CannedAnswer.pick answers calls).result args
    if later then return .pending ⟨result⟩
    else match result with
      | .ok vs => return .ready vs
      | .error a => throw a

end WasiSandbox
