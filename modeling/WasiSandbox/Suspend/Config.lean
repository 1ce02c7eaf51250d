/-! # The buffer of a suspended guest

A guest that is suspended saves its stack in its own memory. The two bounds of the region that it may
use stand, as words, at an address that the host hands to the control exports. -/

namespace WasiSandbox

/-- Where a suspended guest keeps its stack. -/
structure SuspendConfig where
  /-- The address of the pair of bounds. -/
  data : UInt32
  stackStart : UInt32
  stackEnd : UInt32
  deriving DecidableEq, Repr

/-- The bounds used unless told otherwise. -/
def SuspendConfig.default : SuspendConfig := ⟨16, 24, 1024⟩

end WasiSandbox
