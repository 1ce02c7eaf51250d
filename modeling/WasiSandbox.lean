import WasiSandbox.Tree.Handles
import WasiSandbox.Import.Canned
import WasiSandbox.Main
import WasiSandbox.Proofs.Suspend.Conduct
import WasiSandbox.Proofs.Suspend.Violation
import WasiSandbox.Proofs.Instance.Life
import WasiSandbox.Proofs.Suspend.Contract
import WasiSandbox.Proofs.Suspend.RoundTrip
import WasiSandbox.Proofs.Suspend.AtOnce
import WasiSandbox.Proofs.Instance.Transparency
import WasiSandbox.Proofs.Instance.Register
import WasiSandbox.Proofs.Instance.Resumption
import WasiSandbox.Proofs.Output.Delivery
import WasiSandbox.Proofs.Descriptor.Cursors
import WasiSandbox.Proofs.Descriptor.Chunks
import WasiSandbox.Proofs.Syscall.Defects
import WasiSandbox.Proofs.Memory.Access
import WasiSandbox.Proofs.Descriptor.Handles
import WasiSandbox.Proofs.Syscall.Listing
import WasiSandbox.Proofs.Syscall.Paging
import WasiSandbox.Proofs.Output.Feeds
import WasiSandbox.Proofs.Syscall.Output
import WasiSandbox.Proofs.Instance.Output
import WasiSandbox.Proofs.Memory.Tables
import WasiSandbox.Proofs.Syscall.Regions
import WasiSandbox.Proofs.Descriptor.Places
import WasiSandbox.Proofs.Tree.Ownership
import WasiSandbox.Proofs.Descriptor.Slots
import WasiSandbox.Proofs.Descriptor.Rights
import WasiSandbox.Proofs.Descriptor.Stale
import WasiSandbox.Proofs.Tree.Spared
import WasiSandbox.Proofs.Descriptor.Appends
import WasiSandbox.Proofs.Tree.Octets
import WasiSandbox.Proofs.Descriptor.Opening
import WasiSandbox.Proofs.Memory.Buffers
import WasiSandbox.Proofs.Descriptor.Reached
import WasiSandbox.Proofs.Syscall.Reading
import WasiSandbox.Proofs.Syscall.Success
import WasiSandbox.Proofs.Syscall.Counts
import WasiSandbox.Proofs.Host.Composition
import WasiSandbox.Proofs.Descriptor.Expressible
import WasiSandbox.Proofs.Descriptor.Sizes
import WasiSandbox.Proofs.Descriptor.Seeking
import WasiSandbox.Proofs.Descriptor.Positional
import WasiSandbox.Proofs.Memory.Records
import WasiSandbox.Proofs.Syscall.Slices
import WasiSandbox.Proofs.Command.Verbatim
