import PublicComponent.Tcp.Socket
import PublicComponent.Tcp.ReadAll
import PublicComponent.Tcp.WriteAll
import PublicComponent.Tcp.Object
import PublicComponent.Lock.Scoped
import PublicComponent.Lock.Safety
import PublicComponent.Dbd.Wrappers
import PublicComponent.Dbd.Modify
import PublicComponent.Dbd.System
import PublicComponent.Dbd.Invariant
import PublicComponent.Dbd.Frame
import PublicComponent.Dbd.Locks
import PublicComponent.Dbd.Heap
import PublicComponent.Dbd.Reach
import PublicComponent.Dbd.Isolation
import PublicComponent.Dbd.Writer
import PublicComponent.Dbd.Register
import PublicComponent.Dbd.Registry
import PublicComponent.Dbd.Failure
import PublicComponent.Dbd.Deadlock
import PublicComponent.Dbd.Progress
import PublicComponent.Dbd.Exit
import PublicComponent.Defer.Machine
import PublicComponent.Defer.Denote
import PublicComponent.Defer.Refine
