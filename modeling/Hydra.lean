import Hydra.Lib.ByteMem
import Hydra.Lib.Linked
import Hydra.Lib.FirstFit
import Hydra.Lib.Mailbox
import Hydra.Lib.Pipeline
import Hydra.Lib.Ring
import Hydra.Lib.Fifo
import Hydra.Lib.Run
import Hydra.Lib.Numeral
import Hydra.Lib.Newton
import Hydra.Lib.Nearest
import Hydra.Lib.Rounding
import Hydra.Mm.Alloc
import Hydra.Mm.Blocks
import Hydra.Mm.Refine
import Hydra.Mm.History
import Hydra.Mm.Exact
import Hydra.Mm.Frame
import Hydra.Mm.Stale
import Hydra.Mm.Stats
import Hydra.LibC.Stdlib
import Hydra.LibC.Realloc
import Hydra.LibC.Scoped
import Hydra.Kernel.Printk
import Hydra.Kernel.Scan
import Hydra.Kernel.Numbers
import Hydra.Kernel.Uart
import Hydra.Kernel.Input
import Hydra.LibC.Stdio
import Hydra.LibC.Truncate
import Hydra.LibC.Itoa
import Hydra.LibC.Atoi
import Hydra.LibC.Getchar
import Hydra.Ipc.Message
import Hydra.Ipc.Refine
import Hydra.Ipc.Delivery
import Hydra.Ipc.Status
import Hydra.Ipc.Outbox
import Hydra.Ipc.Memory
import Hydra.Ipc.Apart
import Hydra.Ipc.Shared
import Hydra.Sched.Task
import Hydra.Sched.Switch
import Hydra.Sched.Invariant
import Hydra.Sched.Resume
import Hydra.Sched.Start
import Hydra.Sched.Fair
import Hydra.Kernel.Queues
import Hydra.Kernel.Exit
import Hydra.Kernel.Trap
import Hydra.Kernel.Nested
import Hydra.LibHydra.Ipc
import Hydra.LibHydra.Receive
import Hydra.LibNet.Socket
import Hydra.LibNet.Address
import Hydra.Net.Driver
import Hydra.Net.Pool
import Hydra.Net.Hooks
import Hydra.Server.Loop
import Hydra.Server.Net
import Hydra.Server.Bullet
import Hydra.Server.Client
import Hydra.Server.System
import Hydra.Server.Socket
import Hydra.Server.Isolation
import Hydra.Server.Request
import Hydra.Server.Order
import Hydra.LibNet.Payload
import Hydra.Server.Stream
import Hydra.Server.Create
import Hydra.Server.Fifo
import Hydra.LibNet.Length
import Hydra.Server.Codec
import Hydra.Server.Migration
import Hydra.Server.Buffer
import Hydra.Kernel.Turns
import Hydra.Server.Demo
import Hydra.Kernel.Syscall
import Hydra.LibHydra.Services
import Hydra.LibHydra.Capability
import Hydra.Apps.ImageSender
import Hydra.Raytracer.Fixed
import Hydra.Raytracer.Sqrt
import Hydra.Raytracer.Vector
import Hydra.Raytracer.Normalize
import Hydra.Raytracer.Discriminant
import Hydra.Raytracer.Trace
import Hydra.Raytracer.Shade
import Hydra.Raytracer.Render
import Hydra.Raytracer.Machine
import Hydra.LibC.String
import Hydra.LibC.Copy
import Hydra.Raytracer.Ppm
import Hydra.Raytracer.Demo
import Hydra.Apps.Broadcast
import Hydra.Apps.Demos
import Hydra.Kernel.Main
