import CpuScheduler.Core.LTS
import CpuScheduler.Core.Links
import CpuScheduler.Core.DoublyLinked
import CpuScheduler.Core.Rotation
import CpuScheduler.Core.Runs
import CpuScheduler.Core.Colouring
import CpuScheduler.Core.Traced
import CpuScheduler.Core.Word
import CpuScheduler.Core.EndAround
import CpuScheduler.Core.Extents
import CpuScheduler.Core.Span
import CpuScheduler.Core.WordStack
import CpuScheduler.Core.Cyclic
import CpuScheduler.Core.Wildcard
import CpuScheduler.Core.Digits
import CpuScheduler.Core.Keyed
import CpuScheduler.Core.Paper
import CpuScheduler.L1Memory.MemPrimitives
import CpuScheduler.L1Memory.Paging
import CpuScheduler.L1Memory.TaskSpace
import CpuScheduler.L1Memory.PageAllocator
import CpuScheduler.L1Memory.PageSummary
import CpuScheduler.L1Memory.PageSearch
import CpuScheduler.L1Memory.PageRegions
import CpuScheduler.L1Memory.BootReservations
import CpuScheduler.L2Network.Handler
import CpuScheduler.L2Network.Outgoing
import CpuScheduler.L2Network.Frames
import CpuScheduler.L2Network.Reassembly
import CpuScheduler.L2Network.Lists
import CpuScheduler.L2Network.Refine
import CpuScheduler.L2Network.Delivery
import CpuScheduler.L2Network.Protocols
import CpuScheduler.L2Network.Filter
import CpuScheduler.L2Network.Arrivals
import CpuScheduler.L2Network.Reordering
import CpuScheduler.L2Network.RoundTrip
import CpuScheduler.L2Network.Loopback
import CpuScheduler.L2Network.Checksum
import CpuScheduler.L2Network.ArpTable
import CpuScheduler.L2Network.NextHop
import CpuScheduler.L2Network.FragmentTimeout
import CpuScheduler.L2Network.ArpFresh
import CpuScheduler.L2Network.ArpSlots
import CpuScheduler.L2Network.Fragmentation
import CpuScheduler.L2Network.ArpExchange
import CpuScheduler.L2Network.PhysicalInterface
import CpuScheduler.L2Network.PhysicalReceive
import CpuScheduler.L2Network.PhysicalTransmit
import CpuScheduler.L2Network.ChecksumOffload
import CpuScheduler.L3Sockets.SocketManager
import CpuScheduler.L3Sockets.Transmission
import CpuScheduler.L3Sockets.Ownership
import CpuScheduler.L3Sockets.SocketTables
import CpuScheduler.L3Sockets.TransmissionQueue
import CpuScheduler.L3Sockets.SendCalls
import CpuScheduler.L3Sockets.ReceivedData
import CpuScheduler.L3Sockets.KernelWrites
import CpuScheduler.L3Sockets.DatagramDelivery
import CpuScheduler.L3Sockets.EndToEnd
import CpuScheduler.L3Sockets.SendFormat
import CpuScheduler.L3Sockets.TransmissionPass
import CpuScheduler.L4Task.UserTask
import CpuScheduler.L4Task.Syscalls
import CpuScheduler.L4Task.Isolation
import CpuScheduler.L4Task.TaskLifetime
import CpuScheduler.L4Task.TaskManager
import CpuScheduler.L4Task.TaskResources
import CpuScheduler.L4Task.TaskCleanup
import CpuScheduler.L4Task.Separation
import CpuScheduler.L5Concurrency.PopSteps
import CpuScheduler.L5Concurrency.PopAhead
import CpuScheduler.L5Concurrency.PopSerial
import CpuScheduler.L5Concurrency.TaskLists
import CpuScheduler.L5Concurrency.RoundRobin
import CpuScheduler.L5Concurrency.TaskContext
import CpuScheduler.L6Server.CoapServer
import CpuScheduler.L6Server.PathBounds
import CpuScheduler.L6Server.Invocations
import CpuScheduler.L6Server.RequestFormat
import CpuScheduler.L6Server.PathFilter
import CpuScheduler.L6Server.PathLinks
import CpuScheduler.L6Server.PathRegistry
import CpuScheduler.L6Server.PathDispatch
import CpuScheduler.L6Server.ResponseFormat
import CpuScheduler.L6Server.SendBuffer
import CpuScheduler.L6Server.ReceiveBuffer
import CpuScheduler.L6Server.DoubleBuffers
import CpuScheduler.L7Heap.MemoryManager
import CpuScheduler.L7Heap.FreeList
import CpuScheduler.L7Heap.Allocate
import CpuScheduler.L7Heap.HeapRuns
import CpuScheduler.L8Api.ApiHandlers
import CpuScheduler.L8Api.Identifiers
import CpuScheduler.L8Api.TaskMap
import CpuScheduler.L8Api.ManagementServer
import CpuScheduler.L8Api.ManagementSteps
import CpuScheduler.L8Api.ClientRequests
import CpuScheduler.L8Api.Conversation
import CpuScheduler.L8Api.RefusedStart
import CpuScheduler.L9Machine.InterruptEntry
import CpuScheduler.L9Machine.InterruptReturn
import CpuScheduler.L9Machine.ContextSwitch
import CpuScheduler.L9Machine.TaskBegin
import CpuScheduler.L9Machine.Strings
import CpuScheduler.L9Machine.Screen
import CpuScheduler.L9Machine.PrintNumbers
