import ErplTunnel.Framework.Run
import ErplTunnel.Framework.Leaving
import ErplTunnel.Framework.Throws
import ErplTunnel.Framework.Transit
import ErplTunnel.Framework.Relay
import ErplTunnel.Framework.Hops
import ErplTunnel.Framework.Trace
import ErplTunnel.Framework.Custody
import ErplTunnel.Framework.Pool
import ErplTunnel.Framework.Sql
import ErplTunnel.Framework.Assoc
import ErplTunnel.Framework.Scan
import ErplTunnel.Framework.Intern
import ErplTunnel.Framework.Fields
import ErplTunnel.Framework.Utf8
import ErplTunnel.Framework.HostPort
import ErplTunnel.Framework.Threads
import ErplTunnel.Manager.Registry
import ErplTunnel.Manager.Steps
import ErplTunnel.Manager.Conservation
import ErplTunnel.Manager.Listing
import ErplTunnel.Manager.Process
import ErplTunnel.Manager.BoundPort
import ErplTunnel.Import.Create
import ErplTunnel.Import.Ownership
import ErplTunnel.Mesh.Loader
import ErplTunnel.Mesh.Latch
import ErplTunnel.Mesh.Extracted
import ErplTunnel.Mesh.ShimCache
import ErplTunnel.Mesh.Backend
import ErplTunnel.Mesh.BringUp
import ErplTunnel.Mesh.Cache
import ErplTunnel.Mesh.NodeIdentity
import ErplTunnel.Mesh.PeerStatus
import ErplTunnel.Mesh.TwoShot
import ErplTunnel.Pragma.Tunnels
import ErplTunnel.Pragma.Ports
import ErplTunnel.Pragma.Statement
import ErplTunnel.Pragma.Secret
import ErplTunnel.Pragma.Authenticate
import ErplTunnel.Pragma.TableFunctions
import ErplTunnel.Pragma.Dispatch
import ErplTunnel.Pump.State
import ErplTunnel.Pump.SendAll
import ErplTunnel.Pump.MeshForwarder
import ErplTunnel.Pump.SshExporter
import ErplTunnel.Pump.ForwardData
import ErplTunnel.Pump.HalfClose
import ErplTunnel.Pump.Duplex
import ErplTunnel.Pump.Stopping
import ErplTunnel.Session.Shared
import ErplTunnel.Session.Channels
import ErplTunnel.Session.Sending
import ErplTunnel.Lifecycle.TunnelConnection
import ErplTunnel.Lifecycle.JoinBeforeFree
import ErplTunnel.Lifecycle.Descriptors
import ErplTunnel.Lifecycle.MeshForwarder
import ErplTunnel.Lifecycle.MeshTeardown
import ErplTunnel.Lifecycle.SshExporter
import ErplTunnel.Lifecycle.ExportTeardown
import ErplTunnel.Lifecycle.DialTcp
import ErplTunnel.Lifecycle.Reaping
import ErplTunnel.Lifecycle.CloseReturns
import ErplTunnel.Lifecycle.FdSet
import ErplTunnel.Shim.Handles
import ErplTunnel.Shim.Calls
import ErplTunnel.Shim.Live
import ErplTunnel.Shim.PairWindows
import ErplTunnel.Shim.Bridge
import ErplTunnel.Shim.Exporter
import ErplTunnel.Shim.ExporterClose
import ErplTunnel.Shim.Fidelity
import ErplTunnel.Shim.EndToEnd
import ErplTunnel.Shim.Unwinding
import ErplTunnel.Shim.Tags
import ErplTunnel.Shim.Options
import ErplTunnel.Shim.Address
import ErplTunnel.Shim.LastError
import ErplTunnel.Shim.Told
import ErplTunnel.Lifecycle.MeshExporter
import ErplTunnel.Lifecycle.Active
import ErplTunnel.Exports.Layers
import ErplTunnel.Exports.Invariant
import ErplTunnel.Exports.Agreement
import ErplTunnel.Locking.Code
import ErplTunnel.Locking.Discipline
import ErplTunnel.Locking.Deadlock
import ErplTunnel.Framework.Lockstep
import ErplTunnel.Mesh.Credentials
import ErplTunnel.Pragma.Credentials
import ErplTunnel.Shim.Credentials
