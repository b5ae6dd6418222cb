import DanbyteOutpost.Data.Dict
import DanbyteOutpost.Data.PyText
import DanbyteOutpost.Data.Json
import DanbyteOutpost.Data.Results
import DanbyteOutpost.Data.HexText
import DanbyteOutpost.Data.CaseFold
import DanbyteOutpost.Data.Streak
import DanbyteOutpost.Data.Sieve
import DanbyteOutpost.Data.Shards
import DanbyteOutpost.Data.Binary64
import DanbyteOutpost.Data.Base64
import DanbyteOutpost.Data.Sha256
import DanbyteOutpost.Data.SshWire
import DanbyteOutpost.Dns.ReverseDns
import DanbyteOutpost.Dns.Resolvers
import DanbyteOutpost.Dns.AttachPtrs
import DanbyteOutpost.Machine.Run
import DanbyteOutpost.Fast.Runner
import DanbyteOutpost.Machine.RetryLedger
import DanbyteOutpost.Fast.Steps
import DanbyteOutpost.Fast.Delivery
import DanbyteOutpost.Fast.Probes
import DanbyteOutpost.Fast.Order
import DanbyteOutpost.Fast.Removal
import DanbyteOutpost.Fast.Changes
import DanbyteOutpost.Fast.Shutdown
import DanbyteOutpost.Fast.HalfApplied
import DanbyteOutpost.Fast.Cadence
import DanbyteOutpost.Fast.Punctual
import DanbyteOutpost.Checks.RunCheck
import DanbyteOutpost.Fast.Answers
import DanbyteOutpost.Checks.Checker
import DanbyteOutpost.Checks.Connections
import DanbyteOutpost.Checks.Telnet
import DanbyteOutpost.Checks.Reachable
import DanbyteOutpost.Data.IpAddress
import DanbyteOutpost.Data.IpHosts
import DanbyteOutpost.Checks.NetGuard
import DanbyteOutpost.Checks.Allowlist
import DanbyteOutpost.Checks.Datagrams
import DanbyteOutpost.Checks.Http
import DanbyteOutpost.Checks.TlsCert
import DanbyteOutpost.Checks.TlsTargets
import DanbyteOutpost.Checks.TlsChain
import DanbyteOutpost.Checks.TlsVerdict
import DanbyteOutpost.Checks.Refusal
import DanbyteOutpost.Checks.Verdicts
import DanbyteOutpost.Checks.Validate
import DanbyteOutpost.Checks.StatusSets
import DanbyteOutpost.Checks.Validated
import DanbyteOutpost.Checks.SshHostKey
import DanbyteOutpost.Checks.HostKeyLines
import DanbyteOutpost.Checks.HostKeyBits
import DanbyteOutpost.Coop.Coro
import DanbyteOutpost.Coop.Wp
import DanbyteOutpost.Coop.Replay
import DanbyteOutpost.Coop.Stages
import DanbyteOutpost.Coop.Ledger
import DanbyteOutpost.Coop.Total
import DanbyteOutpost.Snmp.Protocol
import DanbyteOutpost.Snmp.Walk
import DanbyteOutpost.Snmp.Mib
import DanbyteOutpost.Snmp.OidText
import DanbyteOutpost.Snmp.OidChildren
import DanbyteOutpost.Snmp.WalkRows
import DanbyteOutpost.Snmp.WalkSpec
import DanbyteOutpost.Snmp.WalkTable
import DanbyteOutpost.Snmp.WalkEnds
import DanbyteOutpost.Snmp.Addresses
import DanbyteOutpost.Snmp.Rendering
import DanbyteOutpost.Snmp.MacNotations
import DanbyteOutpost.Snmp.LagMembership
import DanbyteOutpost.Snmp.Forwarding
import DanbyteOutpost.Snmp.ForwardingSpec
import DanbyteOutpost.Snmp.Contexts
import DanbyteOutpost.Snmp.MacRead
import DanbyteOutpost.Snmp.Interfaces
import DanbyteOutpost.Snmp.LagUnread
import DanbyteOutpost.Snmp.AgentTables
import DanbyteOutpost.Snmp.MacOrigin
import DanbyteOutpost.Snmp.WalkStages
import DanbyteOutpost.Snmp.ContextStages
import DanbyteOutpost.Snmp.ContextLists
import DanbyteOutpost.Snmp.RowAllowance
import DanbyteOutpost.Snmp.Abort
import DanbyteOutpost.Snmp.DefaultRead
import DanbyteOutpost.Snmp.VlanPartition
import DanbyteOutpost.Snmp.Halt
import DanbyteOutpost.Snmp.RowForm
import DanbyteOutpost.Snmp.LldpPorts
import DanbyteOutpost.Snmp.FdbVlans
import DanbyteOutpost.Snmp.PortMaps
import DanbyteOutpost.Snmp.Topology
import DanbyteOutpost.Snmp.Fetch
import DanbyteOutpost.Snmp.PollCycle
import DanbyteOutpost.Snmp.Statuses
import DanbyteOutpost.Snmp.OnTime
import DanbyteOutpost.Snmp.AnyOrder
import DanbyteOutpost.Snmp.LearnedRows
import DanbyteOutpost.Snmp.Tally
import DanbyteOutpost.Snmp.Confluence
import DanbyteOutpost.Snmp.WholeTables
import DanbyteOutpost.Snmp.MacTable
import DanbyteOutpost.Snmp.OrderlyWalks
import DanbyteOutpost.Snmp.RowCap
import DanbyteOutpost.Snmp.DefaultRows
import DanbyteOutpost.Snmp.VlanRange
import DanbyteOutpost.Snmp.InterfaceRows
import DanbyteOutpost.Snmp.Neighbours
import DanbyteOutpost.Snmp.Poll
import DanbyteOutpost.Agent.Sweep
import DanbyteOutpost.Agent.Loop
import DanbyteOutpost.Agent.Steps
import DanbyteOutpost.Agent.Posts
import DanbyteOutpost.Agent.Once
import DanbyteOutpost.Agent.Lane
import DanbyteOutpost.Agent.Crash
import DanbyteOutpost.Agent.Cadence
import DanbyteOutpost.Agent.Passes
import DanbyteOutpost.Agent.Update
