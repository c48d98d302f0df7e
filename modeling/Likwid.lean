import Likwid.Overflow
import Likwid.FreeRunning
import Likwid.FixedControl
import Likwid.FullData
import Likwid.EventSets
import Likwid.GroupTable
import Likwid.Results
import Likwid.ClientExchange
import Likwid.AccessX86
import Likwid.AllowedRegisters
import Likwid.Registration
import Likwid.HashTable
import Likwid.PthreadOverload
import Likwid.MarkerFile
import Likwid.AffinityDomains
import Likwid.AffinityMemory
import Likwid.Barrier
import Likwid.Configuration
import Likwid.BenchThreads
import Likwid.BenchWorkgroup
import Likwid.ConfigCache
import Likwid.SetupErrors
import Likwid.DefaultOptions
import Likwid.CpuParts
import Likwid.CpuScatter
import Likwid.CpuSort
import Likwid.Timer
import Likwid.LegacyTopology
import Likwid.ProcTopology
import Likwid.InitFlags
import Likwid.StartErrors
import Likwid.NodeTopology
import Likwid.PowerInit
import Likwid.NodeProcessors
import Likwid.UncoreReset
import Likwid.CounterFlow
import Likwid.PausedRead
import Likwid.UncoreFreeze
import Likwid.QpiSetup
import Likwid.CboxFilters
import Likwid.CoreOverflow
import Likwid.CoreFlow
import Likwid.UncoreUse
import Likwid.Metrics
import Likwid.GroupFiles
import Likwid.MpiHosts
import Likwid.WrapperScript
import Likwid.PerfStrings
import Likwid.CpuFeatures
import Likwid.IvyBridgeOverflow
import Likwid.ReadStop
import Likwid.Kabini
import Likwid.BenchSize
import Likwid.AmdTopology
import Likwid.AmdCaches
import Likwid.BenchPartition
import Likwid.TableStats
import Likwid.EventLines
import Likwid.EventTable
import Likwid.Agent
import Likwid.RboxPorts
import Likwid.ProgramKept
import Likwid.SandyBridge.Freeze
import Likwid.GHashMap
