import Sitter.Base.Machine
import Sitter.Base.Throttle
import Sitter.Urgency
import Sitter.Processes
import Sitter.PackageCache
import Sitter.Packages
import Sitter.Ticks
import Sitter.RunPlugins
import Sitter.Base.Document
import Sitter.Platform
import Sitter.Server
import Sitter.ErrorSettings
import Sitter.Statistics
import Sitter.Base.Stretch
import Sitter.Services
import Sitter.Cpu
import Sitter.Base.Glob
import Sitter.Base.LastWrite
import Sitter.Certificate
import Sitter.CertificateAccess
import Sitter.Log
import Sitter.SysStats
import Sitter.LogMode
import Sitter.Reboot
import Sitter.Base.Slots
import Sitter.DataFiles
import Sitter.Records
import Sitter.LogRecords
import Sitter.Scripts
import Sitter.Retention
import Sitter.CachePath
import Sitter.Base.Text
import Sitter.PackageCodec
import Sitter.PackagePriorities
import Sitter.ProcessLoader
import Sitter.Maintenance
import Sitter.ProcessMatching
import Sitter.NumericMode
import Sitter.LogParameters
import Sitter.LogSize
import Sitter.ModeGrammar
import Sitter.LogMissing
import Sitter.Base.Pieces
import Sitter.Network
import Sitter.RecordUsage
import Sitter.StatLines
import Sitter.StatAccess
import Sitter.Durations
import Sitter.CertificateDelays
import Sitter.Base.Double
import Sitter.Base.Lines
import Sitter.Disk
import Sitter.Meminfo
import Sitter.MeminfoErrors
import Sitter.PassReport
import Sitter.ErrorCoherence
import Sitter.Shutdown
import Sitter.ServiceMails
import Sitter.PluginNames
import Sitter.FindProcess
import Sitter.Uncached
import Sitter.Interleaving
import Sitter.Served
