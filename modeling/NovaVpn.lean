import NovaVpn.Routing.Ledger
import NovaVpn.Routing.Teardown
import NovaVpn.Firewall.Confine
import NovaVpn.Firewall.Reported
import NovaVpn.Firewall.Hard
import NovaVpn.Services.ServiceApi
import NovaVpn.Tunnel.Manager
import NovaVpn.Core.Persist
import NovaVpn.Core.Populated
import NovaVpn.Tunnel.Hooks
import NovaVpn.Tunnel.Replace
import NovaVpn.Tunnel.Engines
import NovaVpn.Framework.Transactions
import NovaVpn.Profiles.Profile
import NovaVpn.Profiles.ProfileStore
import NovaVpn.Profiles.CredentialStore
import NovaVpn.Services.ProfileApi
import NovaVpn.Services.ProfileEdits
import NovaVpn.Services.SavedPasswords
import NovaVpn.Core.Notify
import NovaVpn.Framework.Chunks
import NovaVpn.Services.Wire
import NovaVpn.Services.IpcClient
import NovaVpn.Services.Literal
import NovaVpn.Services.RoundTrip
import NovaVpn.Framework.Locks
import NovaVpn.Services.Answers
import NovaVpn.Tunnel.Locks
import NovaVpn.Database.SqliteDatabase
import NovaVpn.Services.Catalogue
import NovaVpn.Updater.Updater
import NovaVpn.Updater.Staged
import NovaVpn.Routing.Agreement
import NovaVpn.Profiles.OvpnParser
import NovaVpn.Profiles.OvpnItems
import NovaVpn.Profiles.OvpnSteps
import NovaVpn.Profiles.Dangerous
import NovaVpn.Services.ImportedText
import NovaVpn.Networking.Resolver
import NovaVpn.Services.ClientThreads
import NovaVpn.Services.Correlation
import NovaVpn.Services.LostConnection
import NovaVpn.Core.EventBus
import NovaVpn.Core.Cancellation
import NovaVpn.Logs.Logger
import NovaVpn.Routing.ApplicationRules
import NovaVpn.SplitTunnel.ProcessRegistry
import NovaVpn.SplitTunnel.Helpers
import NovaVpn.Tunnel.Bookkeeping
import NovaVpn.Networking.RangeText
import NovaVpn.Core.Numerals
import NovaVpn.Core.Glob
import NovaVpn.Core.FileUtil
import NovaVpn.Routing.DomainRules
import NovaVpn.Routing.Evaluator
import NovaVpn.Profiles.OvpnExport
import NovaVpn.Profiles.OvpnRoundTrip
import NovaVpn.Profiles.ProfileJson
import NovaVpn.Profiles.ProfileRows
import NovaVpn.Profiles.RowsEncode
import NovaVpn.Profiles.ProfileQueries
import NovaVpn.Profiles.ProfileHistory
import NovaVpn.Routing.ExactPaths
import NovaVpn.Networking.Mapped
import NovaVpn.Routing.MappedRules
import NovaVpn.SplitTunnel.Engine
import NovaVpn.Routing.Capture
import NovaVpn.Framework.Runs
import NovaVpn.Routing.LedgerFile
import NovaVpn.Routing.Removal
import NovaVpn.Framework.Updates
import NovaVpn.Profiles.Overlay
import NovaVpn.Profiles.OvpnBlocks
import NovaVpn.Profiles.OvpnReport
import NovaVpn.Profiles.OvpnForms
import NovaVpn.Networking.HostNames
import NovaVpn.Networking.NetworkMonitor
import NovaVpn.Services.SourceHash
import NovaVpn.Updater.Versions
import NovaVpn.Profiles.OvpnCiphers
import NovaVpn.Profiles.OvpnDefaults
import NovaVpn.Profiles.OvpnPorts
import NovaVpn.Database.Migrations
import NovaVpn.Networking.CachedAnswers
import NovaVpn.Framework.Ring
import NovaVpn.Logs.RingBuffer
import NovaVpn.Core.FileNames
import NovaVpn.Core.MergedPaths
import NovaVpn.Logs.FileSink
import NovaVpn.Logs.Rotation
import NovaVpn.Profiles.OvpnQuoting
import NovaVpn.Core.Utf8
import NovaVpn.Logs.RecordLines
import NovaVpn.Networking.Watcher
import NovaVpn.Services.ServiceHost
import NovaVpn.Services.BodyProtocol
import NovaVpn.Services.ServiceConsole
import NovaVpn.Framework.Simulation
import NovaVpn.Core.SecureMemory
import NovaVpn.Core.SecureOwnership
import NovaVpn.Core.SecureValues
import NovaVpn.Routing.Recovery
import NovaVpn.App.Protocol
import NovaVpn.App.Requests
import NovaVpn.App.Messages
import NovaVpn.Tunnel.OpenVpnEngine
import NovaVpn.Tunnel.OpenVpnSessions
import NovaVpn.Tunnel.EngineRegistry
import NovaVpn.Tunnel.PluginModules
import NovaVpn.Framework.Exchanges
import NovaVpn.Services.ConnectCredentials
import NovaVpn.Services.Disclosure
import NovaVpn.Services.ServerThreads
