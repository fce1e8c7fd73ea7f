import GraphifyDaemon.Daemon.Communities
import GraphifyDaemon.Daemon.FailedCompile
import GraphifyDaemon.Daemon.FailureIsolation
import GraphifyDaemon.Daemon.ShutdownDrain
import GraphifyDaemon.Daemon.BatchOrder
import GraphifyDaemon.Daemon.IdleTrigger
import GraphifyDaemon.Daemon.ExcludedActivity
import GraphifyDaemon.Daemon.WatcherQueue
import GraphifyDaemon.Daemon.ShutdownOnce
import GraphifyDaemon.Vault.Handover
import GraphifyDaemon.Vault.Restart
import GraphifyDaemon.Vault.Confinement
import GraphifyDaemon.ArtifactLifecycle.SavedCache
import GraphifyDaemon.ArtifactLifecycle.IndexRebuild
import GraphifyDaemon.GraphQueryApi.Transport
import GraphifyDaemon.GraphQueryApi.QueryRequests
import GraphifyDaemon.VaultCompiler.ClusteringHandoff
import GraphifyDaemon.VaultCompiler.LogScrubbing
import GraphifyDaemon.GraphQueryApi.CacheRecency
import GraphifyDaemon.GraphQueryApi.Truncation
import GraphifyDaemon.Migration.Comparator
import GraphifyDaemon.ArtifactLifecycle.Provenance
import GraphifyDaemon.Daemon.DebounceTimer
import GraphifyDaemon.Daemon.Locking
import GraphifyDaemon.Daemon.PathOperations
import GraphifyDaemon.Vault.ColdStartSurvival
import GraphifyDaemon.Vault.EventHandler
import GraphifyDaemon.ArtifactLifecycle.SingleMap
import GraphifyDaemon.ArtifactLifecycle.OwnerOnly
import GraphifyDaemon.Daemon.CadenceRate
import GraphifyDaemon.Daemon.ArtifactDisk
import GraphifyDaemon.GraphQueryApi.ReadAgreement
import GraphifyDaemon.GraphQueryApi.ToolDefaults
import GraphifyDaemon.GraphQueryApi.ServerAccounts
import GraphifyDaemon.GraphQueryApi.ServerRefinement
import GraphifyDaemon.GraphQueryApi.ErrorCauses
import GraphifyDaemon.Vault.Settling
import GraphifyDaemon.ArtifactLifecycle.KnowledgeMd
import GraphifyDaemon.Daemon.WrongSettings
import GraphifyDaemon.Vault.IncrementalRestart
