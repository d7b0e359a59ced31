import Dbx.Orchestrator.StateFile
import Dbx.Orchestrator.Restore
import Dbx.Query.ReaderAccess
import Dbx.Orchestrator.IngressRouting
import Dbx.Orchestrator.Revocation
import Dbx.Query.CheckpointCrash
import Dbx.Query.Quota
import Dbx.Replication.Delivery
import Dbx.Isolation.SealedFile
import Dbx.Protocol.CommandStream
import Dbx.Query.EffectAgreement
import Dbx.Persistence.Unpacking
import Dbx.Orchestrator.FailedSave
import Dbx.Orchestrator.Lifecycle
import Dbx.Persistence.Journal
import Dbx.Sdk.Forgetting
import Dbx.Auth.KeyPatterns
import Dbx.Query.Counters
import Dbx.Query.Deadlines
import Dbx.Query.Restart
import Dbx.Query.GraphSearch
import Dbx.Query.BinaryBatch
import Dbx.Engine.LayoutRuns
import Dbx.Query.Interleaving
