import FortressQL.Tde.KeyCacheRuns
import FortressQL.Tde.KeyLifecycle
import FortressQL.Scram.Downgrade
import FortressQL.Scram.ChannelBinding
import FortressQL.Scram.HonestExchange
import FortressQL.Wal.SigningRuns
import FortressQL.Pgcrypto.EscrowSecrecy
import FortressQL.Pgcrypto.AuditTamper
import FortressQL.Pgcrypto.AuditTransactions
import FortressQL.Dump.ChunkStream
import FortressQL.Dump.ArchiveHead
import FortressQL.Gin.PostingList
import FortressQL.Common.LzDecompress
import FortressQL.Storage.FreeSpaceMap
import FortressQL.Storage.ToggledRuns
import FortressQL.Tde.MasterKeyHandout
import FortressQL.Storage.EncryptedCopy
import FortressQL.Wal.KeyState
import FortressQL.Wal.ReceivedSegments
import FortressQL.Wal.PlainImages
import FortressQL.Replication.ConfirmedRelease
import FortressQL.Transam.TreeCommit
import FortressQL.Guc.TransactionScopes
import FortressQL.Acl.SupportedGrants
import FortressQL.Lmgr.DetectorRoom
import FortressQL.Lmgr.Completeness
import FortressQL.Heap.DeadTuples
import FortressQL.Storage.BatchDeletion
import FortressQL.Scram.MechanismChoice
import FortressQL.Scram.SecretText
import FortressQL.Pgcrypto.ColumnCrypt
import FortressQL.Tde.KeyFormats
import FortressQL.Tde.WalCrypt
