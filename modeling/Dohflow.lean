import Dohflow.Categorization.OwnKeys
import Dohflow.Categorization.RecurringDetection
import Dohflow.Connectors.SyncOnce
import Dohflow.Connectors.WatermarkRuns
import Dohflow.CoreIds.MintOrder
import Dohflow.CoreLedger.Division
import Dohflow.DbWorker.Apportionment
import Dohflow.DbWorker.JobRows
import Dohflow.DbWorker.JobRuns
import Dohflow.DbWorker.Rebase
import Dohflow.DbWorker.ScenarioRemoval
import Dohflow.DbWorker.SettledExpectations
import Dohflow.DbWorker.SpendFootnote
import Dohflow.DbWorker.StagedDecisions
import Dohflow.DbWorker.StagedImportDuplicates
import Dohflow.DbWorker.StatementDues
import Dohflow.DbWorker.SupersessionChains
import Dohflow.DbWorker.TrialBalance
import Dohflow.ForecastEngine.InputOrder
import Dohflow.ForecastEngine.PayoffInterest
import Dohflow.ForecastEngine.SpendBands
import Dohflow.Importers.ColumnDates
import Dohflow.Importers.MinusSigns
import Dohflow.PaySchedule.NextPayDate
import Dohflow.SyncCore.Conflicts
import Dohflow.SyncCore.Redelivery
import Dohflow.SyncCore.Retries
import Dohflow.SyncCore.StatusRuns
import Dohflow.SyncCore.VerifiedStateCodec
import Dohflow.SyncCore.VoidPulls
import Dohflow.SyncCore.VoidRecords
import Dohflow.SyncCore.WriteSet
import Dohflow.VaultCrypto.CounterRuns
import Dohflow.VaultCrypto.KeyDelivery
import Dohflow.VaultCrypto.SyncArtifact
import Dohflow.VaultCrypto.VerifiedStateRuns
