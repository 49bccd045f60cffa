import Scorer.LabelledRunProofs
import Scorer.WriteOrderProofs
import Scorer.LockedStoreProofs
import Scorer.PaymentStoreProofs
import Scorer.PaymentWriteProofs
import Scorer.PaymentSendProofs
import Scorer.PaymentNodeProofs
import Scorer.PaymentRefineProofs
import Scorer.RecordedFirstProofs
import Scorer.ManagerBookProofs
import Scorer.SettledRecordProofs
import Scorer.PendingLiveProofs
import Scorer.FailedFlightProofs
import Scorer.EventAckProofs
import Scorer.CrashProgramProofs
import Scorer.KeysSeedProofs
import Scorer.SweepFilesProofs
import Scorer.SelfDelimitedProofs
import Scorer.DescriptorFileProofs
import Scorer.SweepMigrationProofs
import Scorer.SyncTimestampProofs
import Scorer.RapidSyncProofs
import Scorer.OneshotProofs
import Scorer.ProbeTrackerProofs
import Scorer.ProbeAttemptProofs
import Scorer.ProbeBufferProofs
import Scorer.ReplayProofs
import Scorer.EventReplayProofs
import Scorer.PaymentAgreedProofs
import Scorer.TomlTableProofs
import Scorer.SectionDefaultProofs
import Scorer.WalletUtxosProofs
import Scorer.StartWatchProofs
import Scorer.AscendingStoreProofs
import Scorer.RecordsKeptProofs
import Scorer.ByteReaderProofs
import Scorer.LengthPrefixProofs
import Scorer.TlvStreamProofs
import Scorer.PaymentCodecProofs
import Scorer.PaymentFilesProofs
import Scorer.SweepStageProofs
import Scorer.SweepKeepsProofs
import Scorer.SweepCrashProofs
import Scorer.SweepCorruptProofs
import Scorer.ReservoirSampleProofs
import Scorer.RecipientSampleProofs
import Scorer.KeyTextProofs
import Scorer.ProbingLoopProofs
import Scorer.PeerClimbProofs
import Scorer.PrepareProbeProofs
import Scorer.TimerPeriodProofs
import Scorer.FeeBucketsProofs
import Scorer.FeePollerProofs
import Scorer.TrackerCallsProofs
import Scorer.MarkerPruningProofs
import Scorer.OpenChannelProofs
import Scorer.HexBytesProofs
import Scorer.TornTimestampProofs
import Scorer.BitGroupsProofs
import Scorer.ShiftRegisterProofs
import Scorer.Bech32Proofs
import Scorer.NodeHostnameProofs
import Scorer.DnsBootstrapProofs
import Scorer.RecordShapeProofs
import Scorer.TlvUnknownProofs
import Scorer.PaymentVersionsProofs
import Scorer.Binary64Proofs
import Scorer.FeeRatesProofs
import Scorer.FundingFlowProofs
import Scorer.FirstWordProofs
import Scorer.ReplProofs
import Scorer.AllowedTraceProofs
import Scorer.BackoffProofs
import Scorer.SnapshotDownloadProofs
import Scorer.BlockPollProofs
import Scorer.PeerTasksProofs
import Scorer.RandomProbesProofs
import Scorer.RenamedStoreProofs
import Scorer.ScorerKeyProofs
import Scorer.BufferedWriterProofs
import Scorer.LogFilesProofs
