import RabbitLqc.Chain.ForkChoice
import RabbitLqc.Claims.Compaction
import RabbitLqc.Claims.LedgerRun
import RabbitLqc.Claims.PoolRun
import RabbitLqc.Engine.Batch
import RabbitLqc.Engine.Fairness
import RabbitLqc.Engine.Prepare
import RabbitLqc.Engine.Replay
import RabbitLqc.Engine.SeatTurns
import RabbitLqc.Engine.Sequences
import RabbitLqc.Header.Commitments
import RabbitLqc.Header.Fitting
import RabbitLqc.Header.Seal
import RabbitLqc.Node.FairSchedule
import RabbitLqc.Node.Recovery
import RabbitLqc.Registry.PoolIndexes
import RabbitLqc.Registry.Run
import RabbitLqc.Rewards.Claims
import RabbitLqc.Vrf.Epochs
import RabbitLqc.Vrf.Escrow
import RabbitLqc.Vrf.PartialRuns
import RabbitLqc.Vrf.Participation
import RabbitLqc.Vrf.Quorum
import RabbitLqc.Vrf.RequestWorker
import RabbitLqc.Vrf.Signing
import RabbitLqc.Work.PoolRun
