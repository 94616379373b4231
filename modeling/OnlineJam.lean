import OnlineJam.Proofs.AcknowledgeProofs
import OnlineJam.Proofs.AloneProofs
import OnlineJam.Proofs.AttemptProofs
import OnlineJam.Proofs.BudgetProofs
import OnlineJam.Proofs.BufferProofs
import OnlineJam.Proofs.CleanSlotProofs
import OnlineJam.Proofs.CorrectionProofs
import OnlineJam.Proofs.DeliveryProofs
import OnlineJam.Proofs.DuplexProofs
import OnlineJam.Proofs.FifoProofs
import OnlineJam.Proofs.FixedProofs
import OnlineJam.Proofs.FreshnessProofs
import OnlineJam.Proofs.IdentityProofs
import OnlineJam.Proofs.InboundProofs
import OnlineJam.Proofs.LedgerProofs
import OnlineJam.Proofs.LivenessProofs
import OnlineJam.Proofs.LockstepProofs
import OnlineJam.Proofs.MixProofs
import OnlineJam.Proofs.MuteProofs
import OnlineJam.Proofs.OutputProofs
import OnlineJam.Proofs.OutsiderProofs
import OnlineJam.Proofs.OverwriteProofs
import OnlineJam.Proofs.PacingProofs
import OnlineJam.Proofs.RestartProofs
import OnlineJam.Proofs.RosterProofs
import OnlineJam.Proofs.RttProofs
import OnlineJam.Proofs.StatusProofs
import OnlineJam.Proofs.StunProofs
import OnlineJam.Proofs.TimingProofs
import OnlineJam.Proofs.TrafficProofs
import OnlineJam.Proofs.UpstreamProofs
