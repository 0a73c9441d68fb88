import PokerDeliberation.Ledger.Agreement
import PokerDeliberation.Ledger.Validation
import PokerDeliberation.Hands.Isolation
import PokerDeliberation.Equity.River
import PokerDeliberation.LocalData.Reevaluation
import PokerDeliberation.IsolatedJobs.Histories
import PokerDeliberation.Contexts.Chains
import PokerDeliberation.Budgets.Tightening
import PokerDeliberation.Budgets.Interleaving
import PokerDeliberation.Phases.Soundness
import PokerDeliberation.Roots.Restart
import PokerDeliberation.Bridge.Soundness
import PokerDeliberation.Bridge.AtMostOnce
import PokerDeliberation.Authority.Exclusivity
import PokerDeliberation.Games.BestResponseVerified
import PokerDeliberation.Games.EvTreeOrder
import PokerDeliberation.Games.IcmLaws
import PokerDeliberation.Ledger.Units
import PokerDeliberation.Ranges.Order
import PokerDeliberation.Equity.BestFive
import PokerDeliberation.Ledger.Reopening
import PokerDeliberation.Games.MatrixGameSound
import PokerDeliberation.Revisions.Invariant
import PokerDeliberation.IsolatedJobs.Output
import PokerDeliberation.Language.OrderSoundness
import PokerDeliberation.Workflow.Chains
import PokerDeliberation.Workflow.Runtime
import PokerDeliberation.Approvals.Soundness
import PokerDeliberation.Normalization.Documents
import PokerDeliberation.Terminal.Reports
import PokerDeliberation.Cleanup.Reports
import PokerDeliberation.Phases.Secrets
import PokerDeliberation.Storage.LegacySoundness
import PokerDeliberation.Storage.RoundTrip
import PokerDeliberation.Approvals.Canonical
import PokerDeliberation.ApprovalLedger.Execution
import PokerDeliberation.ApprovalLedger.Calls
