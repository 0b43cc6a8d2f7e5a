import HosTla.Safety.Keys
import HosTla.Safety.Mothers
import HosTla.Safety.Refunds
import HosTla.Safety.Charges
import HosTla.Safety.Solvency
import HosTla.Market.Model
import HosTla.Market.Refinement
import HosTla.Safety.Records
import HosTla.Safety.Sellers
import HosTla.Safety.Settlements
import HosTla.Safety.Reclaims
import HosTla.Safety.Lifecycle
import HosTla.Safety.Activations
import HosTla.Safety.Locks
import HosTla.Safety.Sellable
import HosTla.Safety.Wallets
import HosTla.Safety.Counters
import HosTla.Chain.Receipts
import HosTla.Safety.Balances
import HosTla.Safety.Exports
import HosTla.Custody.Errands
import HosTla.Safety.Orphans
import HosTla.Safety.Confirmations
import HosTla.ResaleLocker
import HosTla.Safety.Resales
import HosTla.Safety.Gates
import HosTla.Safety.Recovery
import HosTla.Safety.Rollbacks
import HosTla.Registry.Views
import HosTla.Safety.Published
import HosTla.Safety.Withdrawals
import HosTla.Safety.Names
import HosTla.Safety.Terms
import HosTla.Foundation.Json
import HosTla.Registry.Events
import HosTla.Log.Lines
import HosTla.Registry.Configured
import HosTla.Log.Replay
import HosTla.Foundation.Progress
import HosTla.Liveness.Work
import HosTla.Safety.Authority
import HosTla.Safety.Entries
import HosTla.Chain.Resale
import HosTla.Safety.Provenance
import HosTla.Safety.Pauses
import HosTla.Liveness.Undisturbed
import HosTla.Liveness.Completions
import HosTla.Safety.Quotes
import HosTla.Chain.Catalog
import HosTla.Safety.Pages
import HosTla.Foundation.Prepaid
import HosTla.Safety.Years
import HosTla.Liveness.Clearance
import HosTla.Safety.Titles
import HosTla.Safety.Tenure
import HosTla.Safety.Consent
