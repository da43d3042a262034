import OptionsProtocol.Library.Store
import OptionsProtocol.Library.Checked
import OptionsProtocol.Library.Trace
import OptionsProtocol.Library.Bytes
import OptionsProtocol.Library.FloorSum
import OptionsProtocol.Runtime.Token
import OptionsProtocol.Runtime.Spl
import OptionsProtocol.Runtime.Program
import OptionsProtocol.Runtime.Ed25519
import OptionsProtocol.Controller.Collateral
import OptionsProtocol.Controller.State
import OptionsProtocol.Controller.Instructions
import OptionsProtocol.Controller.Effects
import OptionsProtocol.Controller.Machine
import OptionsProtocol.Controller.Invariants
import OptionsProtocol.Settler.Quote
import OptionsProtocol.Controller.PoolAccounting
import OptionsProtocol.Controller.Series
import OptionsProtocol.Controller.Solvency
import OptionsProtocol.Controller.Stranding
import OptionsProtocol.Runtime.System
import OptionsProtocol.Settler.State
import OptionsProtocol.Settler.Instructions
import OptionsProtocol.Settler.Effects
import OptionsProtocol.Settler.Signatures
import OptionsProtocol.Settler.Machine
import OptionsProtocol.Settler.Funding
import OptionsProtocol.Settler.Quotes
import OptionsProtocol.Settler.Premium
import OptionsProtocol.Settler.Custody
import OptionsProtocol.Settler.Emergency
import OptionsProtocol.Settler.Delivery
import OptionsProtocol.Settler.Attribution
import OptionsProtocol.Settler.Supply
import OptionsProtocol.Settler.Escape
import OptionsProtocol.Settler.Exit
import OptionsProtocol.Settler.Confinement
import OptionsProtocol.Oracle.Instructions
import OptionsProtocol.Oracle.Expiry
import OptionsProtocol.Registry.OtokenFactory
import OptionsProtocol.Registry.Whitelist
import OptionsProtocol.Protocol.Machine
import OptionsProtocol.Protocol.Prices
import OptionsProtocol.Protocol.Phases
import OptionsProtocol.Protocol.Mirror
import OptionsProtocol.Library.Reorder
import OptionsProtocol.Runtime.Movement
import OptionsProtocol.Controller.Ordering
import OptionsProtocol.Oracle.Limits
import OptionsProtocol.Protocol.Admission
import OptionsProtocol.Settler.Exchange
import OptionsProtocol.Settler.Splitting
import OptionsProtocol.Oracle.PriceUpdate
import OptionsProtocol.Settler.Redemption
import OptionsProtocol.Settler.Balances
import OptionsProtocol.MarginPool.Instructions
import OptionsProtocol.MarginPool.Backing
import OptionsProtocol.Library.TaggedScheme
import OptionsProtocol.Runtime.Seeds
import OptionsProtocol.Settler.Accounts
import OptionsProtocol.Controller.Payouts
import OptionsProtocol.Controller.Replay
import OptionsProtocol.Protocol.Provenance
import OptionsProtocol.Protocol.Authority
import OptionsProtocol.Settler.Exposure
import OptionsProtocol.Settler.Governance
import OptionsProtocol.Settler.Rent
import OptionsProtocol.Controller.WindDown
import OptionsProtocol.Library.Codec
import OptionsProtocol.Settler.Layout
import OptionsProtocol.Controller.Pause
import OptionsProtocol.Protocol.Answers
import OptionsProtocol.Controller.Issuance
import OptionsProtocol.Settler.Fulfilment
import OptionsProtocol.MarginPool.Books
import OptionsProtocol.Settler.Acceptance
import OptionsProtocol.Settler.MockJupiter
import OptionsProtocol.Platform.Deliveries
import OptionsProtocol.Settler.Release
