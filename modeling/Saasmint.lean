import Saasmint.Library.Program
import Saasmint.Library.Rely
import Saasmint.Library.Table
import Saasmint.Python.Value
import Saasmint.Data.Rows
import Saasmint.Data.Database
import Saasmint.Data.Repositories
import Saasmint.Data.World
import Saasmint.Billing.SubscriptionSync
import Saasmint.Billing.Subscriptions
import Saasmint.Library.Monitor
import Saasmint.Orgs.Checkout
import Saasmint.Orgs.Deletion
import Saasmint.Billing.Credits
import Saasmint.Billing.Webhooks
import Saasmint.Mirror.Writers
import Saasmint.Mirror.Representation
import Saasmint.Billing.Payloads
import Saasmint.Mirror.FirstSync
import Saasmint.Mirror.Ownership
import Saasmint.Orgs.Creation
import Saasmint.Mirror.Cancellation
import Saasmint.Mirror.Schedules
import Saasmint.Billing.Endpoint
import Saasmint.Orgs.Replay
import Saasmint.Billing.Sessions
import Saasmint.Billing.Replay
import Saasmint.Catalog.Prices
import Saasmint.Library.Locking
import Saasmint.Billing.Ledger
import Saasmint.Billing.Purchases
import Saasmint.Python.Uuid
import Saasmint.Billing.CheckoutViews
import Saasmint.Orgs.Members
import Saasmint.Orgs.Accounts
import Saasmint.Orgs.Operations
import Saasmint.Orgs.Owners
import Saasmint.Orgs.Authority
import Saasmint.Orgs.Erasure
import Saasmint.Orgs.Lifecycle
import Saasmint.Orgs.Orphans
import Saasmint.Orgs.Transfers
import Saasmint.Billing.PlanChanges
import Saasmint.Orgs.SeatLimit
import Saasmint.Orgs.Seats
import Saasmint.Users.Statements
import Saasmint.Users.Tokens
import Saasmint.Users.Requests
import Saasmint.Users.Discipline
import Saasmint.Users.Effects
import Saasmint.Users.Rotation
import Saasmint.Users.OneTime
import Saasmint.Users.PasswordChange
import Saasmint.Users.Sessions
import Saasmint.Users.AccessTokens
import Saasmint.Users.Snapshots
import Saasmint.Orgs.Batches
import Saasmint.Billing.PinnedSubscriptions
import Saasmint.Billing.Resolvers
import Saasmint.Catalog.Seeding
import Saasmint.Catalog.LookupKeys
import Saasmint.Catalog.Sync
import Saasmint.Catalog.StripeCatalog
import Saasmint.Catalog.Minting
import Saasmint.Catalog.Stamping
import Saasmint.Catalog.Traversal
import Saasmint.Catalog.Idempotence
import Saasmint.Catalog.SecondRun
import Saasmint.Catalog.Localizing
import Saasmint.Catalog.Recovery
import Saasmint.Catalog.Deployment
import Saasmint.Library.Expiring
import Saasmint.Users.OAuthExchange
import Saasmint.Account.Export
import Saasmint.Account.Traces
import Saasmint.Library.Histories
import Saasmint.Library.Resumption
import Saasmint.Account.Resuming
import Saasmint.Users.OAuthLogin
import Saasmint.Users.Saves
import Saasmint.Users.LinkedAccounts
import Saasmint.Users.Credentials
import Saasmint.Users.EarnedSessions
import Saasmint.Users.OAuthProviders
import Saasmint.Library.Nearest
import Saasmint.Catalog.FriendlyPrices
import Saasmint.Catalog.Pinning
import Saasmint.Catalog.Subscribers
import Saasmint.Billing.DeclaredCurrency
import Saasmint.Library.Transcripts
import Saasmint.Billing.PlanConversations
import Saasmint.Billing.ActiveSubscriptions
import Saasmint.Billing.Contexts
import Saasmint.Billing.CreditBalances
import Saasmint.Billing.SubscriptionView
import Saasmint.Billing.SurvivingCustomer
import Saasmint.Library.Search
import Saasmint.Orgs.Slugs
import Saasmint.Billing.PeriodReaders
import Saasmint.Library.Batches
import Saasmint.Users.Cleanup
import Saasmint.Billing.RedirectUrls
import Saasmint.Catalog.Audit
import Saasmint.Data.MediaStorage
import Saasmint.Users.Avatars
import Saasmint.Catalog.RateSync
import Saasmint.Users.Redemptions
import Saasmint.Orgs.Mailboxes
import Saasmint.Orgs.Entitlement
import Saasmint.Billing.BillingRequests
import Saasmint.Billing.Scopes
import Saasmint.Billing.BoughtCredits
import Saasmint.Library.Isolation
import Saasmint.Orgs.Reads
import Saasmint.Library.Serial
import Saasmint.Users.Profiles
import Saasmint.Orgs.Disclosure
