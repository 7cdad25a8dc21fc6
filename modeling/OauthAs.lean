import OauthAs.Guarantees.Advertised
import OauthAs.Guarantees.Ceiling
import OauthAs.Guarantees.CodeEntry
import OauthAs.Guarantees.Echo
import OauthAs.Guarantees.EntryPolicy
import OauthAs.Guarantees.Exchange
import OauthAs.Guarantees.Fetched
import OauthAs.Guarantees.Keys
import OauthAs.Guarantees.NotBefore
import OauthAs.Guarantees.Ownership
import OauthAs.Guarantees.Pushing
import OauthAs.Guarantees.Query
import OauthAs.Guarantees.Races
import OauthAs.Guarantees.Redirects
import OauthAs.Guarantees.Refusals
import OauthAs.Guarantees.Replay
import OauthAs.Guarantees.Revocation
import OauthAs.Guarantees.Rotation
import OauthAs.Guarantees.Served
import OauthAs.Guarantees.SingleUse
import OauthAs.Guarantees.StepUp
import OauthAs.Guarantees.Thumbprint
import OauthAs.Guarantees.Withdrawal
import OauthAs.Limiter.Contention
import OauthAs.Limiter.Sequence
import OauthAs.Store.Index
import OauthAs.Store.Sweep
