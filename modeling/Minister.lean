import Minister.Merge.Nesting
import Minister.Merge.Ceremony
import Minister.Merge.Completeness
import Minister.Plugins.Separation
import Minister.Policy.Minimization
import Minister.Oidc.Disclosure
import Minister.Oidc.Revocation
import Minister.Recovery.InFlight
import Minister.Credentials.Removal
import Minister.SignIn.Lockout
import Minister.AnonSeed.Pairing
import Minister.Vc.Unlinkability
import Minister.Oidc.Grants
import Minister.AnonSeed.Epochs
import Minister.AnonSeed.Backups
import Minister.AnonSeed.Cooldown
import Minister.Nullifier.DriftCache
import Minister.Nullifier.SignetBackend
import Minister.Admins
import Minister.Merge.LedgerOwners
import Minister.Oidc.Pairwise
import Minister.Oidc.ProfileClaims
import Minister.Groups.CoupGuard
import Minister.Groups.Layers
import Minister.Groups.Quota
import Minister.Oidc.Freshness
import Minister.StatusList.Publish
import Minister.RateLimit
import Minister.Recovery.Offers
import Minister.Plugins.InviteCodes
import Minister.Merge.Collisions
import Minister.Oidc.MergeRace
import Minister.Policy.Cost
import Minister.Plugins.AccountAge
import Minister.ClientIp
import Minister.Recovery.Codes
