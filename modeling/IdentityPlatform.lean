import IdentityPlatform.Interleaving.Program
import IdentityPlatform.Interleaving.Effects
import IdentityPlatform.Interleaving.Contracts
import IdentityPlatform.Interleaving.FollowUp
import IdentityPlatform.Interleaving.Machine
import IdentityPlatform.Interleaving.History
import IdentityPlatform.Interleaving.Assertions
import IdentityPlatform.Interleaving.Tickets
import IdentityPlatform.Interleaving.Transactions
import IdentityPlatform.Interleaving.Observer
import IdentityPlatform.Interleaving.Alone
import IdentityPlatform.Interleaving.Failures
import IdentityPlatform.Interleaving.Rely
import IdentityPlatform.Http.Headers
import IdentityPlatform.Relational.Table
import IdentityPlatform.Relational.Cache
import IdentityPlatform.Relational.ReadCommitted
import IdentityPlatform.Calendar.Fields
import IdentityPlatform.Calendar.Timestamps
import IdentityPlatform.Coding.Base64
import IdentityPlatform.Url.Utf8
import IdentityPlatform.Url.FormUrlEncoded
import IdentityPlatform.Url.Record
import IdentityPlatform.Common.Text
import IdentityPlatform.Common.Errors
import IdentityPlatform.Infrastructure.Platform
import IdentityPlatform.Infrastructure.Schema
import IdentityPlatform.Infrastructure.World
import IdentityPlatform.Infrastructure.Statements
import IdentityPlatform.Infrastructure.Execution
import IdentityPlatform.Infrastructure.Transactions
import IdentityPlatform.Modules.Audit
import IdentityPlatform.Modules.Users
import IdentityPlatform.Modules.Sessions
import IdentityPlatform.Modules.Tokens
import IdentityPlatform.Modules.Clients
import IdentityPlatform.Modules.Roles
import IdentityPlatform.Modules.RoleTransactions
import IdentityPlatform.Modules.Migrations
import IdentityPlatform.Modules.Mfa
import IdentityPlatform.Modules.Risk
import IdentityPlatform.Modules.AuthorizationCodes
import IdentityPlatform.Modules.OAuth
import IdentityPlatform.Modules.Auth
import IdentityPlatform.Common.Guards
import IdentityPlatform.Modules.Gateway
import IdentityPlatform.Modules.Keys
import IdentityPlatform.Modules.Resources
import IdentityPlatform.Modules.RateLimit
import IdentityPlatform.Modules.LocalKeys
import IdentityPlatform.Apps.AuthServer
import IdentityPlatform.Protocol.State
import IdentityPlatform.Protocol.Answers
import IdentityPlatform.Protocol.Services
import IdentityPlatform.Protocol.Grants
import IdentityPlatform.Protocol.Received
import IdentityPlatform.Protocol.Reasons
import IdentityPlatform.Protocol.Justified
import IdentityPlatform.Protocol.Origins
import IdentityPlatform.Protocol.MailedTokens
import IdentityPlatform.Protocol.Details
import IdentityPlatform.Protocol.Invariants
import IdentityPlatform.Protocol.TokenFamilies
import IdentityPlatform.Protocol.DisabledAccounts
import IdentityPlatform.Protocol.Lockout
import IdentityPlatform.Protocol.SecondFactors
import IdentityPlatform.Protocol.EnrolledSecrets
import IdentityPlatform.Protocol.RiskScores
import IdentityPlatform.Protocol.RiskRetry
import IdentityPlatform.Protocol.Registration
import IdentityPlatform.Protocol.LoginChallenges
import IdentityPlatform.Protocol.ChallengeAttempts
import IdentityPlatform.Protocol.SessionTokens
import IdentityPlatform.Protocol.SigningKeys
import IdentityPlatform.Protocol.MfaSessions
import IdentityPlatform.Protocol.MfaClaims
import IdentityPlatform.Protocol.SessionExpiry
import IdentityPlatform.Protocol.ClientScopes
import IdentityPlatform.Protocol.DelegatedScopes
import IdentityPlatform.Protocol.Identifiers
import IdentityPlatform.Protocol.ClaimTexts
import IdentityPlatform.Protocol.GatewayIdentity
import IdentityPlatform.Protocol.IdentityHeaders
import IdentityPlatform.Protocol.TokenConsumption
import IdentityPlatform.Protocol.ReuseDetection
import IdentityPlatform.Protocol.ScopeRejection
import IdentityPlatform.Protocol.FamilyRevocation
import IdentityPlatform.Protocol.Revocation
import IdentityPlatform.Protocol.Unverified
import IdentityPlatform.Protocol.Permissions
import IdentityPlatform.Protocol.ServicePermissions
import IdentityPlatform.Protocol.IdTokenClaims
import IdentityPlatform.Protocol.RegisteredGrants
import IdentityPlatform.Protocol.AdminScope
import IdentityPlatform.Protocol.Privileges
import IdentityPlatform.Protocol.StalePasswords
import IdentityPlatform.Protocol.ClientBinding
import IdentityPlatform.Protocol.CodeExchange
import IdentityPlatform.Protocol.CodeReplay
import IdentityPlatform.Protocol.DisabledClients
import IdentityPlatform.Protocol.DisabledUsers
import IdentityPlatform.Protocol.Counters
import IdentityPlatform.Protocol.CounterExpiry
import IdentityPlatform.Protocol.RateLimits
import IdentityPlatform.Protocol.PasswordResets
import IdentityPlatform.Protocol.RoleReplacement
import IdentityPlatform.Protocol.Migrations
import IdentityPlatform.Protocol.WrongExchanges
import IdentityPlatform.Protocol.RightExchanges
import IdentityPlatform.Protocol.DocumentIsolation
import IdentityPlatform.Protocol.DocumentDeletion
import IdentityPlatform.Protocol.Verifiers
import IdentityPlatform.Protocol.LoginRoots
import IdentityPlatform.Protocol.DenylistExpiry
import IdentityPlatform.Protocol.KeyRotation
import IdentityPlatform.Protocol.Redirects
import IdentityPlatform.Protocol.Columns
import IdentityPlatform.Protocol.TypedParameters
import IdentityPlatform.Protocol.ServiceSubjects
import IdentityPlatform.Apps.Browser
import IdentityPlatform.Protocol.BrowserRefresh
