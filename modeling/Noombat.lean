import Noombat.Program.Fallible
import Noombat.Filtermail.Policy
import Noombat.Json
import Noombat.Url
import Noombat.UrlText
import Noombat.Table
import Noombat.Federation.Types
import Noombat.Federation.Database
import Noombat.Federation.Statement
import Noombat.Federation.Handler
import Noombat.Federation.IntegrityProof
import Noombat.Federation.Content
import Noombat.Federation.Resolution
import Noombat.Federation.RelayVerify
import Noombat.Federation.Inbox
import Noombat.Federation.Effects
import Noombat.Federation.Rows
import Noombat.Federation.Storing
import Noombat.Federation.HandlerEffects
import Noombat.Federation.ProofSoundness
import Noombat.Federation.RelayIdentity
import Noombat.Federation.FetchedPost
import Noombat.Federation.RelayedPost
import Noombat.Federation.Authority
import Noombat.Federation.RelayMark
import Noombat.Federation.Refresh
import Noombat.Federation.Following
import Noombat.Federation.Migration
import Noombat.Federation.MovedFollowers
import Noombat.Federation.Commitment
import Noombat.Federation.Signing
import Noombat.Relational
import Noombat.Erasure.Schema
import Noombat.Erasure.Tombstone
import Noombat.Program.Threads
import Noombat.Identity.Session
import Noombat.Identity.SingleUse
import Noombat.Identity.Totp
import Noombat.Identity.Connections
import Noombat.Identity.Enrolment
import Noombat.Markup.Typst
import Noombat.Markup.TypstConv
import Noombat.Markup.TypstSafety
import Noombat.Chat.Folding
import Noombat.Chat.Blocks
import Noombat.Search.Removals
import Noombat.Jobs.Grants
import Noombat.Federation.ProfileVisibility
import Noombat.Delivery.Attempts
import Noombat.Api.Serving
import Noombat.Api.Withdrawal
import Noombat.Identity.Employment
import Noombat.Media.Replacement
import Noombat.Media.Claims
import Noombat.Postings.Demotion
import Noombat.ChatmailAdmin.Blocking
import Noombat.Identity.LastAdministrator
import Noombat.Identity.ChallengeRate
import Noombat.Organizations.Outcomes
import Noombat.Organizations.Standing
import Noombat.Erasure.Completeness
import Noombat.ChatmailAdmin.Allowlist
import Noombat.Api.Guards
import Noombat.Filtermail.Readable
import Noombat.Chat.PeerSync
import Noombat.Chat.Conversations
import Noombat.Api.FeedPages
import Noombat.Federation.ActorCalls
import Noombat.Federation.KeySquatting
import Noombat.Federation.OneRow
import Noombat.Filtermail.Announcement
import Noombat.Filtermail.Hygiene
import Noombat.Filtermail.RateLimit
import Noombat.Filtermail.Submission
import Noombat.Filtermail.Transparency
import Noombat.Identity.ProfileEdits
import Noombat.Markup.Headings
import Noombat.Chat.IncrementalFetch
import Noombat.Chat.PeerRestoring
import Noombat.Chat.SenderAddress
import Noombat.Federation.ProofSelection
import Noombat.HtmlText
import Noombat.Identity.Hashtags
import Noombat.Identity.OauthUsernames
import Noombat.Markup.Doi
import Noombat.Markup.HeadingAgreement
import Noombat.Markup.RenderedHeadings
import Noombat.Api.Publishing
import Noombat.Identity.RecordDocuments
import Noombat.Identity.SectionVisibility
import Noombat.Search.Profiles
import Noombat.Erasure.Export
import Noombat.Identity.Cv
import Noombat.Jobs.Dereference
import Noombat.Media.ObjectStore
import Noombat.Postings.BackLinks
import Noombat.Search.Reopening
import Noombat.Core.Net
import Noombat.Federation.Reach
import Noombat.Federation.Backfill
