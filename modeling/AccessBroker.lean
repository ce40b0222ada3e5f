import AccessBroker.Library.Regex
import AccessBroker.Library.AutoTable
import AccessBroker.Library.Lookup
import AccessBroker.Library.Machine
import AccessBroker.Library.Unquote
import AccessBroker.Library.Effect
import AccessBroker.Grants.Display
import AccessBroker.Grants.Lifecycle
import AccessBroker.Audit.Recovery
import AccessBroker.Audit.Rearranging
import AccessBroker.Nextcloud.Refusals
import AccessBroker.Nextcloud.Scope
import AccessBroker.MatrixBot.Replies
import AccessBroker.System.Attribution
import AccessBroker.System.HumanGate
import AccessBroker.System.Listener
import AccessBroker.System.Reactions
import AccessBroker.System.RequestAccess
import AccessBroker.System.Undo
import AccessBroker.Entrypoint.Surfaces
import AccessBroker.LoggingSetup.Scrubbing
import AccessBroker.Cli.Checkin
import AccessBroker.Cli.LockTokens
import AccessBroker.Cli.PushLock
import AccessBroker.Grants.Configured
import AccessBroker.Grants.DeadItems
import AccessBroker.Grants.Filing
import AccessBroker.MatrixBot.Rendering
import AccessBroker.MatrixBot.Revoking
import AccessBroker.Nextcloud.Checkout
import AccessBroker.Nextcloud.WallSites
import AccessBroker.Server.Envelopes
import AccessBroker.Paths.Canonical
import AccessBroker.Paths.Verdict
import AccessBroker.Audit.Completeness
import AccessBroker.Nextcloud.MoveRecords
import AccessBroker.Nextcloud.Trashbin
import AccessBroker.Library.Words
import AccessBroker.Library.Regex.Runs
import AccessBroker.MatrixBot.Pattern
import AccessBroker.MatrixBot.Reading
import AccessBroker.MatrixBot.Grammar
import AccessBroker.MatrixBot.Expiries
import AccessBroker.MatrixBot.KillSwitch
import AccessBroker.MatrixBot.Silence
import AccessBroker.MatrixBot.StatusText
import AccessBroker.System.Notices
import AccessBroker.MarkdownRender.Escaping
import AccessBroker.MarkdownRender.Nesting
import AccessBroker.WebdavAdapter.Listing
import AccessBroker.Cli.Clobber
import AccessBroker.Cli.ExitCodes
import AccessBroker.Cli.ReadingBack
import AccessBroker.Cli.Verifying
import AccessBroker.Cli.Framing
import AccessBroker.SupportBundle.Secrets
import AccessBroker.WebdavAdapter.Independence
import AccessBroker.System.Authority
import AccessBroker.System.Lifetimes
import AccessBroker.System.Lasting
import AccessBroker.System.Logbook
import AccessBroker.System.Provenance
import AccessBroker.Entrypoint.Stages
import AccessBroker.Cli.Issued
import AccessBroker.Grants.Encoding
import AccessBroker.WebdavAdapter.Hiding
import AccessBroker.System.Confidentiality
import AccessBroker.System.Availability
import AccessBroker.Nextcloud.Script
import AccessBroker.System.Answers
import AccessBroker.System.Transport
