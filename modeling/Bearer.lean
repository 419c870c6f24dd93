import Bearer.Client.Body
import Bearer.Issuer.Draft
import Bearer.Proofs.Broker.Deadline
import Bearer.Proofs.Broker.Freshness
import Bearer.Proofs.Client.Herd
import Bearer.Proofs.Client.Retry
import Bearer.Scenario.Session
import Bearer.Scenario.Slot
import Bearer.Proofs.Broker.Accounting
import Bearer.Proofs.Broker.Leaving
import Bearer.Proofs.Json.Whole
import Bearer.Proofs.Client.Bare
import Bearer.Proofs.Issuer.Sound
import Bearer.Proofs.Broker.Handles
import Bearer.Proofs.Client.Redaction
import Bearer.Proofs.Client.Accounts
import Bearer.Proofs.Issuer.Documents
import Bearer.Proofs.Text.Lossy
import Bearer.Proofs.Url.Pairs
import Bearer.Proofs.Url.Parts
import Bearer.Proofs.Url.Marks
import Bearer.Proofs.Http.Target
import Bearer.Proofs.Client.Slot
import Bearer.Proofs.Json.Fields
import Bearer.Proofs.Issuer.Bodies
import Bearer.Proofs.Scenario.Tasks
import Bearer.Proofs.Source.Fetch
import Bearer.Proofs.Broker.Acts
import Bearer.Proofs.Broker.Errand
import Bearer.Proofs.Broker.Polling
import Bearer.Proofs.Client.Attempts
import Bearer.Proofs.Issuer.Settings
import Bearer.Proofs.Issuer.TokenRequest
import Bearer.Proofs.Issuer.Templates
import Bearer.Proofs.Json.Consumed
import Bearer.Proofs.Issuer.Bystanders
import Bearer.Proofs.Source.Margin
import Bearer.Proofs.Source.TicketFetch
import Bearer.Proofs.Json.Extent
import Bearer.Proofs.Issuer.CutShort
import Bearer.Proofs.Broker.Tuning
import Bearer.Proofs.Time.Reading
import Bearer.Proofs.Source.Validity
import Bearer.Proofs.Broker.Jitter
import Bearer.Proofs.Broker.Spacing
