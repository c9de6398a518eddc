import Waveform.Directory.Profile
import Waveform.Directory.CustodianAgreement
import Waveform.Accounts.Introspection
import Waveform.Domain.LanguageCase
import Waveform.Audio.Mp3Duration
import Waveform.Api.RequestDigest
import Waveform.Control.Contracts
import Waveform.Control.Jobs
import Waveform.Store.HeldBytes
import Waveform.Store.Isolation
import Waveform.Store.JobAgreement
import Waveform.Store.Storable
import Waveform.Store.StoredReplay
import Waveform.Storage.Refresh
import Waveform.Storage.Revocation
import Waveform.Service.Renewal
import Waveform.Service.ReplayStability
import Waveform.Service.LeaseSettled
import Waveform.Directory.Purge
import Waveform.Directory.Fence
import Waveform.Directory.PublicId
import Waveform.Directory.Custodian
import Waveform.Cli.SameAccount
import Waveform.Web.Refresh
import Waveform.Deploy.Rollback
import Waveform.Service.Fallback
import Waveform.Service.AttemptOrder
import Waveform.Briefcase.Search
import Waveform.Providers.Isolation
import Waveform.Accounts.LookupBudget
import Waveform.Providers.Endpoint
import Waveform.Providers.AudioArtifact
import Waveform.Library.Deadlines
import Waveform.Providers.GeminiBudget
import Waveform.Providers.GeminiCleanup
import Waveform.Service.WorkBudget
import Waveform.Control.ReportQuota
import Waveform.Accounts.KeyRotation
import Waveform.Deploy.CutoverSettings
import Waveform.Web.ReturnPath
import Waveform.Control.ReportCheck
import Waveform.Web.CookieOrder
import Waveform.Operator.LinkAgain
import Waveform.Operator.Custody
import Waveform.Operator.UuidCustody
import Waveform.Briefcase.UploadAgreement
