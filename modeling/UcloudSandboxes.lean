import UcloudSandboxes.Lib.Count
import UcloudSandboxes.Lib.Crew
import UcloudSandboxes.Lib.Paging
import UcloudSandboxes.Lib.Regex
import UcloudSandboxes.Lib.Streak
import UcloudSandboxes.Lib.Table
import UcloudSandboxes.Python.Equality
import UcloudSandboxes.Http.Response
import UcloudSandboxes.Http.Decode
import UcloudSandboxes.Http.Pool
import UcloudSandboxes.Http.Reuse
import UcloudSandboxes.Http.Fork
import UcloudSandboxes.Client.Replay
import UcloudSandboxes.Client.Deadline
import UcloudSandboxes.Client.Group
import UcloudSandboxes.Client.GroupTracking
import UcloudSandboxes.Client.GroupUnavailable
import UcloudSandboxes.Client.GroupRecords
import UcloudSandboxes.Client.GroupMembers
import UcloudSandboxes.Client.BuildContext
import UcloudSandboxes.Client.BuildAccounting
import UcloudSandboxes.Client.Exec
import UcloudSandboxes.Client.ExecDelivery
import UcloudSandboxes.Client.ExecDrain
import UcloudSandboxes.Client.Follow
import UcloudSandboxes.Client.FollowDelivery
import UcloudSandboxes.Client.Attempts
import UcloudSandboxes.Client.LastAnswer
import UcloudSandboxes.Client.ConnectionBudget
import UcloudSandboxes.Client.Stdin
import UcloudSandboxes.Client.UploadFiles
import UcloudSandboxes.Client.Images
import UcloudSandboxes.Client.SettledImages
import UcloudSandboxes.Client.ImageWait
import UcloudSandboxes.Relay.Request
import UcloudSandboxes.Relay.Admission
import UcloudSandboxes.Relay.Budget
import UcloudSandboxes.Relay.Worker
import UcloudSandboxes.Relay.Conservation
import UcloudSandboxes.Relay.Agreement
import UcloudSandboxes.Relay.Redelivery
import UcloudSandboxes.Relay.Abandonment
import UcloudSandboxes.Relay.Shutdown
import UcloudSandboxes.Relay.Forwarding
import UcloudSandboxes.Relay.Decode
import UcloudSandboxes.Relay.Renewal
import UcloudSandboxes.Relay.Registration
import UcloudSandboxes.Relay.Poll
import UcloudSandboxes.Relay.Backoff
import UcloudSandboxes.Relay.Flavor
import UcloudSandboxes.Relay.CommitRetries
import UcloudSandboxes.Relay.DeleteRetries
import UcloudSandboxes.Relay.Retrying
import UcloudSandboxes.Relay.BodyCodec
import UcloudSandboxes.Parity
import UcloudSandboxes.Client.ImageRequest
import UcloudSandboxes.Client.ImageAnswers
import UcloudSandboxes.Client.ImageRequestAlike
import UcloudSandboxes.Client.ImagePolls
import UcloudSandboxes.Truncation
import UcloudSandboxes.Decoders
import UcloudSandboxes.Http.AsyncRead
import UcloudSandboxes.Addresses
import UcloudSandboxes.AddressSegments
import UcloudSandboxes.AddressText
import UcloudSandboxes.AddressIdentifiers
import UcloudSandboxes.GroupIds
import UcloudSandboxes.Inspect.Gateway
import UcloudSandboxes.Inspect.Sample
import UcloudSandboxes.Inspect.Submission
import UcloudSandboxes.Inspect.SubmissionInvariant
import UcloudSandboxes.Inspect.SubmissionSteps
import UcloudSandboxes.Inspect.Recovery
import UcloudSandboxes.Inspect.BuildContext
import UcloudSandboxes.Inspect.ContextRecords
import UcloudSandboxes.Inspect.Fingerprint
