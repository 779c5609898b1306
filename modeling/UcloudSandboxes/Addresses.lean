import UcloudSandboxes.Client.Group
import UcloudSandboxes.Python.Quote
import UcloudSandboxes.Relay.Registration

/-!
# Identifiers in URLs

The URLs that the SDK builds with the identifiers it is given: `model_relay_env`, `http_tunnel_url`,
and the request paths of both clients. An identifier is to stay one segment of the path, also when
the path is normalised.

## Main definitions

* `RequestPath.path`: the request paths, by their builders.
* `Address.template`: the parts of an address, fixed ones and identifiers.
* `Keeps`: a URL keeps the segments of its template.
-/
namespace UcloudSandboxes
open Python Lib Lib.Url

/-! ## Builders -/

section Builders

/-- `_quote_segment`. -/
def quoteSegment (value : String) : String := quote value

/-- `model_relay_env`. -/
def modelRelayEnv (relayUrl rolloutId apiKey : String) : List (String × String) :=
  let base := rstripSlash relayUrl
  [("VF_RELAY_ROLLOUT_ID", rolloutId),
    ("OPENAI_BASE_URL", base ++ "/rollouts/" ++ quote rolloutId ++ "/v1"),
    ("OPENAI_API_KEY", apiKey)]

/-- `http_tunnel_url`. -/
def httpTunnelUrl (relayUrl rolloutId path : String) (registrationToken : Option String) :
    Except Raised String := do
  let suffix := "/" ++ lstripSlash path
  let base := rstripSlash relayUrl ++ "/tunnels/" ++ quote rolloutId
  match registrationToken with
  | none => return base ++ suffix
  | some token =>
      Relay.validateRegistrationToken token
      return base ++ "/_relay/" ++ quote token ++ suffix

/-- `_unregistration_path`. -/
def unregistrationPath (rolloutId : String) : String :=
  "/v1/relay/rollouts/" ++ quote rolloutId

/-- The path of `delete_prepared_capacity`. -/
def preparedCapacityPath (prepareId : String) : String :=
  "/v1/capacity/prepare/" ++ quoteSegment prepareId

/-- The path of `delete_prepared_builder`. -/
def preparedBuilderPath (prepareId : String) : String :=
  "/v1/builders/prepare/" ++ quoteSegment prepareId

/-- The path of `delete_sandbox`, and what `ssh`, `exec` and `start_job` put behind it. -/
def sandboxPath (sandboxId suffix : String) : String :=
  "/v1/sandboxes/" ++ quoteSegment sandboxId ++ suffix

/-- The path of `signal_job`. -/
def jobSignalPath (sandboxId jobId : String) : String :=
  "/v1/sandboxes/" ++ quoteSegment sandboxId ++ "/jobs/" ++ quoteSegment jobId ++ "/signal"

/-- The path of `get_exec_session`, and what the calls on a session put behind it. -/
def sessionPath (sessionId suffix : String) : String :=
  "/v1/exec/" ++ quoteSegment sessionId ++ suffix

/-- The path of `get_image_build`. -/
def imageBuildPath (buildIdOrImageId : String) : String :=
  "/v1/images/builds/" ++ quoteSegment buildIdOrImageId

/-- The path of a build context. -/
def contextPath (digest : String) : String := "/v1/image-contexts/" ++ quoteSegment digest

/-- `_file_path`. -/
def filePath (sandboxId containerPath : String) : String :=
  "/v1/sandboxes/" ++ quoteSegment sandboxId ++ "/files?" ++ urlencode [("path", containerPath)]

/-- `_archive_path`. -/
def archivePath (sandboxId baseDir : String) : String :=
  "/v1/sandboxes/" ++ quoteSegment sandboxId ++ "/archive?" ++ urlencode [("path", baseDir)]

/-- The query of `_job_status_path`. -/
def jobStatusQuery (waitMs : Option ℤ) (after : Option String) : List (String × String) :=
  (waitMs.map fun ms => ("wait_ms", toString ms)).toList ++
    (after.map fun cursor => ("after", cursor)).toList

/-- `_job_status_path`, with the milliseconds of `_job_wait_ms`. -/
def jobStatusPath (sandboxId jobId : String) (waitMs : Option ℤ) (after : Option String) :
    String :=
  let path := "/v1/sandboxes/" ++ quoteSegment sandboxId ++ "/jobs/" ++ quoteSegment jobId
  let query := jobStatusQuery waitMs after
  if query.isEmpty then path else path ++ "?" ++ urlencode query

/-- The streams of a job. -/
inductive JobStream
  | stdout
  | stderr

def JobStream.text : JobStream → String
  | .stdout => "stdout"
  | .stderr => "stderr"

/-- The query of `_job_logs_path`. -/
def jobLogsQuery (offset limit : ℤ) (waitMs : Option ℤ) : List (String × String) :=
  [("offset", toString (max 0 offset)), ("limit", toString (max 1 limit))] ++
    (waitMs.map fun ms => ("wait_ms", toString ms)).toList

/-- `_job_logs_path`, for a stream that it accepts. -/
def jobLogsPath (sandboxId jobId : String) (stream : JobStream) (offset limit : ℤ)
    (waitMs : Option ℤ) : String :=
  "/v1/sandboxes/" ++ quoteSegment sandboxId ++ "/jobs/" ++ quoteSegment jobId ++ "/logs/" ++
    stream.text ++ "?" ++ urlencode (jobLogsQuery offset limit waitMs)

/-- `_exec_events_path`, with the text of `max(0.0, wait_seconds)`. -/
def execEventsPath (sessionId : String) (after limit : ℤ) (waitSeconds : String) : String :=
  "/v1/exec/" ++ quoteSegment sessionId ++ "/events?" ++
    urlencode [("after", toString (max 0 after)), ("limit", toString (max 1 limit)),
      ("wait_seconds", waitSeconds)]

/-- A character of `_SANDBOX_GROUP_ID_RE` behind the first one. -/
def isGroupIdChar (c : Char) : Bool := c.isAlphanum || c = '_' || c = '.' || c = '-'

/-- `_SANDBOX_GROUP_ID_RE.match`; `$` also matches before a newline at the end. -/
def isSandboxGroupId (groupId : String) : Bool :=
  match groupId.toList with
  | c :: rest =>
      let body := if rest.getLast? = some '\n' then rest.dropLast else rest
      c.isAlphanum && decide (body.length ≤ 58) && body.all isGroupIdChar
  | [] => false

/-- `_sandbox_group_path`, for an identifier that `_sandbox_group_id` accepts. -/
def sandboxGroupIdPath (groupId : String) : String :=
  Client.sandboxGroupPath ++ "/" ++ quoteSegment groupId

end Builders

/-- The request paths that carry an identifier. -/
inductive RequestPath
  | unregister (rolloutId : String)
  | preparedCapacity (prepareId : String)
  | preparedBuilder (prepareId : String)
  | sandbox (sandboxId : String)
  | ssh (sandboxId : String)
  | exec (sandboxId : String) (waits : Bool)
  | files (sandboxId containerPath : String)
  | archive (sandboxId baseDir : String)
  | jobs (sandboxId : String)
  | job (sandboxId jobId : String) (waitMs : Option ℤ) (after : Option String)
  | jobSignal (sandboxId jobId : String)
  | jobLogs (sandboxId jobId : String) (stream : JobStream) (offset limit : ℤ)
      (waitMs : Option ℤ)
  | session (sessionId : String)
  | stdin (sessionId : String)
  | closeStdin (sessionId : String)
  | signal (sessionId : String)
  | events (sessionId : String) (after limit : ℤ) (waitSeconds : String)
  | imageBuild (buildIdOrImageId : String)
  | imageContext (digest : String)
  | group (groupId : Subtype fun groupId => isSandboxGroupId groupId = true)

/-- The path as the client builds it. -/
def RequestPath.path : RequestPath → String
  | .unregister rolloutId => unregistrationPath rolloutId
  | .preparedCapacity prepareId => preparedCapacityPath prepareId
  | .preparedBuilder prepareId => preparedBuilderPath prepareId
  | .sandbox sandboxId => sandboxPath sandboxId ""
  | .ssh sandboxId => sandboxPath sandboxId "/ssh"
  | .exec sandboxId waits =>
      sandboxPath sandboxId ("/exec" ++ if waits then "?initial_wait_seconds=0.05" else "")
  | .files sandboxId containerPath => filePath sandboxId containerPath
  | .archive sandboxId baseDir => archivePath sandboxId baseDir
  | .jobs sandboxId => sandboxPath sandboxId "/jobs"
  | .job sandboxId jobId waitMs after => jobStatusPath sandboxId jobId waitMs after
  | .jobSignal sandboxId jobId => jobSignalPath sandboxId jobId
  | .jobLogs sandboxId jobId stream offset limit waitMs =>
      jobLogsPath sandboxId jobId stream offset limit waitMs
  | .session sessionId => sessionPath sessionId ""
  | .stdin sessionId => sessionPath sessionId "/stdin"
  | .closeStdin sessionId => sessionPath sessionId "/close-stdin"
  | .signal sessionId => sessionPath sessionId "/signal"
  | .events sessionId after limit waitSeconds => execEventsPath sessionId after limit waitSeconds
  | .imageBuild buildIdOrImageId => imageBuildPath buildIdOrImageId
  | .imageContext digest => contextPath digest
  | .group groupId => sandboxGroupIdPath groupId

/-! ## What the URLs are to be -/

/-- A segment that is fixed, or one for an identifier. -/
inductive Part
  | fixed (text : String)
  | id (value : String)

/-- The segment as it is built. -/
def Part.text : Part → Text
  | .fixed text => text.toList
  | .id value => (quote value).toList

/-- The segment is what it is to be: an identifier is read back from it. -/
def Part.Matches : Part → Text → Prop
  | .fixed text, segment => segment = text.toList
  | .id value, segment => unquote segment = some value

/-- The identifiers of a path. -/
def identifiers (template : List Part) : List String :=
  template.filterMap fun part =>
    match part with
    | .fixed _ => none
    | .id value => some value

/-- The path without its identifiers. -/
def shape (template : List Part) : List (Option String) :=
  template.map fun part =>
    match part with
    | .fixed text => some text
    | .id _ => none

/-- A URL that paths are appended to. -/
structure BaseUrl where
  scheme : Text
  authority : Text
  path : Text
  scheme_ok : ':' ∉ scheme ∧ '?' ∉ scheme ∧ '#' ∉ scheme
  authority_ok : '/' ∉ authority ∧ '?' ∉ authority ∧ '#' ∉ authority
  authority_ne : authority ≠ []
  path_ok : '?' ∉ path ∧ '#' ∉ path
  rooted : Rooted path

namespace BaseUrl
variable (base : BaseUrl)

def text : String :=
  String.ofList (base.scheme ++ [':', '/', '/'] ++ base.authority ++ base.path)

/-- The path without the slashes at its end. -/
def stripped : Text := (base.path.reverse.dropWhile (· = '/')).reverse

/-- The segments of the path, normalised. -/
def segments : List Text := climb [] (Url.segments base.stripped)

end BaseUrl

/-- The segments of the path of a URL, normalised. -/
def normalPath (url : String) : List Text :=
  removeDots [] (Url.segments (parse url.toList).path)

/-- Behind the base stand the segments of the template, then `tail`; nothing else is in the query
or the fragment. -/
structure Keeps (base : BaseUrl) (template : List Part) (tail : Text) (url : String) : Prop where
  scheme : (parse url.toList).scheme = base.scheme
  authority : (parse url.toList).authority = base.authority
  query : (parse url.toList).query = (cut '?' (cut '#' tail).1).2
  fragment : (parse url.toList).fragment = (cut '#' tail).2
  path : ∃ segs, List.Forall₂ Part.Matches template segs ∧
    normalPath url = removeDots (base.segments ++ segs) (Url.segments (cut '?' (cut '#' tail).1).1)

/-- A registration token. -/
abbrev RegistrationToken := Subtype fun token => Relay.isRegistrationToken token = true

/-- What a URL is built for. -/
inductive Address
  | model (rolloutId : String)
  | tunnel (rolloutId : String) (token : Option RegistrationToken)
  | request (r : RequestPath)

/-- The segments of a request path. -/
def RequestPath.template : RequestPath → List Part
  | .unregister rolloutId => [.fixed "v1", .fixed "relay", .fixed "rollouts", .id rolloutId]
  | .preparedCapacity prepareId =>
      [.fixed "v1", .fixed "capacity", .fixed "prepare", .id prepareId]
  | .preparedBuilder prepareId =>
      [.fixed "v1", .fixed "builders", .fixed "prepare", .id prepareId]
  | .sandbox sandboxId => [.fixed "v1", .fixed "sandboxes", .id sandboxId]
  | .ssh sandboxId => [.fixed "v1", .fixed "sandboxes", .id sandboxId, .fixed "ssh"]
  | .exec sandboxId _ => [.fixed "v1", .fixed "sandboxes", .id sandboxId, .fixed "exec"]
  | .files sandboxId _ => [.fixed "v1", .fixed "sandboxes", .id sandboxId, .fixed "files"]
  | .archive sandboxId _ => [.fixed "v1", .fixed "sandboxes", .id sandboxId, .fixed "archive"]
  | .jobs sandboxId => [.fixed "v1", .fixed "sandboxes", .id sandboxId, .fixed "jobs"]
  | .job sandboxId jobId _ _ =>
      [.fixed "v1", .fixed "sandboxes", .id sandboxId, .fixed "jobs", .id jobId]
  | .jobSignal sandboxId jobId =>
      [.fixed "v1", .fixed "sandboxes", .id sandboxId, .fixed "jobs", .id jobId,
        .fixed "signal"]
  | .jobLogs sandboxId jobId stream _ _ _ =>
      [.fixed "v1", .fixed "sandboxes", .id sandboxId, .fixed "jobs", .id jobId, .fixed "logs",
        .fixed stream.text]
  | .session sessionId => [.fixed "v1", .fixed "exec", .id sessionId]
  | .stdin sessionId => [.fixed "v1", .fixed "exec", .id sessionId, .fixed "stdin"]
  | .closeStdin sessionId => [.fixed "v1", .fixed "exec", .id sessionId, .fixed "close-stdin"]
  | .signal sessionId => [.fixed "v1", .fixed "exec", .id sessionId, .fixed "signal"]
  | .events sessionId _ _ _ => [.fixed "v1", .fixed "exec", .id sessionId, .fixed "events"]
  | .imageBuild buildIdOrImageId =>
      [.fixed "v1", .fixed "images", .fixed "builds", .id buildIdOrImageId]
  | .imageContext digest => [.fixed "v1", .fixed "image-contexts", .id digest]
  | .group groupId => [.fixed "v1", .fixed "sandboxes:batch", .id groupId]

/-- What stands behind the path of a request. -/
def RequestPath.query : RequestPath → String
  | .exec _ waits => if waits then "?initial_wait_seconds=0.05" else ""
  | .files _ containerPath => "?" ++ urlencode [("path", containerPath)]
  | .archive _ baseDir => "?" ++ urlencode [("path", baseDir)]
  | .job _ _ waitMs after =>
      let query := jobStatusQuery waitMs after
      if query.isEmpty then "" else "?" ++ urlencode query
  | .jobLogs _ _ _ offset limit waitMs => "?" ++ urlencode (jobLogsQuery offset limit waitMs)
  | .events _ after limit waitSeconds =>
      "?" ++ urlencode [("after", toString (max 0 after)), ("limit", toString (max 1 limit)),
        ("wait_seconds", waitSeconds)]
  | _ => ""

namespace Address

/-- The segments that the URL of an address is to have. -/
def template : Address → List Part
  | .model rolloutId => [.fixed "rollouts", .id rolloutId, .fixed "v1"]
  | .tunnel rolloutId none => [.fixed "tunnels", .id rolloutId]
  | .tunnel rolloutId (some token) =>
      [.fixed "tunnels", .id rolloutId, .fixed "_relay", .id token]
  | .request r => r.template

/-- `url` is built for the address, with `tail` behind its segments. -/
def Builds (base : BaseUrl) : Address → Text → String → Prop
  | .model rolloutId, tail, url =>
      tail = [] ∧
        ∃ apiKey, (modelRelayEnv base.text rolloutId apiKey).lookup "OPENAI_BASE_URL" = some url
  | .tunnel rolloutId token, tail, url =>
      ∃ path, tail = ("/" ++ lstripSlash path).toList ∧
        httpTunnelUrl base.text rolloutId path (token.map Subtype.val) = .ok url
  | .request r, tail, url =>
      tail = r.query.toList ∧ url = rstripSlash base.text ++ r.path

/-- However it is built, the URL keeps the identifiers of the address as they are. -/
def Contained (base : BaseUrl) (a : Address) : Prop :=
  ∀ tail url, a.Builds base tail url → Keeps base a.template tail url

end Address

end UcloudSandboxes
