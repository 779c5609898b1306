import UcloudSandboxes.AddressText

/-!
# Identifiers that stay

Every address is its template, written behind the base URL and before a query.

## Main results

* `contained_iff`: the addresses that keep their segments on every base URL.
* `identifiers_stay_iff`: the identifiers of a URL stay unless one of them is a dot segment, and
  those that stay are told apart.
-/
namespace UcloudSandboxes
open Python Lib Lib.Url

/-! ## Every address -/

/-- A fixed part that is plain and no dot segment, or an identifier. -/
def Part.Proper : Part → Prop
  | .fixed text =>
      ('/' ∉ text.toList ∧ '?' ∉ text.toList ∧ '#' ∉ text.toList) ∧ ¬ IsDot text.toList
  | .id _ => True

instance (part : Part) : Decidable part.Proper :=
  match part with
  | .fixed text => inferInstanceAs (Decidable
      (('/' ∉ text.toList ∧ '?' ∉ text.toList ∧ '#' ∉ text.toList) ∧ ¬ IsDot text.toList))
  | .id _ => .isTrue trivial

theorem Part.Proper.plain {part : Part} (h : part.Proper) : part.Plain := by
  cases part with
  | fixed text => exact h.1
  | id value => exact plain_id value

/-- Only an identifier is a dot segment. -/
theorem isDot_text_iff {template : List Part} (h : ∀ part ∈ template, part.Proper) :
    (∃ part ∈ template, IsDot part.text) ↔
      ∃ value ∈ identifiers template, value = "." ∨ value = ".." := by
  constructor
  · rintro ⟨part, hpart, hdot⟩
    cases part with
    | fixed text => exact absurd hdot (h _ hpart).2
    | id value =>
        exact ⟨value, List.mem_filterMap.mpr ⟨_, hpart, rfl⟩, isDot_quote.mp hdot⟩
  · rintro ⟨value, hvalue, hdot⟩
    obtain ⟨part, hpart, hid⟩ := List.mem_filterMap.mp hvalue
    cases part with
    | fixed text => cases hid
    | id value' =>
        cases hid
        exact ⟨_, hpart, isDot_quote.mpr hdot⟩

theorem proper_id (value : String) : (Part.id value).Proper := trivial

/-- The fixed parts of the templates. -/
theorem proper_fixed :
    (Part.fixed "v1").Proper ∧ (Part.fixed "rollouts").Proper ∧ (Part.fixed "tunnels").Proper ∧
      (Part.fixed "_relay").Proper ∧ (Part.fixed "relay").Proper ∧
      (Part.fixed "capacity").Proper ∧ (Part.fixed "builders").Proper ∧
      (Part.fixed "prepare").Proper ∧ (Part.fixed "sandboxes").Proper ∧
      (Part.fixed "ssh").Proper ∧ (Part.fixed "exec").Proper ∧ (Part.fixed "files").Proper ∧
      (Part.fixed "archive").Proper ∧ (Part.fixed "jobs").Proper ∧
      (Part.fixed "signal").Proper ∧ (Part.fixed "logs").Proper ∧ (Part.fixed "stdin").Proper ∧
      (Part.fixed "close-stdin").Proper ∧ (Part.fixed "events").Proper ∧
      (Part.fixed "images").Proper ∧ (Part.fixed "builds").Proper ∧
      (Part.fixed "image-contexts").Proper ∧ (Part.fixed "sandboxes:batch").Proper := by
  decide +kernel

theorem proper_stream (stream : JobStream) : (Part.fixed stream.text).Proper := by
  cases stream with
  | stdout => decide +kernel
  | stderr => decide +kernel

theorem proper_template (a : Address) : ∀ part ∈ a.template, part.Proper := by
  obtain ⟨h1, h2, h3, h4, h5, h6, h7, h8, h9, h10, h11, h12, h13, h14, h15, h16, h17, h18, h19, h20,
    h21, h22, h23⟩ := proper_fixed
  cases a with
  | model rolloutId =>
      simp only [Address.template, List.forall_mem_cons, List.not_mem_nil, false_implies,
        implies_true, proper_id, and_self, h1, h2]
  | tunnel rolloutId token =>
      cases token with
      | none =>
          simp only [Address.template, List.forall_mem_cons, List.not_mem_nil, false_implies,
            implies_true, proper_id, and_self, h3]
      | some token =>
          simp only [Address.template, List.forall_mem_cons, List.not_mem_nil, false_implies,
            implies_true, proper_id, and_self, h3, h4]
  | request r =>
      cases r <;>
        simp only [Address.template, RequestPath.template, List.forall_mem_cons,
          List.not_mem_nil, false_implies, implies_true, proper_id, proper_stream, and_self, h1,
          h2, h5, h6, h7, h8, h9, h10, h11, h12, h13, h14, h15, h16, h17, h18, h19, h20, h21, h22,
          h23]

theorem template_ne_nil (a : Address) : a.template ≠ [] := by
  cases a with
  | model rolloutId => exact List.cons_ne_nil _ _
  | tunnel rolloutId token => cases token <;> exact List.cons_ne_nil _ _
  | request r => cases r <;> exact List.cons_ne_nil _ _

theorem append_tunnel (a b c d : String) : a ++ b ++ c ++ d = a ++ (b ++ c ++ d) := by
  simp only [String.append_assoc]

theorem append_relay (a b c d e f : String) :
    a ++ b ++ c ++ d ++ e ++ f = a ++ (b ++ c ++ (d ++ e ++ f)) := by
  simp only [String.append_assoc]

section
variable {base : BaseUrl} {a : Address} {tail : Text} {url : String}

theorem validate_token (token : RegistrationToken) :
    Relay.validateRegistrationToken token.val = .ok () :=
  Relay.validateRegistrationToken_ok_iff.mpr token.property

theorem httpTunnelUrl_none (relayUrl rolloutId path : String) :
    httpTunnelUrl relayUrl rolloutId path none =
      .ok (rstripSlash relayUrl ++ ("/tunnels/" ++ quote rolloutId ++ ("/" ++ lstripSlash path))) :=
  congrArg Except.ok (append_tunnel ..)

theorem httpTunnelUrl_some (relayUrl rolloutId path : String) (token : RegistrationToken) :
    httpTunnelUrl relayUrl rolloutId path (some token.val) =
      .ok (rstripSlash relayUrl ++ ("/tunnels/" ++ quote rolloutId ++
        ("/_relay/" ++ quote token.val ++ ("/" ++ lstripSlash path)))) := by
  simp only [httpTunnelUrl, validate_token]
  exact congrArg Except.ok (append_relay ..)

/-- **What a builder writes.** -/
theorem Address.Builds.written (h : a.Builds base tail url) : Written base a.template tail url := by
  have hrollouts : "/rollouts/".toList = render ["rollouts".toList] ++ ['/'] := by simp [render]
  have hv1 : "/v1".toList = render ["v1".toList] := by simp [render]
  have htunnels : "/tunnels/".toList = render ["tunnels".toList] ++ ['/'] := by simp [render]
  have hrelay : "/_relay/".toList = render ["_relay".toList] ++ ['/'] := by simp [render]
  cases a with
  | model rolloutId =>
      obtain ⟨rfl, apiKey, hurl⟩ := h
      have hlookup : (modelRelayEnv base.text rolloutId apiKey).lookup "OPENAI_BASE_URL" =
          some (rstripSlash base.text ++ "/rollouts/" ++ quote rolloutId ++ "/v1") := rfl
      rw [hlookup] at hurl
      rw [← Option.some.inj hurl, append_tunnel, written_iff]
      exact (toList_quoted hrollouts (toList_segments hv1)).trans (by rw [String.toList_empty]; rfl)
  | tunnel rolloutId token =>
      obtain ⟨path, rfl, hurl⟩ := h
      cases token with
      | none =>
          rw [Option.map_none, httpTunnelUrl_none] at hurl
          rw [← Except.ok.inj hurl, written_iff]
          exact toList_quoted htunnels (toList_rest _)
      | some token =>
          rw [Option.map_some, httpTunnelUrl_some] at hurl
          rw [← Except.ok.inj hurl, written_iff]
          exact toList_quoted htunnels (toList_quoted hrelay (toList_rest _))
  | request r =>
      obtain ⟨rfl, rfl⟩ := h
      exact written_iff.mpr (path_toList r)

/-- A query, or none. -/
def IsQuery (tail : Text) : Prop := tail = [] ∨ ∃ rest, tail = '?' :: rest

/-- A query is no part of the path. -/
theorem IsQuery.path (h : IsQuery tail) : (cut '?' (cut '#' tail).1).1 = [] := by
  rcases h with rfl | ⟨rest, rfl⟩
  · rfl
  · simp [cut]

theorem isQuery_append (text : String) : IsQuery ("?" ++ text).toList := by
  refine .inr ⟨text.toList, ?_⟩
  rw [String.toList_append]
  rfl

theorem isQuery_query (r : RequestPath) : IsQuery r.query.toList := by
  cases r with
  | exec sandboxId waits =>
      have hwaits : "?initial_wait_seconds=0.05".toList =
          '?' :: "initial_wait_seconds=0.05".toList := by decide +kernel
      cases waits with
      | true => exact .inr ⟨_, hwaits⟩
      | false => exact .inl rfl
  | files sandboxId containerPath => exact isQuery_append _
  | archive sandboxId baseDir => exact isQuery_append _
  | job sandboxId jobId waitMs after =>
      change IsQuery (if (jobStatusQuery waitMs after).isEmpty then ""
        else "?" ++ urlencode (jobStatusQuery waitMs after)).toList
      split_ifs
      · exact .inl rfl
      · exact isQuery_append _
  | jobLogs sandboxId jobId stream offset limit waitMs => exact isQuery_append _
  | events sessionId after limit waitSeconds => exact isQuery_append _
  | _ => exact .inl rfl

/-- What stands behind the segments ends the path, or begins with a `/`. -/
theorem Address.Builds.rooted (h : a.Builds base tail url) :
    Rooted (cut '?' (cut '#' tail).1).1 := by
  cases a with
  | model rolloutId =>
      obtain ⟨rfl, -⟩ := h
      exact .inl rfl
  | tunnel rolloutId token =>
      obtain ⟨path, rfl, -⟩ := h
      have hslash : ("/" ++ lstripSlash path).toList = '/' :: (lstripSlash path).toList := by
        rw [String.toList_append]
        rfl
      refine .inr ⟨(cut '?' (cut '#' (lstripSlash path).toList).1).1, ?_⟩
      rw [hslash]
      simp [cut]
  | request r =>
      obtain ⟨rfl, -⟩ := h
      exact .inl (isQuery_query r).path

/-- Every address has a URL with no dot segment behind its own segments. -/
theorem exists_builds (base : BaseUrl) (a : Address) :
    ∃ tail url, a.Builds base tail url ∧
      ∀ s ∈ Url.segments (cut '?' (cut '#' tail).1).1, ¬ IsDot s := by
  cases a with
  | model rolloutId =>
      refine ⟨[], _, ⟨rfl, "intercepted", rfl⟩, ?_⟩
      decide
  | tunnel rolloutId token =>
      have htail : ("/" ++ lstripSlash "/").toList = ['/'] := by decide +kernel
      cases token with
      | none =>
          refine ⟨_, _, ⟨"/", rfl, httpTunnelUrl_none ..⟩, ?_⟩
          rw [htail]
          decide
      | some token =>
          refine ⟨_, _, ⟨"/", rfl, httpTunnelUrl_some ..⟩, ?_⟩
          rw [htail]
          decide
  | request r =>
      refine ⟨_, _, ⟨rfl, rfl⟩, ?_⟩
      rw [(isQuery_query r).path]
      decide

/-- **When the identifiers of an address stay.** -/
theorem contained_iff (base : BaseUrl) (a : Address) :
    a.Contained base ↔ ∀ value ∈ identifiers a.template, value ≠ "." ∧ value ≠ ".." := by
  have hplain : ∀ part ∈ a.template, part.Plain := by
    intro part hpart
    exact (proper_template a part hpart).plain
  have hdots := isDot_text_iff (proper_template a)
  constructor
  · intro h value hvalue
    rw [← not_or]
    intro hdot
    obtain ⟨part, hpart, hpartdot⟩ := hdots.mpr ⟨value, hvalue, hdot⟩
    obtain ⟨tail, url, hbuilds, hnames⟩ := exists_builds base a
    exact not_keeps_of_dot hbuilds.written hplain hbuilds.rooted hnames hpart hpartdot
      (h tail url hbuilds)
  · intro h tail url hbuilds
    refine keeps_of_names hbuilds.written hplain (template_ne_nil a) hbuilds.rooted ?_
    intro part hpart hdot
    obtain ⟨value, hvalue, hvaluedot⟩ := hdots.mp ⟨part, hpart, hdot⟩
    exact not_or.mpr (h value hvalue) hvaluedot

end

/-! ## Telling identifiers apart -/

/-- Templates of one shape that match the same segments are the same. -/
theorem template_eq {s t : List Part} {segs : List Text} (hs : List.Forall₂ Part.Matches s segs)
    (ht : List.Forall₂ Part.Matches t segs) (hshape : shape s = shape t) : s = t := by
  induction hs generalizing t with
  | nil =>
      cases ht
      rfl
  | @cons part segment rest segs hmatch _ ih =>
      cases ht with
      | @cons part' _ rest' _ hmatch' hrest' =>
          simp only [shape, List.map_cons, List.cons.injEq] at hshape
          rw [ih hrest' hshape.2]
          cases part with
          | fixed text =>
              cases part' with
              | fixed text' => rw [Option.some.inj hshape.1]
              | id value' => cases hshape.1
          | id value =>
              cases part' with
              | fixed text' => cases hshape.1
              | id value' =>
                  simp only [Part.Matches] at hmatch hmatch'
                  rw [hmatch] at hmatch'
                  rw [Option.some.inj hmatch']

/-- Nothing behind the segments of an address is a dot segment. -/
def TailNames (tail : Text) : Prop :=
  ∀ s ∈ Url.segments (cut '?' (cut '#' tail).1).1, ¬ IsDot s

/-- The segments of a URL that are kept. -/
theorem Keeps.segments {base : BaseUrl} {template : List Part} {tail : Text} {url : String}
    (h : Keeps base template tail url) (htail : TailNames tail) :
    ∃ segs rest, List.Forall₂ Part.Matches template segs ∧
      normalPath url = base.segments ++ (segs ++ rest) := by
  obtain ⟨segs, hmatches, hpath⟩ := h.path
  refine ⟨segs, Url.segments (cut '?' (cut '#' tail).1).1, hmatches, ?_⟩
  rw [hpath, removeDots_names _ htail, List.append_assoc]

/-- The identifiers of an address stay in its URLs, and its URLs lead to no other identifiers that
stay. -/
structure Address.Stays (base : BaseUrl) (a : Address) : Prop where
  contained : a.Contained base
  distinct : ∀ a' : Address, a'.Contained base → shape a.template = shape a'.template →
    ∀ tail tail' url url', a.Builds base tail url → a'.Builds base tail' url' →
      TailNames tail → TailNames tail' → normalPath url = normalPath url' →
        identifiers a.template = identifiers a'.template

/-- **An identifier stays one segment** of every URL that is built with it, unless it is `.` or
`..`. -/
theorem identifiers_stay_iff (base : BaseUrl) (a : Address) :
    a.Stays base ↔ ∀ value ∈ identifiers a.template, value ≠ "." ∧ value ≠ ".." := by
  rw [← contained_iff base a]
  constructor
  · intro h
    exact h.contained
  · intro h
    refine ⟨h, ?_⟩
    intro a' h' hshape tail tail' url url' hbuilds hbuilds' htail htail' hpath
    obtain ⟨segs, rest, hmatches, hsegs⟩ := (h tail url hbuilds).segments htail
    obtain ⟨segs', rest', hmatches', hsegs'⟩ := (h' tail' url' hbuilds').segments htail'
    have hlength : a.template.length = a'.template.length := by
      simpa [shape] using congrArg List.length hshape
    rw [hsegs, hsegs', List.append_cancel_left_eq] at hpath
    have hsame := (List.append_inj hpath
      (by rw [← hmatches.length_eq, ← hmatches'.length_eq, hlength])).1
    rw [template_eq hmatches (hsame ▸ hmatches') hshape]

/-- `https://relay.example`. -/
def relayExample : BaseUrl where
  scheme := ['h', 't', 't', 'p', 's']
  authority := "relay.example".toList
  path := []
  scheme_ok := by decide
  authority_ok := by decide +kernel
  authority_ne := by decide +kernel
  path_ok := by decide
  rooted := .inl rfl

/-- The URL of a model for the rollout `..` leads out of the rollouts. -/
theorem dots_leave :
    ((modelRelayEnv "https://relay.example" ".." "intercepted").lookup "OPENAI_BASE_URL").map
        normalPath = some ["v1".toList] ∧
      ¬ (Address.model "..").Contained relayExample := by
  refine ⟨by decide +kernel, ?_⟩
  intro h
  obtain ⟨segs, hmatches, hpath⟩ :=
    (h [] "https://relay.example/rollouts/../v1" ⟨rfl, "intercepted", by decide +kernel⟩).path
  have hlength := hmatches.length_eq
  have hleft : normalPath "https://relay.example/rollouts/../v1" = ["v1".toList] := by
    decide +kernel
  have hright : removeDots (relayExample.segments ++ segs)
      (Url.segments (cut '?' (cut '#' []).1).1) = segs := rfl
  rw [hleft, hright] at hpath
  rw [← hpath] at hlength
  cases hlength

end UcloudSandboxes
