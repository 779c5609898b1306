import UcloudSandboxes.AddressSegments

/-!
# What the builders write

Each builder puts literals and quoted identifiers one behind the other, which is its template
rendered.

## Main results

* `path_toList`: the request path of every builder, segment by segment.
-/
namespace UcloudSandboxes
open Python Lib Lib.Url

/-- The base without its last slashes. -/
theorem toList_rstripSlash_text (base : BaseUrl) :
    (rstripSlash base.text).toList =
      base.scheme ++ [':', '/', '/'] ++ base.authority ++ base.stripped := by
  obtain ⟨c, rest, hrest⟩ := List.exists_cons_of_ne_nil
    (show base.authority.reverse ≠ [] by simpa using base.authority_ne)
  have hc : c ≠ '/' := by
    intro h
    refine base.authority_ok.1 (List.mem_reverse.mp ?_)
    rw [hrest, ← h]
    exact List.mem_cons_self
  have hkept : (base.authority.reverse ++ [':', '/', '/'].reverse ++ base.scheme.reverse).dropWhile
      (· = '/') = base.authority.reverse ++ [':', '/', '/'].reverse ++ base.scheme.reverse := by
    rw [hrest]
    simp [hc]
  simp only [rstripSlash, BaseUrl.text, String.toList_ofList, BaseUrl.stripped]
  rw [List.reverse_append, List.reverse_append, List.reverse_append, List.dropWhile_append]
  by_cases hempty : (base.path.reverse.dropWhile (· = '/')).isEmpty = true
  · rw [if_pos hempty, ← List.append_assoc, hkept, List.isEmpty_iff.mp hempty]
    simp
  · rw [if_neg hempty]
    simp

theorem written_iff {base : BaseUrl} {template : List Part} {tail : Text} {path : String} :
    Written base template tail (rstripSlash base.text ++ path) ↔
      path.toList = render (template.map Part.text) ++ tail := by
  simp only [Written, String.toList_append, toList_rstripSlash_text, List.append_assoc,
    List.append_cancel_left_eq]

theorem render_nil : render [] = [] := rfl

theorem render_cons (segment : Text) (rest : List Text) :
    render (segment :: rest) = '/' :: segment ++ render rest := rfl

section Literals

theorem rollouts_toList : "/v1/relay/rollouts/".toList =
    render ["v1".toList, "relay".toList, "rollouts".toList] ++ ['/'] := by simp [render]

theorem sandboxes_toList :
    "/v1/sandboxes/".toList = render ["v1".toList, "sandboxes".toList] ++ ['/'] := by
  simp [render]

theorem batch_toList :
    Client.sandboxGroupPath.toList = render ["v1".toList, "sandboxes:batch".toList] := by
  simp [render, Client.sandboxGroupPath]

theorem session_toList : "/v1/exec/".toList = render ["v1".toList, "exec".toList] ++ ['/'] := by
  simp [render]

theorem capacity_toList : "/v1/capacity/prepare/".toList =
    render ["v1".toList, "capacity".toList, "prepare".toList] ++ ['/'] := by simp [render]

theorem builders_toList : "/v1/builders/prepare/".toList =
    render ["v1".toList, "builders".toList, "prepare".toList] ++ ['/'] := by simp [render]

theorem builds_toList : "/v1/images/builds/".toList =
    render ["v1".toList, "images".toList, "builds".toList] ++ ['/'] := by simp [render]

theorem contexts_toList :
    "/v1/image-contexts/".toList = render ["v1".toList, "image-contexts".toList] ++ ['/'] := by
  simp [render]

/-- What stands behind an identifier. -/
theorem suffixes_toList :
    "/ssh".toList = render ["ssh".toList] ∧ "/exec".toList = render ["exec".toList] ∧
      "/jobs".toList = render ["jobs".toList] ∧ "/signal".toList = render ["signal".toList] ∧
      "/stdin".toList = render ["stdin".toList] ∧
      "/close-stdin".toList = render ["close-stdin".toList] ∧
      "/files?".toList = render ["files".toList] ++ "?".toList ∧
      "/archive?".toList = render ["archive".toList] ++ "?".toList ∧
      "/events?".toList = render ["events".toList] ++ "?".toList ∧
      "/jobs/".toList = render ["jobs".toList] ++ ['/'] ∧
      "/logs/".toList = render ["logs".toList] ++ ['/'] := by
  simp [render]

end Literals

/-- An identifier between the text in front of it and the text behind it. -/
theorem toList_quoted {f s v : String} {a b : List Text} {t : Text}
    (hfront : f.toList = render a ++ ['/']) (hsuffix : s.toList = render b ++ t) :
    (f ++ quoteSegment v ++ s).toList = render (a ++ (quote v).toList :: b) ++ t := by
  simp only [String.toList_append, hfront, hsuffix, quoteSegment, render, List.flatMap_append,
    List.flatMap_cons, List.append_assoc, List.cons_append, List.nil_append]

/-- A text that has no segments in front. -/
theorem toList_rest (s : String) : s.toList = render [] ++ s.toList := by
  rw [render_nil, List.nil_append]

/-- An identifier at the end. -/
theorem toList_quoted_last {f v : String} {a : List Text}
    (hfront : f.toList = render a ++ ['/']) :
    (f ++ quoteSegment v).toList = render (a ++ [(quote v).toList]) ++ "".toList := by
  have hquoted := toList_quoted (s := "") (v := v) hfront (toList_rest "")
  rwa [String.append_empty] at hquoted

/-- A text that is only segments. -/
theorem toList_segments {s : String} {b : List Text} (h : s.toList = render b) :
    s.toList = render b ++ "".toList := by
  rw [h, String.toList_empty, List.append_nil]

theorem append_job (a b c d e : String) : a ++ b ++ c ++ d ++ e = a ++ b ++ (c ++ d ++ e) := by
  simp only [String.append_assoc]

theorem append_logs (a b c d e f g h : String) :
    a ++ b ++ c ++ d ++ e ++ f ++ g ++ h = a ++ b ++ (c ++ d ++ (e ++ f ++ (g ++ h))) := by
  simp only [String.append_assoc]

/-- **The path of a request** is its segments and its query. -/
theorem path_toList (r : RequestPath) :
    r.path.toList = render (r.template.map Part.text) ++ r.query.toList := by
  obtain ⟨hssh, hexec, hjobs, hsignal, hstdin, hclose, hfiles, harchive, hevents, hin, hlogs⟩ :=
    suffixes_toList
  cases r with
  | unregister rolloutId => exact toList_quoted_last rollouts_toList
  | preparedCapacity prepareId => exact toList_quoted_last capacity_toList
  | preparedBuilder prepareId => exact toList_quoted_last builders_toList
  | sandbox sandboxId => exact toList_quoted sandboxes_toList (toList_rest _)
  | ssh sandboxId => exact toList_quoted sandboxes_toList (toList_segments hssh)
  | exec sandboxId waits =>
      refine toList_quoted sandboxes_toList (b := ["exec".toList]) ?_
      rw [String.toList_append, hexec]
      rfl
  | files sandboxId containerPath =>
      refine (congrArg String.toList (String.append_assoc ..)).trans
        (toList_quoted sandboxes_toList (b := ["files".toList]) ?_)
      rw [String.toList_append, hfiles, List.append_assoc, ← String.toList_append]
      rfl
  | archive sandboxId baseDir =>
      refine (congrArg String.toList (String.append_assoc ..)).trans
        (toList_quoted sandboxes_toList (b := ["archive".toList]) ?_)
      rw [String.toList_append, harchive, List.append_assoc, ← String.toList_append]
      rfl
  | jobs sandboxId => exact toList_quoted sandboxes_toList (toList_segments hjobs)
  | job sandboxId jobId waitMs after =>
      have hjob : ("/v1/sandboxes/" ++ quoteSegment sandboxId ++ "/jobs/" ++
          quoteSegment jobId).toList =
            render ((RequestPath.job sandboxId jobId waitMs after).template.map Part.text) := by
        have hlast := toList_quoted_last (v := jobId) hin
        rw [String.toList_empty, List.append_nil] at hlast
        refine (congrArg String.toList (String.append_assoc ..)).trans
          ((toList_quoted sandboxes_toList (toList_segments hlast)).trans ?_)
        rw [String.toList_empty, List.append_nil]
        rfl
      change (jobStatusPath sandboxId jobId waitMs after).toList = _ ++
        (if (jobStatusQuery waitMs after).isEmpty then ""
          else "?" ++ urlencode (jobStatusQuery waitMs after)).toList
      simp only [jobStatusPath]
      split_ifs
      · rw [hjob, String.toList_empty, List.append_nil]
      · rw [String.toList_append, String.toList_append, hjob, String.toList_append,
          List.append_assoc]
  | jobSignal sandboxId jobId =>
      have hlast := toList_quoted (v := jobId) hin (toList_segments hsignal)
      exact (congrArg String.toList (append_job ..)).trans (toList_quoted sandboxes_toList hlast)
  | jobLogs sandboxId jobId stream offset limit waitMs =>
      have hstream : ("/logs/" ++ stream.text ++
          ("?" ++ urlencode (jobLogsQuery offset limit waitMs))).toList =
            render ["logs".toList, stream.text.toList] ++
              ("?" ++ urlencode (jobLogsQuery offset limit waitMs)).toList := by
        rw [String.toList_append, String.toList_append, hlogs]
        simp only [render_cons, render_nil, List.append_assoc, List.cons_append, List.nil_append]
      have hlast := toList_quoted (v := jobId) hin hstream
      exact (congrArg String.toList (append_logs ..)).trans
        (toList_quoted sandboxes_toList hlast)
  | session sessionId => exact toList_quoted session_toList (toList_rest _)
  | stdin sessionId => exact toList_quoted session_toList (toList_segments hstdin)
  | closeStdin sessionId => exact toList_quoted session_toList (toList_segments hclose)
  | signal sessionId => exact toList_quoted session_toList (toList_segments hsignal)
  | events sessionId after limit waitSeconds =>
      refine (congrArg String.toList (String.append_assoc ..)).trans
        (toList_quoted session_toList (b := ["events".toList]) ?_)
      rw [String.toList_append, hevents, List.append_assoc, ← String.toList_append]
      rfl
  | imageBuild buildIdOrImageId => exact toList_quoted_last builds_toList
  | imageContext digest => exact toList_quoted_last contexts_toList
  | group groupId =>
      refine toList_quoted_last (a := ["v1".toList, "sandboxes:batch".toList]) ?_
      rw [String.toList_append, batch_toList]
      rfl

end UcloudSandboxes
