import Mathlib.Algebra.Order.Ring.Rat
import UcloudSandboxes.Http.Reuse

/-!
# The pool across a fork

A fork copies the pool, with its connections, and the thread that forks. From then on the two
processes run beside each other and share no state but the sockets of the connections that were open
at the fork; each numbers the connections it opens later on its own.

`fork_isolated`: no such connection is used by both, if at the fork every idle one had outlived its
time and the forking thread held none.
-/
namespace UcloudSandboxes.Http
open Lib

universe u
variable {ι : Type u} [DecidableEq ι]

/-- The child: of the parent's requests it has those of the forking thread. -/
def forkChild (c : Crew ι PoolState PoolPhase) (mine : ι → Bool) : Crew ι PoolState PoolPhase where
  store := { c.store with used := [] }
  agent k := if mine k then c.agent k else .outside

/-- A parent and its child. -/
structure Processes (ι : Type u) where
  parent : Crew ι PoolState PoolPhase
  child : Crew ι PoolState PoolPhase

/-- What some interleaving of the two leads to. -/
inductive Processes.Reachable (cfg : ConnectionPool) (w₀ : Processes ι) : Processes ι → Prop
  | start : Reachable cfg w₀ w₀
  | parent {w : Processes ι} {c : Crew ι PoolState PoolPhase} : Reachable cfg w₀ w →
      Crew.Step (poolAct cfg) w.parent c → Reachable cfg w₀ { w with parent := c }
  | child {w : Processes ι} {c : Crew ι PoolState PoolPhase} : Reachable cfg w₀ w →
      Crew.Step (poolAct cfg) w.child c → Reachable cfg w₀ { w with child := c }

/-- A process may run while the other one waits. -/
theorem Processes.Reachable.parent_run {cfg : ConnectionPool} {w₀ w : Processes ι}
    (h : Processes.Reachable cfg w₀ w) {c : Crew ι PoolState PoolPhase}
    (hrun : Crew.Reachable (poolAct cfg) w.parent c) :
    Processes.Reachable cfg w₀ { w with parent := c } := by
  induction hrun with
  | start => exact h
  | @next p _ _ hstep ih => exact .parent (w := { w with parent := p }) ih hstep

theorem Processes.Reachable.child_run {cfg : ConnectionPool} {w₀ w : Processes ι}
    (h : Processes.Reachable cfg w₀ w) {c : Crew ι PoolState PoolPhase}
    (hrun : Crew.Reachable (poolAct cfg) w.child c) :
    Processes.Reachable cfg w₀ { w with child := c } := by
  induction hrun with
  | start => exact h
  | @next p _ _ hstep ih => exact .child (w := { w with child := p }) ih hstep

/-- What the child does, it does on its own. -/
theorem Processes.Reachable.child_alone {cfg : ConnectionPool} {w₀ w : Processes ι}
    (h : Processes.Reachable cfg w₀ w) : Crew.Reachable (poolAct cfg) w₀.child w.child := by
  induction h with
  | start => exact .start
  | parent _ _ ih => exact ih
  | child _ hstep ih => exact .next ih hstep

/-- At the fork every idle connection has outlived its time, also by the clock reading of a `take`
that the forking thread is in, and the forking thread owns no connection. -/
structure ForkSafe (cfg : ConnectionPool) (c : Crew ι PoolState PoolPhase) (mine : ι → Bool) :
    Prop where
  idle : ∀ key, ∀ e ∈ c.store.idle key, cfg.idleSeconds ≤ c.store.clock - e.2
  taking : ∀ k q now, mine k = true → c.agent k = .taking q now →
    ∀ e ∈ c.store.idle q.key, cfg.idleSeconds ≤ now - e.2
  held : ∀ k, mine k = true → (c.agent k).conn = none

section Child
variable {cfg : ConnectionPool} {opened : ℕ} {forkedAt : ℚ} {s s' : PoolState} {a a' : PoolPhase}

/-- What the child's pool has of the parent's is never handed out, where `opened` connections were
open when it forked at `forkedAt`. -/
structure Inherited (cfg : ConnectionPool) (opened : ℕ) (forkedAt : ℚ) (s : PoolState) : Prop where
  length : opened ≤ s.conns.length
  clock : forkedAt ≤ s.clock
  used : ∀ id ∈ s.used, opened ≤ id
  idle : ∀ key, ∀ e ∈ s.idle key, opened ≤ e.1 ∨ cfg.idleSeconds ≤ forkedAt - e.2

/-- No inherited connection is fresh by this clock reading. -/
def PoolState.StaleAt (cfg : ConnectionPool) (opened : ℕ) (s : PoolState) (key : Origin) (now : ℚ) :
    Prop :=
  ∀ e ∈ s.idle key, opened ≤ e.1 ∨ cfg.idleSeconds ≤ now - e.2

/-- The connection of a request was opened after the fork, unless `take` is about to close it. -/
def PoolPhase.Private (cfg : ConnectionPool) (opened : ℕ) (s : PoolState) : PoolPhase → Prop
  | .outside | .opening _ | .connecting _ => True
  | .taking q now => s.StaleAt cfg opened q.key now
  | .checking q now id returnedAt =>
      (opened ≤ id ∨ cfg.idleSeconds ≤ now - returnedAt) ∧ s.StaleAt cfg opened q.key now
  | .exchanging _ id _ | .holding _ (some id) _ | .giving _ id _ => opened ≤ id
  | .holding _ none _ => True

/-- A step adds no inherited connection to the pool. -/
theorem PoolAct.staleAt {arrives : HttpResponse → Option ℕ → Arrival → Prop}
    (h : PoolAct cfg arrives s a s' a') (ha : a.Private cfg opened s) {key : Origin} {now : ℚ}
    (hstale : s.StaleAt cfg opened key now) : s'.StaleAt cfg opened key now := by
  intro e he
  rcases h.mem_idle he with hold | ⟨q, r, rfl, -⟩
  · exact hstale e hold
  · exact .inl ha

theorem PoolAct.inherited {arrives : HttpResponse → Option ℕ → Arrival → Prop}
    (h : PoolAct cfg arrives s a s' a') (hs : Inherited cfg opened forkedAt s)
    (ha : a.Private cfg opened s) : Inherited cfg opened forkedAt s' where
  length := hs.length.trans h.length_le
  clock := hs.clock.trans h.clock_le
  used := by
    intro id hid
    rcases h.mem_used hid with hold | ⟨q, reused, rfl⟩ | ⟨q, r, rfl⟩
    · exact hs.used id hold
    · exact ha
    · exact ha
  idle := by
    intro key e he
    rcases h.mem_idle he with hold | ⟨q, r, rfl, -⟩
    · exact hs.idle key e hold
    · exact .inl ha

theorem PoolAct.private {arrives : HttpResponse → Option ℕ → Arrival → Prop}
    (h : PoolAct cfg arrives s a s' a') (hs : Inherited cfg opened forkedAt s)
    (ha : a.Private cfg opened s) : a'.Private cfg opened s' := by
  cases h with
  | tick => cases a <;> exact ha
  | readClock q =>
      intro e he
      rcases hs.idle q.key e he with hnew | hstale
      · exact .inl hnew
      · exact .inr (hstale.trans (sub_le_sub_right hs.clock _))
  | pop q now rest id returnedAt hidle =>
      have hold : ∀ e ∈ (s.setIdle q.key rest).idle q.key, e ∈ s.idle q.key := by
        intro e he
        rw [hidle]
        exact List.mem_append_left _ (by simpa [PoolState.setIdle] using he)
      exact ⟨ha (id, returnedAt) (by simp [hidle]), fun e he => ha e (hold e he)⟩
  | handOut q now id returnedAt readable hfresh =>
      rcases ha.1 with hnew | hstale
      · exact hnew
      · exact absurd hfresh (not_lt.mpr hstale)
  | retire => exact ha.2
  | connect q refused =>
      cases refused with
      | true => trivial
      | false => exact hs.length
  | lost q id reused =>
      simp only [afterLost]
      split <;> trivial
  | answered => exact ha
  | read q conn r =>
      cases conn with
      | none => trivial
      | some id => exact ha
  | closed q conn r =>
      rcases closeResponse_cases s q conn r with ⟨-, h⟩ | ⟨id, rfl, -, -, h⟩ | ⟨id, -, h⟩
      · rw [h]
        trivial
      · rw [h]
        exact ha
      · rw [h]
        trivial
  | _ => trivial

/-- Other requests stay private. -/
theorem PoolAct.private_rest {arrives : HttpResponse → Option ℕ → Arrival → Prop}
    (h : PoolAct cfg arrives s a s' a') (ha : a.Private cfg opened s) {o : PoolPhase}
    (ho : o.Private cfg opened s) : o.Private cfg opened s' := by
  cases o with
  | taking q now => exact h.staleAt ha ho
  | checking q now id returnedAt => exact ⟨ho.1, h.staleAt ha ho.2⟩
  | holding q conn r => cases conn <;> exact ho
  | _ => exact ho

end Child

/-- What the child keeps. -/
theorem child_private {cfg : ConnectionPool} {c d : Crew ι PoolState PoolPhase} {mine : ι → Bool}
    (hfork : ForkSafe cfg c mine) (h : Crew.Reachable (poolAct cfg) (forkChild c mine) d) :
    Inherited cfg c.store.conns.length c.store.clock d.store := by
  have hguarded : Crew.Guarded (poolAct cfg : Crew.Local ι PoolState PoolPhase)
      (fun _ s a => Inherited cfg c.store.conns.length c.store.clock s ∧
        a.Private cfg c.store.conns.length s) := by
    constructor
    case own =>
      exact fun _ _ _ _ _ hI h => ⟨PoolAct.inherited h hI.1 hI.2, PoolAct.private h hI.1 hI.2⟩
    case rest =>
      exact fun _ _ _ _ _ _ _ _ hI ho h =>
        ⟨PoolAct.inherited h hI.1 hI.2, PoolAct.private_rest h hI.2 ho.2⟩
  have hstore : Inherited cfg c.store.conns.length c.store.clock (forkChild c mine).store := by
    refine ⟨le_rfl, le_rfl, fun id hid => ?_, fun key e he => .inr (hfork.idle key e he)⟩
    cases hid
  refine h.store hstore fun k => (hguarded.reachable (fun k => ⟨hstore, ?_⟩) h k).1
  show PoolPhase.Private cfg c.store.conns.length (forkChild c mine).store
    (if mine k then c.agent k else .outside)
  split
  · rename_i hmine
    cases hk : c.agent k with
    | taking q now => exact fun e he => .inr (hfork.taking k q now hmine hk e he)
    | outside | opening | connecting => trivial
    | checking | exchanging | giving =>
        have hheld := hfork.held k hmine
        rw [hk] at hheld
        cases hheld
    | holding q conn r =>
        have hheld := hfork.held k hmine
        rw [hk] at hheld
        obtain rfl : conn = none := hheld
        trivial
  · trivial

/-- No connection that was open at the fork is used by both processes, whatever they do, if the fork
was safe. -/
theorem fork_isolated {cfg : ConnectionPool} {c : Crew ι PoolState PoolPhase}
    {mine : ι → Bool} (hfork : ForkSafe cfg c mine) {w : Processes ι}
    (hw : Processes.Reachable cfg ⟨c, forkChild c mine⟩ w) :
    ∀ id < c.store.conns.length, ¬ (id ∈ w.parent.store.used ∧ id ∈ w.child.store.used) := by
  intro id hid hshared
  have hused := (child_private hfork hw.child_alone).used id hshared.2
  omega

/-- A process that returned its only connection, after five more seconds. -/
def fileExpired : PoolState where
  clock := 5
  idle := Function.update (fun _ => []) fileTarget.key [(0, 0)]
  conns := [{
    origin := fileTarget.key
    closed := false
    last := some (fileResponse.read (some 101) (.bytes 5)) }]
  used := [0, 0]

theorem reachable_fileExpired :
    Crew.Reachable (poolAct pool) (poolStart (ι := Unit) 0)
      ((poolStart 0).put () fileExpired .outside) :=
  reachable_fileAnswered.solo () <|
    .head (.read _ _ _ _ (some 101) (.bytes 5) trivial) <|
    .head (.closed _ _ _ _) <| .head (.give _ _ _ _) <| .head (.letGo _ _ _) <|
    .head (.tick _ _ 5 (by decide +kernel)) <| .refl _ _

/-- A child of that process opens a connection of its own. -/
theorem fork_isolated_expired :
    ∃ w : Processes Unit,
      Crew.Reachable (poolAct pool) (poolStart (ι := Unit) 0)
        ((poolStart 0).put () fileExpired .outside) ∧
      Processes.Reachable pool
        ⟨(poolStart 0).put () fileExpired .outside,
          forkChild ((poolStart 0).put () fileExpired .outside) fun _ => false⟩ w ∧
      w.child.store.used = [1] ∧
      ∀ id < fileExpired.conns.length, ¬ (id ∈ w.parent.store.used ∧ id ∈ w.child.store.used) := by
  have hsafe : ForkSafe pool ((poolStart (ι := Unit) 0).put () fileExpired .outside)
      fun _ => false := by
    refine ⟨fun key e he => ?_, fun k q now h => ?_, fun k h => ?_⟩
    · by_cases hkey : key = fileTarget.key
      · subst hkey
        obtain rfl : e = (0, 0) := by simpa [fileExpired] using he
        decide +kernel
      · simp [fileExpired, hkey] at he
    · cases h
    · cases h
  set c : Crew Unit PoolState PoolPhase := (poolStart 0).put () fileExpired .outside with hc
  have hstart : Crew.Reachable (poolAct pool) (forkChild c fun _ => false)
      (forkChild c fun _ => false) := .start
  have hrun := hstart.solo () <|
      .head (.call _ fileTarget) <| .head (.readClock _ _) <| .head (.pop _ _ _ [] 0 0 rfl) <|
      .head (.retire _ _ _ _ _ false (by decide +kernel)) <| .head (.empty _ _ _ rfl) <|
      .head (.connect _ _ false) <| .head (.answered _ _ _ _ 200 (.sized 5) false (by decide)) <|
      .refl _ _
  have hfork : Processes.Reachable pool ⟨c, forkChild c fun _ => false⟩
      ⟨c, forkChild c fun _ => false⟩ := .start
  exact ⟨_, reachable_fileExpired, hfork.child_run hrun, rfl,
    fork_isolated hsafe (hfork.child_run hrun)⟩

/-- A process that has just returned its connection asks for the file again. -/
theorem answered_again {c : Crew Unit PoolState PoolPhase} (hagent : c.agent () = .outside)
    (hidle : c.store.idle fileTarget.key = [(0, c.store.clock)])
    (hopen : c.store.dropped 0 false = false) :
    ∃ c', Crew.Reachable (poolAct pool) c c' ∧
      c'.agent () = .holding fileTarget (some 0) fileResponse := by
  have hasked := asks_again hagent hidle hopen
  have hanswered : Crew.Solo (poolAct pool ()) (c.store.setIdle fileTarget.key [])
      (.exchanging fileTarget 0 true) ((c.store.setIdle fileTarget.key []).use 0)
      (.holding fileTarget (some 0) fileResponse) :=
    .head (.answered _ _ _ _ 200 (.sized 5) false (by decide)) <| .refl _ _
  have hrun := hasked.solo () (by rw [Crew.store_put, Crew.agent_put_self]; exact hanswered)
  exact ⟨_, hrun, Crew.agent_put_self _ _ _ _⟩

/-- After a fork with one idle connection, both processes may read an answer from it. -/
theorem fork_shares :
    ∃ (c : Crew Unit PoolState PoolPhase) (w : Processes Unit),
      Crew.Reachable (poolAct pool) (poolStart 0) c ∧
      Processes.Reachable pool ⟨c, forkChild c fun _ => false⟩ w ∧
      ∃ id < c.store.conns.length, ∃ q r, r.isOpen = true ∧
        w.parent.agent () = .holding q (some id) r ∧
        w.child.agent () = .holding q (some id) r := by
  have hforked := reachable_fileAnswered.solo () <|
    .head (.read _ _ _ _ (some 101) (.bytes 5) trivial) <|
    .head (.closed _ _ _ _) <| .head (.give _ _ _ _) <| .head (.letGo _ _ _) <| .refl _ _
  generalize hc : Crew.put fileAnswered () _ _ = c at hforked
  have hparent := answered_again (c := c) (by rw [← hc]; rfl) (by rw [← hc]; rfl) (by rw [← hc]; rfl)
  have hchild := answered_again (c := forkChild c fun _ => false) rfl (by rw [← hc]; rfl)
    (by rw [← hc]; rfl)
  obtain ⟨parent, hparent, hp⟩ := hparent
  obtain ⟨child, hchild, hd⟩ := hchild
  refine ⟨c, ⟨parent, child⟩, hforked,
    (Processes.Reachable.start.parent_run hparent).child_run hchild,
    0, ?_, fileTarget, fileResponse, rfl, hp, hd⟩
  rw [← hc]
  decide +kernel

end UcloudSandboxes.Http
