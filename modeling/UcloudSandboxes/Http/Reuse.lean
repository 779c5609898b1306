import UcloudSandboxes.Http.Pool

/-!
# Reusing connections

What holds in every state of a process whose requests share the pool.

## Main results

* `PoolAct.sound`, `PoolAct.owns`, `PoolAct.owns_rest`, `PoolAct.disjoint`: a step keeps every
  connection with one owner, a request or the pool.
* `pool_owned`: so in every state of a run.
* `pooled_connections`: a connection is never shared, what is handed out is fresh, and what the pool
  holds was returned by the answer to a request, consumed, in every run in which no body ends before
  its framing says so and no interim answer is read.
-/
namespace UcloudSandboxes.Http
open Lib

universe u

/-! ## Ownership -/

namespace PoolState

/-- A connection to this origin, closed or not. -/
def Has (s : PoolState) (key : Origin) (id : ℕ) (closed : Bool) : Prop :=
  ∃ conn, s.conns[id]? = some conn ∧ conn.origin = key ∧ conn.closed = closed

/-- What the pool holds is open, filed under its origin, at most once, and within the bound. -/
structure Sound (cfg : ConnectionPool) (s : PoolState) : Prop where
  entry : ∀ key, ∀ e ∈ s.idle key, s.Has key e.1 false
  nodup : ∀ key, ((s.idle key).map Prod.fst).Nodup
  bounded : ∀ key, (s.idle key).length ≤ cfg.maxIdle

/-- The connection is not in the pool. -/
def Unpooled (s : PoolState) (id : ℕ) : Prop := ∀ key, ∀ e ∈ s.idle key, e.1 ≠ id

theorem Has.lt {s : PoolState} {key : Origin} {id : ℕ} {closed : Bool} (h : s.Has key id closed) :
    id < s.conns.length := by
  obtain ⟨conn, hconn, -⟩ := h
  exact (List.getElem?_eq_some_iff.mp hconn).1

theorem Has.congr {s s' : PoolState} {key : Origin} {id : ℕ} {closed : Bool}
    (h : s.Has key id closed) (heq : s'.conns[id]? = s.conns[id]?) : s'.Has key id closed := by
  obtain ⟨conn, hconn, hrest⟩ := h
  exact ⟨conn, heq.trans hconn, hrest⟩

theorem Has.close {s : PoolState} {key : Origin} {id : ℕ} {closed : Bool}
    (h : s.Has key id closed) : (s.close id).Has key id true := by
  obtain ⟨conn, hconn, hkey, -⟩ := h
  exact ⟨{ conn with closed := true }, by simp [PoolState.close, hconn], hkey, rfl⟩

theorem Has.record {s : PoolState} {key : Origin} {id : ℕ} {closed : Bool}
    (h : s.Has key id closed) (r : HttpResponse) : (s.record id r).Has key id closed := by
  obtain ⟨conn, hconn, hrest⟩ := h
  exact ⟨{ conn with last := some r }, by simp [PoolState.record, hconn], hrest⟩

theorem Has.begin {s : PoolState} {key : Origin} {id : ℕ} (h : s.Has key id false)
    (r : HttpResponse) : (s.begin id r).Has key id r.willClose := by
  simp only [PoolState.begin]
  split
  · rename_i hclose
    rw [hclose]
    exact h.close
  · rename_i hkeep
    rw [Bool.not_eq_true] at hkeep
    rw [hkeep]
    exact h

end PoolState

/-- The request owns its connection: it is to the request's origin, it is not in the pool, and only
a response that will close has closed it. -/
def PoolPhase.Owns (s : PoolState) : PoolPhase → Prop
  | .outside | .opening _ | .taking .. | .connecting _ | .holding _ none _ => True
  | .checking q _ id _ | .exchanging q id _ | .giving q id _ => s.Has q.key id false ∧ s.Unpooled id
  | .holding q (some id) r => s.Has q.key id r.willClose ∧ s.Unpooled id

/-- Two requests own different connections. -/
def PoolPhase.Disjoint (a o : PoolPhase) : Prop := ∀ id, a.conn = some id → o.conn ≠ some id

theorem PoolPhase.Owns.unpooled {s : PoolState} {a : PoolPhase} (h : a.Owns s) {id : ℕ}
    (hid : a.conn = some id) : s.Unpooled id ∧ id < s.conns.length := by
  cases a with
  | outside | opening | taking | connecting => cases hid
  | checking | exchanging | giving =>
      cases hid
      exact ⟨h.2, h.1.lt⟩
  | holding q conn r =>
      obtain rfl : conn = some id := hid
      exact ⟨h.2, h.1.lt⟩

/-- What a request owns, it owns in every state with the same connection and no new entry for
it. -/
theorem PoolPhase.Owns.congr {s s' : PoolState} {a : PoolPhase} (h : a.Owns s)
    (hconn : ∀ id, a.conn = some id → s'.conns[id]? = s.conns[id]? ∧ s'.Unpooled id) :
    a.Owns s' := by
  cases a with
  | outside | opening | taking | connecting => trivial
  | checking | exchanging | giving => exact ⟨h.1.congr (hconn _ rfl).1, (hconn _ rfl).2⟩
  | holding q conn r =>
      cases conn with
      | none => trivial
      | some id => exact ⟨h.1.congr (hconn _ rfl).1, (hconn _ rfl).2⟩

section Ownership
variable {cfg : ConnectionPool} {arrives : HttpResponse → Option ℕ → Arrival → Prop}
  {s s' : PoolState} {a a' : PoolPhase}

/-- A step keeps the pool sound. -/
theorem PoolAct.sound (h : PoolAct cfg arrives s a s' a') (hs : s.Sound cfg) (ha : a.Owns s) :
    s'.Sound cfg := by
  refine ⟨fun key e he => ?_, fun key => ?_, fun key => ?_⟩
  · rcases h.mem_idle he with hold | ⟨q, r, rfl, rfl, -⟩
    · have hhas := hs.entry key e hold
      refine hhas.congr (h.conns_eq hhas.lt fun hown => ?_)
      exact (ha.unpooled hown).1 key e hold rfl
    · cases h with
      | tick => exact ha.1
      | give =>
          rcases s.give_cases cfg q.key e.1 with ⟨-, hgive⟩ | hgive
          · rw [hgive]
            exact ha.1
          · rw [hgive] at he
            exact absurd rfl (ha.2 q.key e he)
  · have hnodup := hs.nodup key
    rcases h.idle_cases key with heq | ⟨e, heq⟩ | ⟨q, id, r, rfl, rfl, heq, -⟩
    · rwa [heq]
    · rw [heq, List.map_append] at hnodup
      exact (List.nodup_append.mp hnodup).1
    · rw [heq, List.map_append]
      refine List.Nodup.append hnodup (by simp) fun j hj hnew => ?_
      obtain ⟨e, he, rfl⟩ := List.mem_map.mp hj
      exact ha.2 q.key e he (by simpa using hnew)
  · have hbounded := hs.bounded key
    rcases h.idle_cases key with heq | ⟨e, heq⟩ | ⟨q, id, r, -, -, heq, hroom⟩
    · rwa [heq]
    · rw [heq, List.length_append] at hbounded
      omega
    · rw [heq, List.length_append]
      exact hroom

/-- A connection that is taken off the pool is not in it any more. -/
theorem PoolState.Sound.unpooled_pop (hs : s.Sound cfg) {key : Origin} {rest : List (ℕ × ℚ)}
    {id : ℕ} {returnedAt : ℚ} (hidle : s.idle key = rest ++ [(id, returnedAt)]) :
    (s.setIdle key rest).Unpooled id := by
  intro key' e he heq
  have hentry : s.Has key id false := hs.entry key (id, returnedAt) (by simp [hidle])
  by_cases hkey : key' = key
  · subst hkey
    have hrest : e ∈ rest := by simpa [PoolState.setIdle] using he
    have hnodup := hs.nodup key'
    rw [hidle, List.map_append] at hnodup
    exact (List.nodup_append.mp hnodup).2.2 e.1 (List.mem_map.mpr ⟨e, hrest, rfl⟩) id (by simp) heq
  · have hold : e ∈ s.idle key' := by simpa [PoolState.setIdle, hkey] using he
    obtain ⟨conn, hconn, horigin, -⟩ := hs.entry key' e hold
    obtain ⟨conn', hconn', horigin', -⟩ := hentry
    rw [heq, hconn'] at hconn
    cases hconn
    exact hkey (horigin.symm.trans horigin')

/-- A step keeps what the request owns. -/
theorem PoolAct.owns (h : PoolAct cfg arrives s a s' a') (hs : s.Sound cfg) (ha : a.Owns s) :
    a'.Owns s' := by
  cases h with
  | tick => exact ha.congr fun id hid => ⟨rfl, (ha.unpooled hid).1⟩
  | call | readClock | empty | unconnected | failed | give | letGo => trivial
  | retire => trivial
  | lost q id reused =>
      simp only [afterLost]
      split <;> trivial
  | pop q now rest id returnedAt hidle =>
      have hentry : s.Has q.key id false := hs.entry q.key (id, returnedAt) (by simp [hidle])
      exact ⟨hentry, hs.unpooled_pop hidle⟩
  | handOut => exact ha
  | connect q refused =>
      cases refused with
      | true => trivial
      | false =>
          refine ⟨⟨{ origin := q.key, closed := false }, by simp [PoolState.connect], rfl, rfl⟩, ?_⟩
          intro key e he heq
          have hlt := (hs.entry key e he).lt
          omega
  | answered q id reused status framing checkClose =>
      exact ⟨(show (s.use id).Has q.key id false from ha.1).begin _, by
        simpa [PoolState.Unpooled] using ha.2⟩
  | read q conn r amt arrival =>
      cases conn with
      | none => trivial
      | some id =>
          have howned : (PoolPhase.holding q (some id) (r.read amt arrival)).Owns s := by
            simpa [PoolPhase.Owns] using ha
          split <;> exact howned
  | closed q conn r =>
      rcases closeResponse_cases s q conn r with ⟨-, h⟩ | ⟨id, rfl, -, hkeep, h⟩ | ⟨id, -, h⟩
      · rw [h]
        trivial
      · rw [h]
        have hhas := ha.1.record r
        rw [hkeep] at hhas
        exact ⟨hhas, by simpa [PoolState.Unpooled] using ha.2⟩
      · rw [h]
        trivial

/-- A step leaves other requests what they own. -/
theorem PoolAct.owns_rest (h : PoolAct cfg arrives s a s' a') {o : PoolPhase} (hao : a.Disjoint o)
    (ho : o.Owns s) : o.Owns s' := by
  refine ho.congr fun id hid => ⟨h.conns_eq (ho.unpooled hid).2 (fun ha => hao id ha hid), ?_⟩
  intro key e he heq
  rcases h.mem_idle he with hold | ⟨q, r, rfl, -⟩
  · exact (ho.unpooled hid).1 key e hold heq
  · exact hao id (congrArg some heq) hid

/-- A step gives the request no connection that another one owns. -/
theorem PoolAct.disjoint (h : PoolAct cfg arrives s a s' a') {o : PoolPhase} (hao : a.Disjoint o)
    (ho : o.Owns s) : a'.Disjoint o := by
  intro id hid hother
  rcases h.conn_cases hid with hold | ⟨key, returnedAt, hidle⟩ | ⟨hnew, -⟩
  · exact hao id hold hother
  · exact (ho.unpooled hother).1 key _ hidle rfl
  · have hlt := (ho.unpooled hother).2
    omega

end Ownership

/-! ## What the pool holds has been served -/

namespace PoolState

/-- The last response from the connection answers the request, was read to its end and keeps the
connection alive. -/
def Served (s : PoolState) (id : ℕ) : Prop :=
  ∃ conn r, s.conns[id]? = some conn ∧ conn.last = some r ∧ r.Consumed ∧ r.willClose = false

/-- What the pool holds was served. -/
def Clean (s : PoolState) : Prop := ∀ key, ∀ e ∈ s.idle key, s.Served e.1

theorem Served.congr {s s' : PoolState} {id : ℕ} (h : s.Served id)
    (heq : s'.conns[id]? = s.conns[id]?) : s'.Served id := by
  obtain ⟨conn, r, hconn, hrest⟩ := h
  exact ⟨conn, r, heq.trans hconn, hrest⟩

theorem served_record {s : PoolState} {key : Origin} {id : ℕ} {closed : Bool}
    (h : s.Has key id closed) {r : HttpResponse} (hr : r.Consumed) (hkeep : r.willClose = false) :
    (s.record id r).Served id := by
  obtain ⟨conn, hconn, -⟩ := h
  exact ⟨{ conn with last := some r }, r, by simp [PoolState.record, hconn], rfl, hr, hkeep⟩

end PoolState

/-- A response that is closed and keeps its connection alive was read to its end. -/
def PoolPhase.Finished (s : PoolState) : PoolPhase → Prop
  | .holding _ (some _) r => r.isOpen = false → r.willClose = false → r.Consumed
  | .giving _ id _ => s.Served id
  | _ => True

/-- An answer that its connection is to outlive is that to the request, and its body does not end
early. -/
def promptly (r : HttpResponse) (amt : Option ℕ) (arrival : Arrival) : Prop :=
  r.isOpen = true → r.willClose = false → r.Prompt amt arrival

section Served
variable {cfg : ConnectionPool} {s s' : PoolState} {a a' : PoolPhase}

theorem PoolAct.clean (h : PoolAct cfg promptly s a s' a') (hs : s.Sound cfg) (ha : a.Owns s)
    (hclean : s.Clean) (hfinished : a.Finished s) : s'.Clean := by
  intro key e he
  rcases h.mem_idle he with hold | ⟨q, r, rfl, rfl, -⟩
  · refine (hclean key e hold).congr (h.conns_eq (hs.entry key e hold).lt fun hown => ?_)
    exact (ha.unpooled hown).1 key e hold rfl
  · cases h with
    | tick => exact hfinished
    | give =>
        rcases s.give_cases cfg q.key e.1 with ⟨-, hgive⟩ | hgive
        · rw [hgive]
          exact hfinished
        · rw [hgive] at he
          exact absurd rfl (ha.2 q.key e he)

theorem PoolAct.finished (h : PoolAct cfg promptly s a s' a') (ha : a.Owns s)
    (hfinished : a.Finished s) : a'.Finished s' := by
  cases h with
  | tick => exact hfinished
  | lost q id reused =>
      simp only [afterLost]
      split <;> trivial
  | connect q refused => cases refused <;> trivial
  | answered q id reused status framing checkClose =>
      intro hopen
      cases hopen
  | read q conn r amt arrival harrives =>
      cases conn with
      | none => trivial
      | some id =>
          intro hclosed hkeep
          rw [HttpResponse.willClose_read] at hkeep
          exact HttpResponse.consumed_read (fun hopen => harrives hopen hkeep)
            (fun hshut => hfinished hshut hkeep) hclosed
  | closed q conn r =>
      rcases closeResponse_cases s q conn r with ⟨-, h⟩ | ⟨id, rfl, hclosed, hkeep, h⟩ | ⟨id, -, h⟩
      · rw [h]
        trivial
      · rw [h]
        exact PoolState.served_record ha.1 (hfinished hclosed hkeep) hkeep
      · rw [h]
        trivial
  | _ => trivial

theorem PoolAct.finished_rest (h : PoolAct cfg promptly s a s' a') {o : PoolPhase}
    (hao : a.Disjoint o) (ho : o.Owns s) (hfinished : o.Finished s) : o.Finished s' := by
  cases o with
  | giving q id r =>
      exact PoolState.Served.congr hfinished
        (h.conns_eq (ho.unpooled rfl).2 fun ha => hao id ha rfl)
  | holding q conn r =>
      cases conn with
      | none => trivial
      | some id => exact hfinished
  | _ => trivial

end Served

/-! ## Runs -/

section Runs
variable {ι : Type u}

/-- The steps of any request, whatever the streams bring. -/
def poolAct (cfg : ConnectionPool) : Crew.Local ι PoolState PoolPhase :=
  fun _ s a s' a' => PoolAct cfg (fun _ _ _ => True) s a s' a'

/-- Those in which no body ends early and no interim answer is taken for the one to a request. -/
def promptAct (cfg : ConnectionPool) : Crew.Local ι PoolState PoolPhase :=
  fun _ s a s' a' => PoolAct cfg promptly s a s' a'

/-- A process before its first request. -/
def poolStart (clock : ℚ) : Crew ι PoolState PoolPhase where
  store := { clock, idle := fun _ => [], conns := [], used := [] }
  agent _ := .outside

theorem sound_poolStart (cfg : ConnectionPool) (clock : ℚ) :
    (poolStart (ι := ι) clock).store.Sound cfg where
  entry _ _ he := by cases he
  nodup _ := List.nodup_nil
  bounded _ := Nat.zero_le _

/-- A connection has one owner, a request or its place in the pool under the origin it was opened
for, where it is open. -/
structure Exclusive (cfg : ConnectionPool) (c : Crew ι PoolState PoolPhase) : Prop where
  owner : ∀ j k id, j ≠ k → (c.agent j).conn = some id → (c.agent k).conn ≠ some id
  unpooled : ∀ k id, (c.agent k).conn = some id → ∀ key, ∀ e ∈ c.store.idle key, e.1 ≠ id
  once : ∀ key, ((c.store.idle key).map Prod.fst).Nodup
  filed : ∀ key, ∀ e ∈ c.store.idle key, c.store.Has key e.1 false
  bounded : ∀ key, (c.store.idle key).length ≤ cfg.maxIdle

/-- A connection that `take` hands out has not been closed, and was returned less than
`idle_seconds` before `take` read the clock. -/
def HandsOutFresh (cfg : ConnectionPool) (c : Crew ι PoolState PoolPhase) : Prop :=
  ∀ k q now id returnedAt s',
    c.agent k = .checking q now id returnedAt →
    poolAct cfg k c.store (c.agent k) s' (.exchanging q id true) →
    now - returnedAt < cfg.idleSeconds ∧ s'.Has q.key id false

theorem exclusive_of_owned {cfg : ConnectionPool} {c : Crew ι PoolState PoolPhase}
    (hsound : c.store.Sound cfg) (howns : ∀ k, (c.agent k).Owns c.store)
    (hapart : Crew.Apart PoolPhase.Disjoint c) : Exclusive cfg c where
  owner j k _ hjk hj := hapart j k hjk _ hj
  unpooled k _ hid := ((howns k).unpooled hid).1
  once := hsound.nodup
  filed := hsound.entry
  bounded := hsound.bounded

theorem handsOutFresh_of_owns {cfg : ConnectionPool} {c : Crew ι PoolState PoolPhase}
    (howns : ∀ k, (c.agent k).Owns c.store) : HandsOutFresh cfg c := by
  intro k q now id returnedAt s' hk hact
  have hhas := howns k
  rw [hk] at hact hhas
  generalize hs : c.store = s at hact hhas
  cases hact with
  | handOut _ _ _ _ readable hfresh => exact ⟨hfresh, hhas.1⟩

variable [DecidableEq ι]

/-- Every run keeps the pool sound and the owners apart. -/
theorem pool_owned {cfg : ConnectionPool} {arrives : HttpResponse → Option ℕ → Arrival → Prop}
    {clock : ℚ} {c : Crew ι PoolState PoolPhase}
    (h : Crew.Reachable (fun _ s a s' a' => PoolAct cfg arrives s a s' a') (poolStart clock) c) :
    Crew.Holds (fun _ s a => s.Sound cfg ∧ a.Owns s) c ∧ Crew.Apart PoolPhase.Disjoint c := by
  have hseparated : Crew.Separated
      (fun (_ : ι) s a s' a' => PoolAct cfg arrives s a s' a')
      (fun _ s a => s.Sound cfg ∧ a.Owns s) PoolPhase.Disjoint := by
    constructor
    case symm => exact fun a o h id ho ha => h id ha ho
    case own => exact fun _ _ _ _ _ hI h => ⟨h.sound hI.1 hI.2, h.owns hI.1 hI.2⟩
    case rest =>
      exact fun _ _ _ _ _ _ _ _ hao hI ho h => ⟨h.sound hI.1 hI.2, h.owns_rest hao ho.2⟩
    case apart => exact fun _ _ _ _ _ _ _ _ hao _ ho h => h.disjoint hao ho.2
  refine hseparated.reachable (fun _ => ⟨sound_poolStart cfg clock, ?_⟩) (fun j k _ id hid => ?_) h
  · exact True.intro
  · cases hid

/-- Such a run keeps the pool clean. -/
theorem pool_clean {cfg : ConnectionPool} {clock : ℚ} {c : Crew ι PoolState PoolPhase}
    (h : Crew.Reachable (promptAct cfg) (poolStart clock) c) :
    Crew.Holds (fun _ s a => (s.Sound cfg ∧ a.Owns s) ∧ s.Clean ∧ a.Finished s) c := by
  have hseparated : Crew.Separated (promptAct cfg : Crew.Local ι PoolState PoolPhase)
      (fun _ s a => (s.Sound cfg ∧ a.Owns s) ∧ s.Clean ∧ a.Finished s) PoolPhase.Disjoint := by
    constructor
    case symm => exact fun a o h id ho ha => h id ha ho
    case own =>
      intro k s a s' a' hI h
      exact ⟨⟨PoolAct.sound h hI.1.1 hI.1.2, PoolAct.owns h hI.1.1 hI.1.2⟩,
        PoolAct.clean h hI.1.1 hI.1.2 hI.2.1 hI.2.2, PoolAct.finished h hI.1.2 hI.2.2⟩
    case rest =>
      intro k j s a s' a' o _ hao hI ho h
      exact ⟨⟨PoolAct.sound h hI.1.1 hI.1.2, PoolAct.owns_rest h hao ho.1.2⟩,
        PoolAct.clean h hI.1.1 hI.1.2 hI.2.1 hI.2.2, PoolAct.finished_rest h hao ho.1.2 ho.2.2⟩
    case apart => exact fun _ _ _ _ _ _ _ _ hao _ ho h => PoolAct.disjoint h hao ho.1.2
  refine (hseparated.reachable (fun _ => ⟨⟨sound_poolStart cfg clock, True.intro⟩, ?_, True.intro⟩)
    (fun j k _ id hid => ?_) h).1
  · intro key e he
    cases he
  · cases hid

/-- In every run, a connection has one owner, is pooled where it belongs, within the bound, and is
handed out fresh; and in every run in which no answer that its connection is to outlive is an
interim one or has a body that ends early, what the pool holds was returned by the answer to the
request, read to its end. -/
theorem pooled_connections (cfg : ConnectionPool) (clock : ℚ) :
    (∀ c : Crew ι PoolState PoolPhase, Crew.Reachable (poolAct cfg) (poolStart clock) c →
      Exclusive cfg c ∧ HandsOutFresh cfg c) ∧
    ∀ c : Crew ι PoolState PoolPhase, Crew.Reachable (promptAct cfg) (poolStart clock) c →
      c.store.Clean := by
  constructor
  · intro c h
    obtain ⟨hholds, hapart⟩ := pool_owned h
    have howns : ∀ k, (c.agent k).Owns c.store := fun k => (hholds k).2
    have hsound : c.store.Sound cfg :=
      h.store (sound_poolStart cfg clock) fun k => (hholds k).1
    exact ⟨exclusive_of_owned hsound howns hapart, handsOutFresh_of_owns howns⟩
  · intro c h
    refine h.store (fun key e he => ?_) fun k => (pool_clean h k).2.1
    cases he

/-! ## Runs of one and of two requests -/

/-- A request of a file. -/
def fileTarget : Target where
  key := ⟨"http", "sandbox.example", 80⟩
  method := "GET"

/-- A response that declares five bytes. -/
def fileResponse : HttpResponse := .begin 200 (.sized 5) false

/-- Two requests at once, each with a connection of its own. The first response is read in two
pieces and closed twice, the second comes in chunks; then the second caller sends another request,
gets its connection back, and there is no body. -/
theorem pooled_connections_reused :
    ∃ c : Crew (Fin 2) PoolState PoolPhase,
      Crew.Reachable (promptAct pool) (poolStart 0) c ∧
      c.store.idle fileTarget.key = [(0, 0), (1, 0)] ∧ c.store.used = [0, 1, 0, 0, 1, 1, 1, 1] ∧
      c.store.Clean := by
  have hstart : Crew.Reachable (promptAct pool) (poolStart 0) (poolStart (ι := Fin 2) 0) := .start
  have hfirst := hstart.solo 0 <|
    .head (.call _ fileTarget) <| .head (.readClock _ _) <| .head (.empty _ _ _ rfl) <|
    .head (.connect _ _ false) <| .head (.answered _ _ _ _ 200 (.sized 5) false (by decide)) <|
    .refl _ _
  have hsecond := hfirst.solo 1 <|
    .head (.call _ fileTarget) <| .head (.readClock _ _) <| .head (.empty _ _ _ rfl) <|
    .head (.connect _ _ false) <| .head (.answered _ _ _ _ 404 (.chunked false) false (by decide)) <|
    .refl _ _
  have hreturned := hsecond.solo 0 <|
    .head (.read _ _ _ _ (some 3) (.bytes 3) fun _ _ => ⟨rfl, .inr (.inr (by decide))⟩) <|
    .head (.read _ _ _ _ (some 101) (.bytes 2) fun _ _ => ⟨rfl, .inr (.inr (by decide))⟩) <|
    .head (.closed _ _ _ _) <| .head (.give _ _ _ _) <| .head (.closed _ _ _ _) <| .refl _ _
  have hboth := hreturned.solo 1 <|
    .head (.read _ _ _ _ (some 101) (.bytes 7) fun _ _ => trivial) <|
    .head (.read _ _ _ _ (some 101) .lastChunk fun _ _ => rfl) <|
    .head (.closed _ _ _ _) <| .head (.give _ _ _ _) <| .head (.letGo _ _ _) <| .refl _ _
  have hagain := hboth.solo 1 <|
    .head (.call _ fileTarget) <| .head (.readClock _ _) <|
    .head (.pop _ _ _ [(0, 0)] 1 0 rfl) <|
    .head (.handOut _ _ _ _ _ false (by decide +kernel) rfl) <|
    .head (.answered _ _ _ _ 304 (.untilClose false) false (by decide)) <|
    .head (.read _ _ _ _ none (.bytes 0) fun _ _ => ⟨rfl, Nat.le_refl 0⟩) <|
    .head (.closed _ _ _ _) <| .head (.give _ _ _ _) <| .refl _ _
  exact ⟨_, hagain, rfl, rfl, (pooled_connections pool 0).2 _ hagain⟩

/-- The first request of a process has the response. -/
def fileAnswered : Crew Unit PoolState PoolPhase :=
  (poolStart 0).put ()
    (((poolStart (ι := Unit) 0).store.connect fileTarget.key false).use 0)
    (.holding fileTarget (some 0) fileResponse)

theorem reachable_fileAnswered :
    Crew.Reachable (poolAct pool) (poolStart 0) fileAnswered := by
  have hstart : Crew.Reachable (poolAct pool) (poolStart 0) (poolStart (ι := Unit) 0) := .start
  exact hstart.solo () <|
    .head (.call _ fileTarget) <| .head (.readClock _ _) <| .head (.empty _ _ _ rfl) <|
    .head (.connect _ _ false) <| .head (.answered _ _ _ _ 200 (.sized 5) false (by decide)) <|
    .refl _ _

/-- A process that has just returned its connection is given it for its next request. -/
theorem asks_again {c : Crew Unit PoolState PoolPhase} (hagent : c.agent () = .outside)
    (hidle : c.store.idle fileTarget.key = [(0, c.store.clock)])
    (hopen : c.store.dropped 0 false = false) :
    Crew.Reachable (poolAct pool) c
      (c.put () (c.store.setIdle fileTarget.key []) (.exchanging fileTarget 0 true)) := by
  have hstart : Crew.Reachable (poolAct pool) c c := .start
  have hfresh : c.store.clock - c.store.clock < pool.idleSeconds := by
    rw [sub_self]
    decide +kernel
  refine hstart.solo () ?_
  rw [hagent]
  exact .head (.call _ fileTarget) <| .head (.readClock _ _) <|
    .head (.pop _ _ _ [] 0 c.store.clock hidle) <| .head (.handOut _ _ _ _ _ false hfresh hopen) <|
    .refl _ _

/-- The pool holds a connection whose last response was `r`, unconsumed, and gives it to the next
request. -/
def HandsOutUnserved (c : Crew Unit PoolState PoolPhase) : Prop :=
  ¬ c.store.Clean ∧ ∃ c', Crew.Reachable (poolAct pool) c c' ∧
    c'.agent () = .exchanging fileTarget 0 true

theorem handsOutUnserved {c : Crew Unit PoolState PoolPhase} {r : HttpResponse}
    (hagent : c.agent () = .outside) (hidle : c.store.idle fileTarget.key = [(0, c.store.clock)])
    (hconns : c.store.conns = [{ origin := fileTarget.key, closed := false, last := some r }])
    (hr : ¬ r.Consumed) : HandsOutUnserved c := by
  refine ⟨fun h => ?_, _, asks_again hagent hidle ?_, Crew.agent_put_self _ _ _ _⟩
  · obtain ⟨conn, r', hconn, hlast, hconsumed, -⟩ := h fileTarget.key (0, c.store.clock) (by
      rw [hidle]
      exact List.mem_singleton_self _)
    rw [hconns] at hconn
    obtain rfl := Option.some.inj hconn
    obtain rfl := Option.some.inj hlast
    exact hr hconsumed
  · rw [PoolState.dropped, hconns]
    rfl

/-- The peer closes before any of the five bytes arrives; or it sends a 103 before its answer. -/
theorem pool_unserved :
    (∃ c : Crew Unit PoolState PoolPhase, Crew.Reachable (poolAct pool) (poolStart 0) c ∧
      (∃ conn ∈ c.store.conns, conn.last = some (fileResponse.read (some 101) (.bytes 0))) ∧
      HandsOutUnserved c) ∧
    ∃ c : Crew Unit PoolState PoolPhase, Crew.Reachable (poolAct pool) (poolStart 0) c ∧
      (∃ conn ∈ c.store.conns, ∃ r, conn.last = some r ∧ r.status = 103) ∧
      HandsOutUnserved c := by
  constructor
  · have hrun := reachable_fileAnswered.solo () <|
      .head (.read _ _ _ _ (some 101) (.bytes 0) trivial) <|
      .head (.closed _ _ _ _) <| .head (.give _ _ _ _) <| .head (.letGo _ _ _) <| .refl _ _
    refine ⟨_, hrun, ⟨_, List.mem_singleton_self _, rfl⟩, handsOutUnserved rfl rfl rfl ?_⟩
    rintro ⟨-, hlength⟩
    cases (show (5 : ℕ) = 0 from hlength)
  · have hstart : Crew.Reachable (poolAct pool) (poolStart 0) (poolStart (ι := Unit) 0) := .start
    have hrun := hstart.solo () <|
      .head (.call _ fileTarget) <| .head (.readClock _ _) <| .head (.empty _ _ _ rfl) <|
      .head (.connect _ _ false) <|
      .head (.answered _ _ _ _ 103 (.untilClose false) false (by decide)) <|
      .head (.read _ _ _ _ (some 101) (.bytes 0) trivial) <|
      .head (.closed _ _ _ _) <| .head (.give _ _ _ _) <| .head (.letGo _ _ _) <| .refl _ _
    refine ⟨_, hrun, ⟨_, List.mem_singleton_self _, _, rfl, rfl⟩, handsOutUnserved rfl rfl rfl ?_⟩
    rintro ⟨hinterim, -⟩
    cases hinterim

end Runs

end UcloudSandboxes.Http
