import Mathlib.Algebra.Order.BigOperators.Group.List
import Mathlib.Algebra.Order.Group.Nat
import Storefront.Proofs.SyncFailures
import Storefront.Web.Server

/-!
# What the metrics count of syncs

A request for a sync publishes memberships, and is counted with the members it wrote if it is
answered. The sync of one collection publishes nothing unless it is answered. A sync of all
collections goes on after one of them has failed, so that it may publish memberships and fail
nevertheless; their members are not counted.

* `Store.publication`, `Store.publicationsEach`: the memberships that syncs publish
* `Store.replay`: the memberships that publications leave
* `Store.publishes_syncEach`: a run of syncs, by induction on the collections
* `Server.serve`, `Server.Step`: one request for a sync
* `Server.serveEach`, `Server.Accounts`: requests one after the other, and what the metrics say of
  them
* `Server.metrics_account`: the account of any requests
-/

namespace Storefront

/-! ## Publications -/

namespace Store

variable {s : Store} {faults : Faults} {c : Collection}

/-- A publication: a collection, and the ids of its new members. -/
abbrev Publication := Int × List Int

/-- The number of members in publications. -/
def size (publications : List Publication) : Nat := (publications.map fun p => p.2.length).sum

theorem size_append (ps qs : List Publication) : size (ps ++ qs) = size ps + size qs := by
  simp [size]

/-- The memberships that publications leave, one after the other. -/
def replay (m : Memberships) (publications : List Publication) : Memberships :=
  publications.foldl (fun m p => m.replace p.1 (p.2.map Member.ofId)) m

theorem replay_append (m : Memberships) (ps qs : List Publication) :
    replay m (ps ++ qs) = replay (replay m ps) qs := List.foldl_append

/-- What the sync of a collection publishes, if anything. -/
def publication (s : Store) (faults : Faults) (c : Collection) : List Publication :=
  ((s.freshIds? faults c).map fun ids => (c.id, ids)).toList

/-- What syncs of collections publish one after the other. A failure that is not one of syncing ends
the run. -/
def publicationsEach (faults : Int → Faults) (s : Store) : List Collection → List Publication
  | [] => []
  | c :: rest =>
    s.publication (faults c.id) c ++
      match (s.sync (faults c.id) c).2 with
      | .ok _ | .error (.syncFailed _ _) =>
        publicationsEach faults (s.sync (faults c.id) c).1 rest
      | .error _ => []

/-- A sync counts what it writes, or writes nothing and has nothing to count or fails. -/
theorem sync_counts (s : Store) (faults : Faults) (c : Collection) :
    (∃ ids, s.freshIds? faults c = some ids ∧ (s.sync faults c).2 = .ok ids.length) ∨
      s.freshIds? faults c = none ∧
        ((s.sync faults c).2 = .ok 0 ∨ ∃ failure, (s.sync faults c).2 = .error failure) := by
  have hnone (h : ∀ p ids, c.Demands p → s.evaluate faults p = .ok ids → faults.commit ≠ none) :
      s.freshIds? faults c = none := by
    rw [Option.eq_none_iff_forall_ne_some]
    intro ids hids
    obtain ⟨p, hp, hscan, hcommit⟩ := freshIds?_eq_some.1 hids
    exact h p ids hp hscan hcommit
  have hcase := s.sync_cases faults c
  generalize s.sync faults c = result at hcase
  cases hcase with
  | unreadable failure hread =>
    refine .inr ⟨hnone fun p ids hp => ?_, .inr ⟨failure, rfl⟩⟩
    cases hread.symm.trans (demands_iff.2 hp)
  | idle hread =>
    refine .inr ⟨hnone fun p ids hp => ?_, .inl rfl⟩
    cases hread.symm.trans (demands_iff.2 hp)
  | unscanned p failure hread hscan =>
    refine .inr ⟨hnone fun q ids hq hids => ?_, .inr ?_⟩
    · cases demands_unique (demands_iff.1 hread) hq
      cases hscan.symm.trans hids
    · unfold asSyncFailure
      split
      · exact ⟨_, rfl⟩
      · exact ⟨failure, rfl⟩
  | uncommitted p ids op cause hread hscan hcommit =>
    exact .inr ⟨hnone fun _ _ _ _ => hcommit, .inr ⟨_, rfl⟩⟩
  | written p ids hread hscan hcommit =>
    exact .inl ⟨ids, freshIds?_eq_some.2 ⟨p, demands_iff.1 hread, hscan, hcommit⟩, rfl⟩

theorem size_publication {n : Nat} (h : (s.sync faults c).2 = .ok n) :
    size (s.publication faults c) = n := by
  unfold publication size
  rcases s.sync_counts faults c with ⟨ids, hfresh, hsync⟩ | ⟨hfresh, hsync | ⟨failure, hsync⟩⟩
  · cases hsync.symm.trans h
    simp [hfresh]
  · cases hsync.symm.trans h
    simp [hfresh]
  · cases hsync.symm.trans h

theorem publication_of_error {failure : Failure} (h : (s.sync faults c).2 = .error failure) :
    s.publication faults c = [] := by
  unfold publication
  rcases s.sync_counts faults c with ⟨ids, hfresh, hsync⟩ | ⟨hfresh, -⟩
  · cases hsync.symm.trans h
  · simp [hfresh]

theorem replay_publication (s : Store) (faults : Faults) (c : Collection) :
    (s.sync faults c).1.memberships = replay s.memberships (s.publication faults c) := by
  rw [sync_fst, publication]
  cases s.freshIds? faults c <;> rfl

/-- A run of syncs leaves the memberships that it publishes, and counts their members. It does not
fail as a failure to sync. -/
structure Publishes (m : Memberships) (publications : List Publication)
    (result : Store × Except Failure (Nat × List (Int × Failure))) : Prop where
  replayed : result.1.memberships = replay m publications
  counted : ∀ total failed, result.2 = .ok (total, failed) → total = size publications
  not_failed : ∀ failure, result.2 = .error failure → ¬failure.IsOfSync

/-- A run goes on after the sync of its first collection. -/
theorem Publishes.cons {m : Memberships} {first rest : List Publication}
    {result : Store × Except Failure (Nat × List (Int × Failure))}
    (h : Publishes (replay m first) rest result)
    {f : Nat × List (Int × Failure) → Nat × List (Int × Failure)}
    (hf : ∀ r, (f r).1 = size first + r.1) :
    Publishes m (first ++ rest) (result.1, result.2.map f) where
  replayed := by rw [h.replayed, replay_append]
  counted total failed htotal := by
    obtain ⟨⟨count, others⟩, hr, heq⟩ := map_eq_ok.1 htotal
    rw [size_append, ← h.counted count others hr, ← hf (count, others), heq]
  not_failed failure hfailure := by
    apply h.not_failed failure
    cases hr : result.2 with
    | ok r => simp [hr, Except.map] at hfailure
    | error e => simpa [hr, Except.map] using hfailure

/-- What a run of syncs publishes and counts, by induction on the collections. -/
theorem publishes_syncEach (s : Store) (faults : Int → Faults) (cs : List Collection) :
    Publishes s.memberships (publicationsEach faults s cs) (syncEach faults s cs) := by
  induction cs generalizing s with
  | nil =>
    constructor
    · rfl
    · intro total failed h
      cases h
      rfl
    · intro failure h
      cases h
  | cons c cs ih =>
    have hrest := ih (s.sync (faults c.id) c).1
    rw [s.replay_publication (faults c.id) c] at hrest
    rw [publicationsEach, syncEach]
    cases houtcome : (s.sync (faults c.id) c).2 with
    | ok count =>
      rw [show s.sync (faults c.id) c = ((s.sync (faults c.id) c).1, .ok count) from
        Prod.ext rfl houtcome]
      exact hrest.cons fun r => by rw [size_publication houtcome]
    | error failure =>
      rw [show s.sync (faults c.id) c = ((s.sync (faults c.id) c).1, .error failure) from
        Prod.ext rfl houtcome]
      -- a failure to sync is put down and the run goes on; any other one ends it
      cases failure with
      | syncFailed ids cause =>
        exact hrest.cons fun r => by rw [publication_of_error houtcome, size]; simp
      | _ =>
        constructor
        · rw [List.append_nil]
          exact s.replay_publication (faults c.id) c
        · intro total failed h
          cases h
        · rintro failure hfailure ⟨ids, cause, rfl⟩
          cases hfailure

/-- What the sync of all collections publishes. -/
def publicationsAll (s : Store) (faults : Int → Faults) : List Publication :=
  publicationsEach faults s (s.listCollections true)

theorem replay_publicationsAll (s : Store) (faults : Int → Faults) :
    (s.syncAll faults).1.memberships = replay s.memberships (s.publicationsAll faults) := by
  rw [syncAll_fst]
  exact (s.publishes_syncEach faults _).replayed

/-- A sync of all collections that gives a count has counted what it published. -/
theorem size_publicationsAll {faults : Int → Faults} {n : Nat} (h : (s.syncAll faults).2 = .ok n) :
    size (s.publicationsAll faults) = n := by
  have hcounted := (s.publishes_syncEach faults (s.listCollections true)).counted
  unfold syncAll at h
  generalize syncEach faults s (s.listCollections true) = result at hcounted h
  obtain ⟨t, _ | ⟨total, failed⟩⟩ := result
  · cases h
  · dsimp only at h
    cases hlast : failed.getLast? with
    | none =>
      rw [hlast] at h
      cases h
      exact (hcounted n failed rfl).symm
    | some last =>
      rw [hlast] at h
      cases h

end Store

/-! ## One request -/

/-- A request for a sync, with what fails beneath the store while it is served: for all collections,
each under faults of its own, or for the collection with the id in the path. -/
inductive SyncCall where
  | all (faults : Int → Faults)
  | one (faults : Faults) (collection : String)

/-- The request for a sync at an endpoint, if it is one for syncs, where the same fails for each
collection. -/
def SyncCall.ofEndpoint? (faults : Faults) : Endpoint → Option SyncCall
  | .syncAll => some (.all fun _ => faults)
  | .sync collection => some (.one faults collection)
  | _ => none

/-- The outcome is a failure to sync. -/
def Outcome.isSyncFailure : Outcome → Bool
  | .failed (.syncFailed _ _) => true
  | _ => false

/-- The status of an outcome. -/
def Outcome.status (outcome : Outcome) : Int := outcome.answer.1

/-- A request for a sync that was served: how it ended, and what it published. -/
structure Served where
  call : SyncCall
  outcome : Outcome
  published : List Store.Publication

/-- What a request for a sync publishes. -/
def Store.published (store : Store) : SyncCall → List Store.Publication
  | .all faults => store.publicationsAll faults
  | .one faults collection =>
    match Request.pathId "collection_id" collection with
    | .refused _ => []
    | .accepted id =>
      match store.requireCollection (.int id) with
      | .error _ => []
      | .ok c => store.publication faults c

namespace Server

/-- Serves a request for a sync. -/
def serve (s : Server) : SyncCall → Server × Outcome
  | .all faults => s.syncAll faults
  | .one faults collection => s.sync faults collection

/-- The endpoints for syncs serve requests for syncs, with the same faults for each collection. -/
theorem run_of_call {s : Server} {faults : Faults} {endpoint : Endpoint} {call : SyncCall}
    (h : SyncCall.ofEndpoint? faults endpoint = some call) (ms : Number) (r : Request) :
    s.run faults ms r endpoint = s.serve call := by
  cases endpoint <;> cases h <;> rfl

/-- How a request for a sync ends: it is answered and counted with what it published, it fails to
sync and is counted as failed, or it ends in another way and is not counted. -/
inductive Step (m : Metrics) (published : List Store.Publication) : Metrics → Outcome → Prop
  | answered (body : Value) :
    Step m published (m.recordSync (Store.size published)) (.answered body)
  | failed (ids : List Int) (cause : Failure) :
    Step m published m.recordFailedSync (.failed (.syncFailed ids cause))
  | other {outcome : Outcome} (not_answered : outcome.status ≠ 200)
    (not_failed : outcome.isSyncFailure = false) : Step m published m outcome

theorem status_failed (f : Failure) : (Outcome.failed f).status ≠ 200 := by
  cases f <;> simp [Outcome.status, Outcome.answer, Failure.report?]

/-- An answer for a sync counts as its outcome says. -/
theorem step_answerSync (s : Server) (store : Store) {outcome : Except Failure Nat}
    (body : Nat → Value) {published : List Store.Publication}
    (h : ∀ n, outcome = .ok n → Store.size published = n) :
    Step s.metrics published (s.answerSync store outcome body).1.metrics
      (s.answerSync store outcome body).2 := by
  cases outcome with
  | ok n =>
    rw [← h n rfl]
    exact .answered _
  | error f =>
    cases f with
    | syncFailed ids cause => exact .failed ids cause
    | _ => exact .other (status_failed _) rfl

theorem store_answerSync (s : Server) (store : Store) (outcome : Except Failure Nat)
    (body : Nat → Value) : (s.answerSync store outcome body).1.store = some store := by
  unfold answerSync
  dsimp only
  split <;> rfl

/-- Only what fails is not answered. -/
theorem exists_of_status_answerSync {s : Server} {store : Store} {outcome : Except Failure Nat}
    {body : Nat → Value} (h : (s.answerSync store outcome body).2.status ≠ 200) :
    ∃ failure, outcome = .error failure := by
  cases outcome with
  | ok n => exact absurd rfl h
  | error failure => exact ⟨failure, rfl⟩

/-- What is known of a request for a sync that was served. -/
structure Serves (s : Server) (store : Store) (call : SyncCall) (result : Server × Outcome) :
    Prop where
  step : Step s.metrics (store.published call) result.1.metrics result.2
  replayed : ∃ after, result.1.store = some after ∧
    after.memberships = Store.replay store.memberships (store.published call)
  published_by_all : result.2.status ≠ 200 → store.published call ≠ [] → ∃ faults, call = .all faults

theorem serves_syncAll {s : Server} {store : Store} (hstore : s.store = some store)
    (faults : Int → Faults) : s.Serves store (.all faults) (s.syncAll faults) := by
  unfold syncAll withStore
  rw [hstore]
  refine ⟨?_, ?_, fun _ _ => ⟨faults, rfl⟩⟩
  · exact step_answerSync s _ _ fun n => Store.size_publicationsAll
  · exact ⟨_, store_answerSync s _ _ _, store.replay_publicationsAll faults⟩

theorem serves_sync {s : Server} {store : Store} (hstore : s.store = some store) (faults : Faults)
    (collection : String) :
    s.Serves store (.one faults collection) (s.sync faults collection) := by
  unfold sync withStore withParameters
  rw [hstore]
  cases hid : Request.pathId "collection_id" collection with
  | refused refusals =>
    have hnone : store.published (.one faults collection) = [] := by simp [Store.published, hid]
    have hstatus : (Outcome.refused refusals).status ≠ 200 := by
      show (422 : Int) ≠ 200
      decide
    refine ⟨.other hstatus rfl, ⟨store, hstore, ?_⟩, fun _ hne => absurd hnone hne⟩
    rw [hnone]
    rfl
  | accepted id =>
    dsimp only
    cases hc : store.requireCollection (.int id) with
    | error failure =>
      have hnone : store.published (.one faults collection) = [] := by
        simp [Store.published, hid, hc]
      have hsync : store.syncById faults (.int id) = (store, .error failure) := by
        rw [Store.syncById, hc]
      rw [hsync]
      refine ⟨?_, ⟨store, store_answerSync s _ _ _, ?_⟩, fun _ hne => absurd hnone hne⟩
      · exact step_answerSync s _ _ nofun
      · rw [hnone]
        rfl
    | ok c =>
      have hpublished : store.published (.one faults collection) = store.publication faults c := by
        simp [Store.published, hid, hc]
      have hsync : store.syncById faults (.int id) = store.sync faults c := by
        rw [Store.syncById, hc]
      rw [hsync]
      refine ⟨?_, ⟨_, store_answerSync s _ _ _, ?_⟩, fun hstatus hne => ?_⟩
      · rw [hpublished]
        exact step_answerSync s _ _ fun n => Store.size_publication
      · rw [hpublished]
        exact store.replay_publication faults c
      · obtain ⟨failure, hfailure⟩ := exists_of_status_answerSync hstatus
        rw [hpublished] at hne
        exact absurd (Store.publication_of_error hfailure) hne

theorem serves_serve {s : Server} {store : Store} (hstore : s.store = some store)
    (call : SyncCall) : s.Serves store call (s.serve call) := by
  cases call with
  | all faults => exact serves_syncAll hstore faults
  | one faults collection => exact serves_sync hstore faults collection

/-! ## Requests one after the other -/

/-- Serves requests for syncs one after the other. -/
def serveEach (s : Server) : List SyncCall → Server × List Served
  | [] => (s, [])
  | call :: calls =>
    let (t, outcome) := s.serve call
    let (after, served) := t.serveEach calls
    (after, ⟨call, outcome, ((s.store.map fun store => store.published call).getD [])⟩ :: served)

end Server

namespace Served

/-- The request is answered with the status of success. -/
def isAnswered (x : Served) : Bool := x.outcome.status = 200

/-- The number of members that the request published. -/
def membersPublished (x : Served) : Nat := Store.size x.published

/-- The members that were published by the requests that were answered. -/
def membersAnswered (served : List Served) : Nat :=
  ((served.filter isAnswered).map membersPublished).sum

theorem membersAnswered_append (xs ys : List Served) :
    membersAnswered (xs ++ ys) = membersAnswered xs + membersAnswered ys := by
  simp [membersAnswered]

/-- The members that were published by all requests. -/
def membersOfAll (served : List Served) : Nat := (served.map membersPublished).sum

theorem membersAnswered_le (served : List Served) : membersAnswered served ≤ membersOfAll served :=
  ((List.filter_sublist (p := isAnswered)).map membersPublished).sum_le_sum fun _ _ => Nat.zero_le _

/-- Answered requests published all members if the others published none. -/
theorem membersAnswered_eq_iff (served : List Served) :
    membersAnswered served = membersOfAll served ↔
      ∀ x ∈ served, x.isAnswered = false → x.membersPublished = 0 := by
  induction served with
  | nil => simp [membersAnswered, membersOfAll]
  | cons x served ih =>
    have hle := membersAnswered_le served
    unfold membersAnswered membersOfAll at hle ih ⊢
    rw [List.forall_mem_cons, List.map_cons, List.sum_cons, ← ih, List.filter_cons]
    cases hx : x.isAnswered with
    | true => simp
    | false =>
      simp only [Bool.false_eq_true, if_false, true_implies]
      omega

end Served

namespace Server

/-- What the metrics and the memberships say of the requests for syncs that were served. -/
structure Accounts (store : Store) (m : Metrics) (served : List Served) (s : Server) : Prop where
  /-- The memberships are those that the requests published, one after the other. -/
  replayed : ∃ after, s.store = some after ∧
    after.memberships = Store.replay store.memberships (served.flatMap (·.published))
  /-- The requests that were answered are counted as successes. -/
  succeeded : s.metrics.syncsSucceeded = m.syncsSucceeded + served.countP (·.isAnswered)
  /-- The requests that failed to sync are counted as failures. -/
  failed : s.metrics.syncsFailed = m.syncsFailed + served.countP (·.outcome.isSyncFailure)
  /-- The members that are counted are those that answered requests published. -/
  written : s.metrics.membersWritten = m.membersWritten + Served.membersAnswered served
  /-- Only syncs of all collections publish anything without being answered. -/
  unanswered : ∀ x ∈ served, x.isAnswered = false → x.published ≠ [] → ∃ faults, x.call = .all faults

/-- The metrics count one request as it ended. -/
theorem Step.counts {m m' : Metrics} {x : Served} (h : Step m x.published m' x.outcome) :
    m'.syncsSucceeded = m.syncsSucceeded + [x].countP (·.isAnswered) ∧
      m'.syncsFailed = m.syncsFailed + [x].countP (·.outcome.isSyncFailure) ∧
      m'.membersWritten = m.membersWritten + Served.membersAnswered [x] := by
  obtain ⟨call, outcome, published⟩ := x
  cases h with
  | answered body =>
    have hanswered : (Served.mk call (.answered body) published).isAnswered = true := rfl
    simp [Served.membersAnswered, Served.membersPublished, hanswered, Metrics.recordSync,
      Outcome.isSyncFailure]
  | failed ids cause =>
    have hanswered : (Served.mk call (.failed (.syncFailed ids cause)) published).isAnswered =
        false := rfl
    simp [Served.membersAnswered, hanswered, Metrics.recordFailedSync, Outcome.isSyncFailure]
  | other not_answered not_failed =>
    have hanswered : (Served.mk call outcome published).isAnswered = false :=
      decide_eq_false not_answered
    have hfailed : outcome.isSyncFailure = false := not_failed
    simp [Served.membersAnswered, hanswered, hfailed]

/-- What requests for syncs add to any metrics, by induction on the requests. -/
theorem accounts_serveEach {s : Server} {store : Store} (hstore : s.store = some store)
    (calls : List SyncCall) :
    Accounts store s.metrics (s.serveEach calls).2 (s.serveEach calls).1 := by
  induction calls generalizing s store with
  | nil => exact ⟨⟨store, hstore, rfl⟩, rfl, rfl, (Int.add_zero _).symm, nofun⟩
  | cons call calls ih =>
    -- one request from any metrics, and the others from the server that it leaves
    obtain ⟨hstep, ⟨middle, hmiddle, hmembers⟩, hall⟩ := serves_serve hstore call
    obtain ⟨⟨after, hafter, hreplay⟩, hsucceeded, hfailed, hwritten, hunanswered⟩ := ih hmiddle
    have hserved : s.serveEach (call :: calls) = (((s.serve call).1.serveEach calls).1,
        [⟨call, (s.serve call).2, store.published call⟩] ++ ((s.serve call).1.serveEach calls).2) := by
      rw [serveEach, hstore]
      rfl
    obtain ⟨hone, htwo, hthree⟩ :=
      Step.counts (x := ⟨call, (s.serve call).2, store.published call⟩) hstep
    rw [hserved]
    constructor
    · refine ⟨after, hafter, ?_⟩
      rw [List.flatMap_append, Store.replay_append, hreplay, hmembers, List.flatMap_singleton]
    · rw [hsucceeded, hone, List.countP_append, Nat.add_assoc]
    · rw [hfailed, htwo, List.countP_append, Nat.add_assoc]
    · rw [hwritten, hthree, Served.membersAnswered_append, Int.add_assoc, Int.natCast_add]
    · intro x hx hanswered hpublished
      rcases List.mem_append.1 hx with hx | hx
      · cases List.mem_singleton.1 hx
        exact hall (of_decide_eq_false hanswered) hpublished
      · exact hunanswered x hx hanswered hpublished

theorem calls_serveEach (s : Server) (calls : List SyncCall) :
    (s.serveEach calls).2.map (·.call) = calls := by
  induction calls generalizing s with
  | nil => rfl
  | cons call calls ih => exact congrArg (call :: ·) (ih _)

/-- From a store and metrics that have counted nothing, requests for syncs are counted as they end,
and with the members that answered ones published. These are all the members that were published
unless a sync of all collections published some and was not answered. -/
theorem metrics_account (directory : Directory) (store : Store) (calls : List SyncCall) :
    ∃ s served, serveEach ⟨directory, some store, .none⟩ calls = (s, served) ∧
      served.map (·.call) = calls ∧ Accounts store .none served s ∧
      (s.metrics.membersWritten = Served.membersOfAll served ↔
        ∀ x ∈ served, x.isAnswered = false → x.membersPublished = 0) := by
  have haccounts := accounts_serveEach (s := ⟨directory, some store, .none⟩) rfl calls
  refine ⟨_, _, rfl, calls_serveEach _ calls, haccounts, ?_⟩
  have hwritten : _ = (0 : Int) + _ := haccounts.written
  rw [hwritten, Int.zero_add, Int.natCast_inj]
  exact Served.membersAnswered_eq_iff _

/-- A server that has loaded a shop and counted nothing. -/
def acmeServer : Server := { directory := { name := "data" }, store := some Store.acmeShop }

/-- A sync of all collections that fails for one of them publishes the members of another, and they
are not counted. -/
theorem not_forall_membersWritten :
    ¬∀ (directory : Directory) (store : Store) (calls : List SyncCall),
      (serveEach ⟨directory, some store, .none⟩ calls).1.metrics.membersWritten =
        Served.membersOfAll (serveEach ⟨directory, some store, .none⟩ calls).2 := by
  intro h
  have hcounted := h acmeServer.directory Store.acmeShop [.all Store.acmeOutage]
  have hvalues : ((acmeServer.serveEach [.all Store.acmeOutage]).1.metrics.membersWritten,
      Served.membersOfAll (acmeServer.serveEach [.all Store.acmeOutage]).2) = (0, 2) := by
    decide +kernel
  rw [Prod.mk.injEq] at hvalues
  have hzero := hvalues.1.symm.trans (hcounted.trans (congrArg Int.ofNat hvalues.2))
  exact absurd hzero (by decide)

end Server

end Storefront
