import Tsunagari.Bridge.Proofs.SpendingProofs
import Tsunagari.Bridge.Proofs.TerminationProofs
import Tsunagari.Bridge.Proofs.TransferProofs
import Tsunagari.Collector.Proofs.RoundProofs

/-!
# Proofs: what a completed run has done

A run can be carried on until nothing is left to do. Then every transfer for which enough nodes have
not failed has been submitted, and when all nodes are needed, exactly once and with the signature of
every node.
-/

namespace Tsunagari

open Async (Final Prog)
open Collector (Phase Steps)

variable {δ : Type} [DecidableEq δ] {P : Platform} {cfg : Config} {env : Env}
  {event : δ → BridgeEvent} {node : δ → Node} {w : World δ}

/-! ## Final states -/

omit [DecidableEq δ] in
/-- Every operation can be answered with success once the commands before it have run. -/
theorem Store.exists_answer (env : Env) (s : Store δ) (o : Op) :
    ∃ r result store queued, r.Succeeds ∧ Answered env s [] o r result store queued := by
  cases o with
  | rpush key value => exact ⟨.ok, _, _, _, trivial, .rpush key value⟩
  | llen key => exact ⟨.ok, _, _, _, trivial, .llen key rfl⟩
  | lrange key => exact ⟨.ok, _, _, _, trivial, .lrange key rfl⟩
  | del key => exact ⟨.ok, _, _, _, trivial, .del key rfl⟩
  | getThreshold site => exact ⟨.ok, _, _, _, trivial, .getThreshold site⟩
  | getMint mint => exact ⟨.ok, _, _, _, trivial, .getMint mint⟩
  | getJob id => exact ⟨.ok, _, _, _, trivial, .getJob id⟩
  | add data id opts => exact ⟨.ok, _, _, _, trivial, .add data id opts⟩
  | callEvm c => exact ⟨.receipt (some 1), _, _, _, trivial, .callEvm c _⟩
  | callSolana c => exact ⟨.transaction true "", _, _, _, trivial, .callSolana c _ _⟩
  | storeTransaction tx password => exact ⟨.ok, _, _, _, trivial, .storeTransaction tx password⟩

/-- Nothing is left to do: the handlers have ended and their commands have run, no job is
outstanding, and the completed jobs have been recorded. -/
structure World.Idle (w : World δ) : Prop where
  handlers : ∀ d o k, (w.handlers d).prog ≠ .await o k
  queued : ∀ d, (w.handlers d).queued = []
  jobs : ∀ id entry, w.store.jobs id = some entry → ¬ entry.Outstanding
  completions : ∀ key o k, w.completions key ≠ .await o k

/-- The backend can move, with an operation that succeeds, unless nothing is left to do. -/
theorem World.idle_or_step (P : Platform) (cfg : Config) (env : Env) (w : World δ) :
    w.Idle ∨ ∃ a w', a.Succeeds ∧ w.step P cfg env a = some w' := by
  by_contra hcon
  obtain ⟨hidle, hstuck⟩ := not_or.1 hcon
  have hqueued : ∀ d, (w.handlers d).queued = [] := by
    intro d
    by_contra hne
    obtain ⟨⟨key, value⟩, queued, hq⟩ := List.exists_cons_of_ne_nil hne
    exact hstuck ⟨.flush d .ok, _, trivial, step_eq_some.2 (.flush hq)⟩
  refine hidle ⟨fun d o k hprog => ?_, hqueued, fun id entry hjob hout => ?_,
    fun ⟨id, serial⟩ o k hprog => ?_⟩
  · obtain ⟨r, result, store, queued, hr, hans⟩ := w.store.exists_answer env o
    rw [← hqueued d] at hans
    exact hstuck ⟨.handler d r, _, hr, step_eq_some.2 (.handler hprog hans)⟩
  · rcases hout with hstatus | ⟨prog, hstatus⟩
    · exact hstuck ⟨.take id, _, trivial, step_eq_some.2 (.take hjob hstatus)⟩
    · cases prog with
      | ret u => exact hstuck ⟨.settle id, _, trivial, step_eq_some.2 (.complete hjob hstatus)⟩
      | throw e => exact hstuck ⟨.settle id, _, trivial, step_eq_some.2 (.retry hjob hstatus)⟩
      | await o k =>
        obtain ⟨r, result, store, queued, hr, hans⟩ := w.store.exists_answer env o
        exact hstuck ⟨.worker id r, _, hr, step_eq_some.2 (.worker hjob hstatus hans)⟩
  · obtain ⟨r, result, store, queued, hr, hans⟩ := w.store.exists_answer env o
    exact hstuck ⟨.completion id serial r, _, hr, step_eq_some.2 (.completion hprog hans)⟩

/-- A state is final exactly when nothing is left to do. -/
theorem World.final_iff : Final (World.step P cfg env) w ↔ w.Idle := by
  constructor
  · intro h
    refine (w.idle_or_step P cfg env).resolve_right ?_
    rintro ⟨a, w', -, hstep⟩
    rw [h a] at hstep
    cases hstep
  · intro h a
    rw [Option.eq_none_iff_forall_ne_some]
    intro w' hstep
    have hjob : ∀ {id entry}, w.store.jobs id = some entry → ∀ {status}, entry.status = status →
        (status = .waiting ∨ ∃ prog, status = .active prog) → False := by
      rintro id entry hjob status rfl hout
      exact h.jobs id entry hjob hout
    cases step_eq_some.1 hstep with
    | handler hprog hans => exact h.handlers _ _ _ hprog
    | flush hq => rw [h.queued] at hq; cases hq
    | flushFailed hq => rw [h.queued] at hq; cases hq
    | stop hprog => exact h.handlers _ _ _ hprog
    | take hj hstatus => exact hjob hj hstatus (Or.inl rfl)
    | worker hj hstatus hans => exact hjob hj hstatus (Or.inr ⟨_, rfl⟩)
    | complete hj hstatus => exact hjob hj hstatus (Or.inr ⟨_, rfl⟩)
    | retry hj hstatus => exact hjob hj hstatus (Or.inr ⟨_, rfl⟩)
    | completion hprog hans => exact h.completions _ _ _ hprog

theorem World.Left.canReach_idle {n : ℕ} (h : World.Left P cfg event node w n) :
    Async.CanReach (World.step P cfg env) Action.Succeeds w World.Idle := by
  have hreach : Async.CanReach (World.step P cfg env) Action.Succeeds w
      (Final (World.step P cfg env)) :=
    .final (World.Left P cfg event node) (fun hw hs => hw.step hs)
      (fun {s _} _ => (s.idle_or_step P cfg env).imp_left World.final_iff.2) h
  exact hreach.bind fun w' hw' => .here (World.final_iff.1 hw')

theorem exists_idle [Fintype δ] (P : Platform) (cfg : Config) (env : Env) (event : δ → BridgeEvent)
    (node : δ → Node) : ∃ l w, (∀ a ∈ l, a.Succeeds) ∧
      World.run P cfg env (World.init fun d => (event d).handle P cfg (node d)) l = some w ∧
        w.Idle :=
  World.Left.init.canReach_idle

/-- **Every run can be completed**, with operations that succeed. -/
theorem reach_idle [Fintype δ] {l : List (Action δ)}
    (h : World.run P cfg env (World.init fun d => (event d).handle P cfg (node d)) l = some w) :
    Async.CanReach (World.step P cfg env) Action.Succeeds w World.Idle := by
  obtain ⟨m, -, hleft⟩ := Async.exec_left (World.Left P cfg event node) (fun hw hs => hw.step hs)
    World.Left.init h
  exact hleft.canReach_idle

/-- The job of the second submission has not ended. -/
theorem reach_idle_sample :
    ∃ w : World (Fin 3), World.run Sample.platform Sample.config (Sample.env 2 2)
        (Sample.world (Sample.lock 137) 3 le_rfl) (Sample.lateRun 0 1 2) = some w ∧
      Async.CanReach (World.step Sample.platform Sample.config (Sample.env 2 2)) Action.Succeeds w
        World.Idle := by
  obtain ⟨w, hrun, -⟩ := Sample.run_lateRun
  exact ⟨w, hrun, reach_idle hrun⟩

/-! ## Runs without a failure -/

namespace Plan

variable (p : Plan)

theorem returnsIfOk_readMint (reached : Bool) : (p.readMint reached).ReturnsIfOk := by
  have henqueue : ∀ n, (p.enqueue reached n).ReturnsIfOk := by
    intro n
    cases reached with
    | false => trivial
    | true =>
      intro existing
      cases existing with
      | true => trivial
      | false => exact fun _ => trivial
  cases hmint : p.mint with
  | none => exact Plan.readMint_of_none hmint reached ▸ henqueue 0
  | some mint => exact Plan.readMint_of_some hmint reached ▸ henqueue

/-- A handler that knows where to read the threshold returns when its operations succeed. -/
theorem returnsIfOk_start {site : BridgeSite} (hsite : p.site = .ok site) (signature : String) :
    (p.start signature).ReturnsIfOk := by
  intro _
  show p.readThreshold.ReturnsIfOk
  rw [Plan.readThreshold_of_site hsite]
  exact fun t n => p.returnsIfOk_readMint _

end Plan

theorem BridgeEvent.returnsIfOk_handle {e : BridgeEvent} {p : Plan} {node : Node}
    {site : BridgeSite} (hplan : e.plan P cfg = .ok p) (hsite : p.site = .ok site)
    (hsign : (e.sign P cfg node).isOk) : (e.handle P cfg node).ReturnsIfOk := by
  rw [e.handle_eq, hplan]
  cases hs : e.sign P cfg node with
  | ok signature => exact p.returnsIfOk_start hsite signature
  | error err =>
    rw [hs] at hsign
    cases hsign

omit [DecidableEq δ] in
theorem Answered.ok_of_succeeds {s store : Store δ} {queued queued' : List (String × String)}
    {o : Op} {r : Reply} {result : Except JsError o.Resp}
    (h : Answered env s queued o r result store queued') (hr : r.Succeeds) :
    ∃ v, result = .ok v := by
  cases h with
  | failed o err => exact absurd hr not_false
  | _ => exact ⟨_, rfl⟩

/-- A handler does not fail when all operations succeed. -/
theorem not_throw_of_run {handler : δ → Task Unit} {d : δ} (hd : (handler d).ReturnsIfOk)
    {l : List (Action δ)} (hl : ∀ a ∈ l, a.Succeeds)
    (h : World.run P cfg env (World.init handler) l = some w) (err : JsError) :
    (w.handlers d).prog ≠ .throw err := by
  suffices hreturns : (w.handlers d).prog.ReturnsIfOk by
    intro herr
    rwa [herr] at hreturns
  refine Async.exec_invariant (fun w : World δ => (w.handlers d).prog.ReturnsIfOk)
    Action.Succeeds ?_ hd hl h
  intro w w' a ha hw hstep
  have hupdate : ∀ d' hs, (d' = d → hs.prog.ReturnsIfOk) →
      (Function.update w.handlers d' hs d).prog.ReturnsIfOk := by
    intro d' hs hret
    by_cases hne : d = d'
    · subst hne
      rw [Function.update_self]
      exact hret rfl
    · rwa [Function.update_of_ne hne]
  cases step_eq_some.1 hstep with
  | @handler d' r o k result store queued hprog hans =>
    refine hupdate d' ⟨k result, queued⟩ ?_
    rintro rfl
    rw [hprog] at hw
    obtain ⟨v, rfl⟩ := hans.ok_of_succeeds ha
    exact hw v
  | @flush d' key value queued hqueued =>
    exact hupdate d' ⟨(w.handlers d').prog, queued⟩ (by rintro rfl; exact hw)
  | @flushFailed d' err key value queued hqueued => exact absurd ha not_false
  | stop hprog => exact absurd ha not_false
  | _ => exact hw

/-! ## Transfers -/

section Transfers

variable {mine : δ → Bool} {e : BridgeEvent} {p : Plan} {t : ℕ} {s : Collector.State δ}

omit [DecidableEq δ] in
/-- A handler that has not failed has run to its end. -/
theorem World.Idle.done (h : w.Idle) {d : δ} (hok : ∀ err, (w.handlers d).prog ≠ .throw err) :
    (w.handlers d).Done := by
  show (w.handlers d).prog = .ret ()
  cases hprog : (w.handlers d).prog with
  | ret u => rfl
  | throw err => exact absurd hprog (hok err)
  | await o k => exact absurd hprog (h.handlers d o k)

/-- Something has been submitted when `t` handlers have not failed, and no ticket is left. -/
theorem Tracks.submitted_ne_nil (ht : 1 ≤ t)
    (hsteps : Steps t True (Collector.State.init (signs P cfg event node mine)) s)
    (htr : Tracks P cfg env event node mine p t w s) (hidle : w.Idle) (S : Finset δ)
    (hS : t ≤ S.card)
    (hok : ∀ d ∈ S, mine d = true ∧ ∀ err, (w.handlers d).prog ≠ .throw err) :
    s.submitted ≠ [] ∧ w.store.jobs p.jobId = none := by
  have hticket : s.ticket = .absent := by
    by_contra hne
    obtain ⟨entry, hjob, hout, -⟩ := htr.outstanding hne
    exact hidle.jobs _ entry hjob hout
  have hjob := htr.job
  rw [hticket] at hjob
  refine ⟨?_, hjob.none_of_absent⟩
  rcases Collector.submitted_or_ticket ht hsteps S hS fun d hd =>
    (htr.handlers d (hok d hd).1).done_cases (hidle.done (hok d hd).2) with hsub | htick
  · exact hsub
  · exact absurd hticket htick

/-- No handler of the sample fails when all operations succeed. -/
theorem Sample.exists_idle (t : ℕ) : ∃ (w : World (Fin 3)) (l : List (Action (Fin 3))),
    (∀ a ∈ l, a.Succeeds) ∧
      World.run platform config (Sample.env t t) (Sample.world (Sample.lock 137) 3 le_rfl) l =
          some w ∧
        w.Idle ∧ ∀ d err, (w.handlers d).prog ≠ .throw err := by
  obtain ⟨l, w, hl, hrun, hidle⟩ := Tsunagari.exists_idle platform config (Sample.env t t)
    (fun _ => Sample.lock 137) fun d : Fin 3 => Sample.node d
  obtain ⟨p, hplan, hsite⟩ := exists_ok_of_decide (p := fun p : Plan => p.site = .ok (.evm 137))
    (x := (Sample.lock 137).plan platform config) (by decide +kernel)
  have hsign : ∀ d, ((Sample.lock 137).sign platform config (Sample.node d)).isOk := by
    decide +kernel
  exact ⟨w, l, hl, hrun, hidle,
    fun d => not_throw_of_run (BridgeEvent.returnsIfOk_handle hplan hsite (hsign d)) hl hrun⟩

/-- **A completed run has submitted every transfer** for which `t` handlers have not failed, and its
job is gone. -/
theorem submitted_of_idle (hd : Deliveries P cfg env event mine e p t) (ht : 1 ≤ t)
    (hdecodes : QueueProcessor.Decodes P (p.theJob env)) {l : List (Action δ)}
    (hl : ∀ a ∈ l, a.SucceedsOrStops)
    (hrun : World.run P cfg env (World.init fun d => (event d).handle P cfg (node d)) l = some w)
    (hidle : w.Idle) (S : Finset δ) (hS : t ≤ S.card)
    (hok : ∀ d ∈ S, mine d = true ∧ ∀ err, (w.handlers d).prog ≠ .throw err) :
    w.submissions (e.jobId P cfg) ≠ [] ∧ w.store.jobs (e.jobId P cfg) = none := by
  obtain ⟨s, hsteps, htr⟩ := Tracks.of_run hd hl hrun
  obtain ⟨hsub, hjob⟩ := htr.submitted_ne_nil ht hsteps hidle S hS hok
  rw [← (Plan.of_plan hd.plan).jobId]
  refine ⟨?_, hjob⟩
  obtain ⟨first, rest, hcons⟩ := List.exists_cons_of_ne_nil hsub
  obtain ⟨c, hc⟩ := hdecodes.call (first.map (signatureOf P cfg event node))
  rw [htr.submissions, hcons, List.filterMap_cons_some (b := c)
    (by simp only [submissionOf, hc, Except.toOption])]
  simp

/-- Three nodes handle a lock without a failure, and two of them are enough. -/
theorem submitted_of_idle_sample :
    ∃ w : World (Fin 3), w.Idle ∧
      w.submissions ((Sample.lock 137).jobId Sample.platform Sample.config) ≠ [] ∧
        w.store.jobs ((Sample.lock 137).jobId Sample.platform Sample.config) = none := by
  obtain ⟨w, l, hl, hrun, hidle, hok⟩ := Sample.exists_idle 2
  obtain ⟨p, hp, hd⟩ := Sample.deliveries_lock 2
  obtain ⟨p', hp', hdecodes⟩ := exists_ok_of_decide
    (p := fun p : Plan => QueueProcessor.Decodes Sample.platform (p.theJob (Sample.env 2 2)))
    (x := (Sample.lock 137).plan Sample.platform Sample.config) (by decide +kernel)
  cases hp.symm.trans hp'
  exact ⟨w, hidle, submitted_of_idle hd one_le_two hdecodes (fun a ha => (hl a ha).orStops) hrun
    hidle Finset.univ (by decide) fun d _ => ⟨rfl, hok d⟩⟩

/-- **When all nodes are needed, a completed run without a failure has submitted the transfer once,
with the signature of every node**, and nothing of it is left in Redis or in the queue. -/
theorem submitted_once_of_idle [Fintype δ] {site : BridgeSite} {job : BridgeJob}
    (hsite : e.site P cfg = .ok site) (hjob : e.job P cfg env = .ok job)
    (hsign : ∀ d, (e.sign P cfg (node d)).isOk) (hdecodes : QueueProcessor.Decodes P job)
    (ht : 1 ≤ env.threshold site) (hcard : env.threshold site = Fintype.card δ)
    {l : List (Action δ)} (hl : ∀ a ∈ l, a.Succeeds)
    (hrun : World.run P cfg env (World.init fun d => e.handle P cfg (node d)) l = some w)
    (hidle : w.Idle) :
    ∃ (ds : List δ) (c : Call), ds.Nodup ∧ (∀ d, d ∈ ds) ∧
      QueueProcessor.destinationCall P job (ds.map (signatureOf P cfg (fun _ => e) node)) = .ok c ∧
        w.submissions (e.jobId P cfg) = [c] ∧ w.store.lists (e.message P cfg) = [] ∧
          w.store.jobs (e.jobId P cfg) = none := by
  obtain ⟨p, hplan, hp, rfl, hid⟩ := exists_plan hsite hjob
  have hof := Plan.of_plan hplan
  have hd : Deliveries P cfg env (fun _ : δ => e) (fun _ => true) e p (Fintype.card δ) :=
    Deliveries.all hplan (hcard ▸ Plan.threshold_of_site hp)
  obtain ⟨s, hsteps, htr⟩ := Tracks.of_run hd (fun a ha => (hl a ha).orStops) hrun
  have hok : ∀ d err, (w.handlers d).prog ≠ .throw err := fun d =>
    not_throw_of_run (BridgeEvent.returnsIfOk_handle hplan hp (hsign d)) hl hrun
  rw [hcard] at ht
  obtain ⟨hsub, hnone⟩ := htr.submitted_ne_nil ht hsteps hidle Finset.univ
    Finset.card_univ.ge fun d _ => ⟨rfl, hok d⟩
  have hsole := Collector.sole_of_steps ht le_rfl hsteps
  obtain ⟨ds, rest, hcons⟩ := List.exists_cons_of_ne_nil hsub
  have hrest : rest = [] := by
    have := hsole.once
    rw [hcons, List.length_cons] at this
    exact List.eq_nil_of_length_eq_zero (by omega)
  subst hrest
  obtain ⟨hnodup, -⟩ := Collector.submitted_nodup ht hsteps
  rw [hcons, List.flatten_singleton] at hnodup
  have hds := (List.nodup_append.1 hnodup).2.1
  have hquorum : Fintype.card δ ≤ ds.length :=
    hsole.quorum ds (Or.inr (by rw [hcons]; exact List.mem_singleton_self ds))
  obtain ⟨c, hc⟩ := hdecodes.call (ds.map (signatureOf P cfg (fun _ => e) node))
  refine ⟨ds, c, hds, fun d => ?_, hc, ?_, ?_, hid ▸ hnone⟩
  · have huniv : ds.toFinset = Finset.univ := by
      apply Finset.eq_univ_of_card
      have h1 := Finset.card_le_univ ds.toFinset
      rw [List.toFinset_card_of_nodup hds] at h1 ⊢
      omega
    rw [← List.mem_toFinset, huniv]
    exact Finset.mem_univ d
  · rw [← hid, htr.submissions, hcons, List.filterMap_cons_some (b := c)
      (by simp only [submissionOf, hc, Except.toOption]), List.filterMap_nil]
  · rw [← hof.message, htr.list, hsole.empty (Or.inl hsub), List.map_nil]

end Transfers

/-- Three nodes and the threshold three. -/
theorem submitted_once_of_idle_sample :
    ∃ (w : World (Fin 3)) (ds : List (Fin 3)) (c : Call), ds.Nodup ∧ (∀ d, d ∈ ds) ∧
      w.submissions ((Sample.lock 137).jobId Sample.platform Sample.config) = [c] ∧
        w.store.lists ((Sample.lock 137).message Sample.platform Sample.config) = [] := by
  obtain ⟨w, l, hl, hrun, hidle, -⟩ := Sample.exists_idle 3
  obtain ⟨job, hjob, hdecodes⟩ := exists_ok_of_decide (p := QueueProcessor.Decodes Sample.platform)
    (x := (Sample.lock 137).job Sample.platform Sample.config (Sample.env 3 3)) (by decide +kernel)
  have hsite : (Sample.lock 137).site Sample.platform Sample.config = .ok (.evm 137) := by
    decide +kernel
  obtain ⟨ds, c, hnodup, hall, -, hsub, hlist, -⟩ := submitted_once_of_idle hsite hjob
    (by decide +kernel) hdecodes (by decide) (by decide) hl hrun hidle
  exact ⟨w, ds, c, hnodup, hall, hsub, hlist⟩

end Tsunagari
