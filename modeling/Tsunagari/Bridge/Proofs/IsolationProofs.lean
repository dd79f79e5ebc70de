import Tsunagari.Bridge.Isolation
import Tsunagari.Bridge.Proofs.TransferProofs
import Tsunagari.Collector.Proofs.DeliveryProofs

/-!
# Proofs: when two bridge events do not interfere

The list and the job id of an event come from the hash of its transaction. Events of different
transactions have nothing in common; events of one transaction share everything.
-/

namespace Tsunagari

variable {δ : Type} {P : Platform} {cfg : Config} {env : Env} {first : δ → Bool} {key id : String}

/-! ## Stores -/

namespace Store.Agrees

variable {s t : Store δ}

theorem refl (s : Store δ) : s.Agrees key id s := ⟨fun _ _ => rfl, fun _ _ => rfl, fun _ _ => rfl⟩

theorem push (h : s.Agrees key id t) (d : δ) (k value : String) :
    (s.push d k value).Agrees key id (t.push d k value) where
  lists k' hk' := by
    by_cases hk : k' = k
    · subst hk
      rw [Store.push_self, Store.push_self, h.lists k' hk']
    · rw [Store.push_of_ne _ _ _ hk, Store.push_of_ne _ _ _ hk, h.lists k' hk']
  jobs := h.jobs
  added := h.added

theorem push_left (h : s.Agrees key id t) (d : δ) (value : String) :
    (s.push d key value).Agrees key id t :=
  ⟨update_left h.lists (not_not_intro rfl) _, h.jobs, h.added⟩

theorem clear (h : s.Agrees key id t) (k : String) : (s.clear k).Agrees key id (t.clear k) :=
  ⟨update_both h.lists k [], h.jobs, h.added⟩

theorem clear_left (h : s.Agrees key id t) : (s.clear key).Agrees key id t :=
  ⟨update_left h.lists (not_not_intro rfl) [], h.jobs, h.added⟩

theorem setJob (h : s.Agrees key id t) (i : String) (new : Option JobEntry) :
    (s.setJob i new).Agrees key id (t.setJob i new) :=
  ⟨h.lists, update_both h.jobs i new, h.added⟩

theorem setJob_left (h : s.Agrees key id t) (new : Option JobEntry) :
    (s.setJob id new).Agrees key id t :=
  ⟨h.lists, update_left h.jobs (not_not_intro rfl) new, h.added⟩

theorem addJob (h : s.Agrees key id t) (data : BridgeJob) {i : String} (opts : JobOptions)
    (hi : i ≠ id) : (s.addJob data i opts).Agrees key id (t.addJob data i opts) := by
  have hjobs := h.jobs i hi
  cases hs : s.jobs i with
  | some entry =>
    rw [Store.addJob_of_some data opts hs, Store.addJob_of_some data opts (hjobs ▸ hs)]
    exact h
  | none =>
    have ht : t.jobs i = none := hjobs ▸ hs
    refine ⟨fun k hk => ?_, fun i' hi' => ?_, fun i' hi' => ?_⟩
    · rw [Store.addJob_lists, Store.addJob_lists, h.lists k hk]
    · by_cases hne : i' = i
      · subst hne
        rw [Store.addJob_of_none data opts hs, Store.addJob_of_none data opts ht, h.added i' hi]
      · rw [Store.addJob_jobs_of_ne _ _ _ hne, Store.addJob_jobs_of_ne _ _ _ hne, h.jobs i' hi']
    · by_cases hne : i' = i
      · subst hne
        simp only [Store.addJob, hs, ht, h.added i' hi, Function.update_self]
      · rw [Store.addJob_added_of_ne _ _ _ hne, Store.addJob_added_of_ne _ _ _ hne, h.added i' hi']

theorem addJob_left (h : s.Agrees key id t) (data : BridgeJob) (opts : JobOptions) :
    (s.addJob data id opts).Agrees key id t :=
  ⟨fun k hk => (congrFun (Store.addJob_lists ..) k).trans (h.lists k hk),
    fun i hi => (Store.addJob_jobs_of_ne _ _ _ hi).trans (h.jobs i hi),
    fun i hi => (Store.addJob_added_of_ne _ _ _ hi).trans (h.added i hi)⟩

end Store.Agrees

/-! ## Footprints -/

/-- The operation does not look at the list under the key or the job with the id. -/
def Op.Avoids (key id : String) : Op → Prop
  | .rpush k _ => k ≠ key
  | .llen k => k ≠ key
  | .lrange k => k ≠ key
  | .del k => k ≠ key
  | .getJob i => i ≠ id
  | .add _ i _ => i ≠ id
  | _ => True

/-- The operation changes at most the list under the key and the job with the id. -/
def Op.Stays (key id : String) : Op → Prop
  | .del k => k = key
  | .add _ i _ => i = id
  | _ => True

/-- An operation elsewhere is answered in the same way in both stores. -/
theorem Answered.both {s t s' : Store δ} {queued queued' : List (String × String)} {o : Op}
    {r : Reply} {result : Except JsError o.Resp} (h : s.Agrees key id t) (ho : o.Avoids key id)
    (hans : Answered env s queued o r result s' queued') :
    ∃ t', Answered env t queued o r result t' queued' ∧ s'.Agrees key id t' := by
  cases hans with
  | failed _ e => exact ⟨t, .failed _ e, h⟩
  | rpush k value => exact ⟨t, .rpush k value, h⟩
  | llen k hq => exact ⟨t, by rw [h.lists k ho]; exact .llen k hq, h⟩
  | lrange k hq => exact ⟨t, by rw [h.lists k ho]; exact .lrange k hq, h⟩
  | del k hq => exact ⟨t.clear k, by rw [h.lists k ho]; exact .del k hq, h.clear k⟩
  | getThreshold site => exact ⟨t, .getThreshold site, h⟩
  | getMint mint => exact ⟨t, .getMint mint, h⟩
  | getJob i => exact ⟨t, by rw [h.jobs i ho]; exact .getJob i, h⟩
  | add data i opts => exact ⟨t.addJob data i opts, .add data i opts, h.addJob data opts ho⟩
  | callEvm c status => exact ⟨t, .callEvm c status, h⟩
  | callSolana c status txSignature => exact ⟨t, .callSolana c status txSignature, h⟩
  | storeTransaction transaction password =>
    exact ⟨t, .storeTransaction transaction password, h⟩

/-- An operation of the first event changes nothing elsewhere. -/
theorem Answered.left {s t s' : Store δ} {queued queued' : List (String × String)} {o : Op}
    {r : Reply} {result : Except JsError o.Resp} (h : s.Agrees key id t) (ho : o.Stays key id)
    (hans : Answered env s queued o r result s' queued') : s'.Agrees key id t := by
  rcases hans.store_cases with rfl | ⟨k, rfl, rfl⟩ | ⟨data, i, opts, rfl, rfl⟩
  · exact h
  · cases ho; exact h.clear_left
  · cases ho; exact h.addJob_left data opts

theorem Op.OfHandler.avoids {node : Node} {e : BridgeEvent} {o : Op} (ho : o.OfHandler P cfg node e)
    (hm : e.message P cfg ≠ key) (hj : e.jobId P cfg ≠ id) : o.Avoids key id := by
  cases o with
  | rpush k value => exact ho.1 ▸ hm
  | llen k => exact (show k = _ from ho) ▸ hm
  | getJob i => exact (show i = _ from ho) ▸ hj
  | add data i opts => exact ho.2.1 ▸ hj
  | getThreshold site => trivial
  | getMint mint => trivial
  | _ => exact absurd ho not_false

theorem Op.OfHandler.stays {node : Node} {e : BridgeEvent} {o : Op}
    (ho : o.OfHandler P cfg node e) : o.Stays (e.message P cfg) (e.jobId P cfg) := by
  cases o with
  | add data i opts => exact ho.2.1
  | del k => exact absurd ho not_false
  | _ => trivial

theorem Op.OfWorker.avoids {message : String} {o : Op} (ho : o.OfWorker message)
    (hm : message ≠ key) : o.Avoids key id := by
  cases o with
  | lrange k => exact (show k = _ from ho) ▸ hm
  | del k => exact (show k = _ from ho) ▸ hm
  | callEvm c => trivial
  | callSolana c => trivial
  | _ => exact absurd ho not_false

theorem Op.OfWorker.stays {message : String} {o : Op} (ho : o.OfWorker message) :
    o.Stays message id := by
  cases o with
  | del k => exact ho
  | add data i opts => exact absurd ho not_false
  | _ => trivial

/-! ## States -/

variable {e₁ e₂ : BridgeEvent} {node : δ → Node} {w w' t : World δ}

/-- The trace grows by an answer to someone else. -/
theorem trace_both {l l' : List (Entry δ)} {x : Entry δ}
    (h : l.filter (fun x => !x.agent.Concerns first id) =
      l'.filter (fun x => !x.agent.Concerns first id)) :
    (l ++ [x]).filter (fun x => !x.agent.Concerns first id) =
      (l' ++ [x]).filter (fun x => !x.agent.Concerns first id) := by
  rw [List.filter_append, List.filter_append, h]

/-- The trace grows by an answer to the first event. -/
theorem trace_left {l : List (Entry δ)} {x : Entry δ} (hx : x.agent.Concerns first id = true) :
    (l ++ [x]).filter (fun x => !x.agent.Concerns first id) =
      l.filter (fun x => !x.agent.Concerns first id) := by
  rw [List.filter_append, List.filter_cons_of_neg (by simp [hx]), List.filter_nil, List.append_nil]

variable [DecidableEq δ]

/-- A handler of the first event goes on. -/
theorem handlers_left {hs hs' : δ → HandlerState} (h : ∀ d, first d = false → hs d = hs' d) {d : δ}
    (hd : first d = true) (new : HandlerState) : ∀ d', first d' = false →
      Function.update hs d new d' = hs' d' :=
  update_left h ((Bool.not_eq_false _).mpr hd) new

omit [DecidableEq δ] in
/-- The listener for a job goes on. -/
theorem completions_both {cs cs' : String × ℕ → Task Unit}
    (h : ∀ i s, i ≠ id → cs (i, s) = cs' (i, s)) (k : String × ℕ) (new : Task Unit) :
    ∀ i s, i ≠ id → Function.update cs k new (i, s) = Function.update cs' k new (i, s) :=
  fun i s => update_both (p := fun k => k.1 ≠ id) (fun k => h k.1 k.2) k new (i, s)

omit [DecidableEq δ] in
/-- The listener for the job of the first event goes on. -/
theorem completions_left {cs cs' : String × ℕ → Task Unit}
    (h : ∀ i s, i ≠ id → cs (i, s) = cs' (i, s)) (n : ℕ) (new : Task Unit) :
    ∀ i s, i ≠ id → Function.update cs (id, n) new (i, s) = cs' (i, s) :=
  fun i s => update_left (p := fun k => k.1 ≠ id) (fun k => h k.1 k.2) (not_not_intro rfl) new
    (i, s)

section Steps

variable (hm : e₁.message P cfg ≠ e₂.message P cfg) (hj : e₁.jobId P cfg ≠ e₂.jobId P cfg)
  (hconf : Confined P cfg (fun d => if first d then e₁ else e₂) node w)
  (h : w.Agrees first (e₁.message P cfg) (e₁.jobId P cfg) t) {a : Action δ}
  (hstep : w.step P cfg env a = some w')

include hm hj hconf

omit [DecidableEq δ] in
/-- A handler of the second event keeps away from the first one. -/
theorem Confined.avoids {d : δ} (hd : first d = false) {o : Op}
    {k : Except JsError o.Resp → Task Unit} (hprog : (w.handlers d).prog = .await o k) :
    o.Avoids (e₁.message P cfg) (e₁.jobId P cfg) := by
  have hall := hconf.handlers d
  rw [hprog] at hall
  have ho := hall.1
  simp only [hd, Bool.false_eq_true, if_false] at ho
  exact ho.avoids hm.symm hj.symm

omit hm hj [DecidableEq δ] in
/-- A handler of the first event keeps to it. -/
theorem Confined.stays {d : δ} (hd : first d = true) {o : Op}
    {k : Except JsError o.Resp → Task Unit} (hprog : (w.handlers d).prog = .await o k) :
    o.Stays (e₁.message P cfg) (e₁.jobId P cfg) := by
  have hall := hconf.handlers d
  rw [hprog] at hall
  have ho := hall.1
  simp only [hd, if_true] at ho
  exact ho.stays

omit hj [DecidableEq δ] in
/-- A job with another id has another message. -/
theorem Confined.message_ne {id : String} (hid : id ≠ e₁.jobId P cfg) {entry : JobEntry}
    (hjob : w.store.jobs id = some entry) : entry.data.message ≠ e₁.message P cfg := by
  obtain ⟨d, hof, hmsg, -⟩ := (hconf.jobs id entry hjob).of_event
  cases hd : first d with
  | true =>
    simp only [hd, if_true] at hof
    exact absurd hof hid
  | false =>
    simp only [hd, Bool.false_eq_true, if_false] at hmsg
    rw [hmsg]
    exact hm.symm

omit hm [DecidableEq δ] in
/-- The job of the first event has its message. -/
theorem Confined.message_eq {entry : JobEntry}
    (hjob : w.store.jobs (e₁.jobId P cfg) = some entry) :
    entry.data.message = e₁.message P cfg := by
  obtain ⟨d, hof, hmsg, -⟩ := (hconf.jobs _ entry hjob).of_event
  cases hd : first d with
  | true =>
    simp only [hd, if_true] at hmsg
    exact hmsg
  | false =>
    simp only [hd, Bool.false_eq_true, if_false] at hof
    exact absurd hof hj

include h hstep

/-- **A step that does not concern the first event** is taken in both states. -/
theorem World.Agrees.both (ha : a.Concerns first (e₁.jobId P cfg) = false) :
    ∃ t', t.step P cfg env a = some t' ∧
      w'.Agrees first (e₁.message P cfg) (e₁.jobId P cfg) t' := by
  cases step_eq_some.1 hstep with
  | @handler d r o k result store queued hprog hans =>
    obtain ⟨store', hans', hstore⟩ := hans.both h.store (hconf.avoids hm hj ha hprog)
    rw [h.handlers d ha] at hprog hans'
    exact ⟨_, step_eq_some.2 (.handler hprog hans'), hstore, update_both h.handlers d _,
      h.completions, trace_both h.trace⟩
  | @flush d key value queued hqueued =>
    have hpush := h.store.push d key value
    rw [h.handlers d ha] at hqueued
    refine ⟨_, step_eq_some.2 (.flush hqueued), hpush, ?_, h.completions, h.trace⟩
    rw [h.handlers d ha]
    exact update_both h.handlers d _
  | @flushFailed d e key value queued hqueued =>
    rw [h.handlers d ha] at hqueued
    refine ⟨_, step_eq_some.2 (.flushFailed hqueued), h.store, ?_, h.completions, h.trace⟩
    rw [h.handlers d ha]
    exact update_both h.handlers d _
  | @stop d o k hprog =>
    rw [h.handlers d ha] at hprog
    refine ⟨_, step_eq_some.2 (.stop hprog), h.store, ?_, h.completions, h.trace⟩
    rw [h.handlers d ha]
    exact update_both h.handlers d _
  | @take id entry hjob hstatus =>
    have hid := of_decide_eq_false ha
    rw [h.store.jobs id hid] at hjob
    exact ⟨_, step_eq_some.2 (.take hjob hstatus), h.store.setJob id _, h.handlers, h.completions,
      h.trace⟩
  | @worker id r entry o k result store queued hjob hstatus hans =>
    have hid := of_decide_eq_false ha
    have ho := ((hconf.jobs id entry hjob).active _ hstatus).1
    obtain ⟨store', hans', hstore⟩ := hans.both h.store (ho.avoids (hconf.message_ne hm hid hjob))
    rw [h.store.jobs id hid] at hjob
    exact ⟨_, step_eq_some.2 (.worker hjob hstatus hans'), hstore.setJob id _, h.handlers,
      h.completions, trace_both h.trace⟩
  | @complete id entry u hjob hstatus =>
    have hid := of_decide_eq_false ha
    rw [h.store.jobs id hid] at hjob
    exact ⟨_, step_eq_some.2 (.complete hjob hstatus), h.store.setJob id _, h.handlers,
      completions_both h.completions _ _, h.trace⟩
  | @retry id entry e hjob hstatus =>
    have hid := of_decide_eq_false ha
    rw [h.store.jobs id hid] at hjob
    exact ⟨_, step_eq_some.2 (.retry hjob hstatus), h.store.setJob id _, h.handlers, h.completions,
      h.trace⟩
  | @completion id serial r o k result store queued hprog hans =>
    have hid := of_decide_eq_false ha
    have hall := hconf.completions (id, serial)
    rw [hprog] at hall
    have hstore := hans.store_of_completion hall.1
    subst hstore
    have ho : o.Avoids (e₁.message P cfg) (e₁.jobId P cfg) := by
      cases o with
      | storeTransaction transaction password => trivial
      | _ => exact absurd hall.1 not_false
    obtain ⟨store', hans', hstore⟩ := hans.both h.store ho
    rw [h.completions id serial hid] at hprog
    exact ⟨_, step_eq_some.2 (.completion hprog hans'), hstore, h.handlers,
      completions_both h.completions _ _, trace_both h.trace⟩

omit hm in
/-- **A step of the first event** changes nothing elsewhere. -/
theorem World.Agrees.left (ha : a.Concerns first (e₁.jobId P cfg) = true) :
    w'.Agrees first (e₁.message P cfg) (e₁.jobId P cfg) t := by
  cases step_eq_some.1 hstep with
  | @handler d r o k result store queued hprog hans =>
    exact ⟨hans.left h.store (hconf.stays ha hprog), handlers_left h.handlers ha _, h.completions,
      (trace_left (x := ⟨.handler d, o, result⟩) ha).trans h.trace⟩
  | @flush d key value queued hqueued =>
    have hkey := (hconf.queued d (key, value) (hqueued ▸ List.mem_cons_self ..)).1
    simp only [show first d = true from ha, if_true] at hkey
    subst hkey
    exact ⟨h.store.push_left d value, handlers_left h.handlers ha _, h.completions, h.trace⟩
  | flushFailed hqueued =>
    exact ⟨h.store, handlers_left h.handlers ha _, h.completions, h.trace⟩
  | stop hprog => exact ⟨h.store, handlers_left h.handlers ha _, h.completions, h.trace⟩
  | @take id entry hjob hstatus =>
    obtain rfl : id = e₁.jobId P cfg := of_decide_eq_true ha
    exact ⟨h.store.setJob_left _, h.handlers, h.completions, h.trace⟩
  | @worker id r entry o k result store queued hjob hstatus hans =>
    obtain rfl : id = e₁.jobId P cfg := of_decide_eq_true ha
    have ho := ((hconf.jobs _ entry hjob).active _ hstatus).1
    rw [hconf.message_eq hj hjob] at ho
    exact ⟨(hans.left h.store ho.stays).setJob_left _, h.handlers, h.completions,
      (trace_left (x := ⟨.worker _ entry.serial, o, result⟩) ha).trans h.trace⟩
  | @complete id entry u hjob hstatus =>
    obtain rfl : id = e₁.jobId P cfg := of_decide_eq_true ha
    exact ⟨h.store.setJob_left _, h.handlers, completions_left h.completions _ _, h.trace⟩
  | @retry id entry e hjob hstatus =>
    obtain rfl : id = e₁.jobId P cfg := of_decide_eq_true ha
    exact ⟨h.store.setJob_left _, h.handlers, h.completions, h.trace⟩
  | @completion id serial r o k result store queued hprog hans =>
    obtain rfl : id = e₁.jobId P cfg := of_decide_eq_true ha
    have hall := hconf.completions (e₁.jobId P cfg, serial)
    rw [hprog] at hall
    rw [hans.store_of_completion hall.1]
    exact ⟨h.store, h.handlers, completions_left h.completions _ _,
      (trace_left (x := ⟨.completion _ serial, o, result⟩) ha).trans h.trace⟩

end Steps

/-- **The projection of a run** to what does not concern the first event is a run that agrees with
it. -/
theorem agrees_of_run (hm : e₁.message P cfg ≠ e₂.message P cfg)
    (hj : e₁.jobId P cfg ≠ e₂.jobId P cfg) {l : List (Action δ)}
    (hrun : World.run P cfg env (World.both P cfg e₁ e₂ node first) l = some w) :
    ∃ t, World.run P cfg env (World.both P cfg e₁ e₂ node first)
        (l.filter fun a => !a.Concerns first (e₁.jobId P cfg)) = some t ∧
      w.Agrees first (e₁.message P cfg) (e₁.jobId P cfg) t := by
  have hinit : (World.both P cfg e₁ e₂ node first).Agrees first (e₁.message P cfg)
      (e₁.jobId P cfg) (World.both P cfg e₁ e₂ node first) :=
    ⟨.refl _, fun _ _ => rfl, fun _ _ _ => rfl, rfl⟩
  obtain ⟨t, ht, -, hagrees⟩ := Async.exec_filter
    (R := fun w t => Confined P cfg (fun d => if first d then e₁ else e₂) node w ∧
      w.Agrees first (e₁.message P cfg) (e₁.jobId P cfg) t)
    (fun a => a.Concerns first (e₁.jobId P cfg) = false)
    (fun ha ⟨hc, h⟩ hs =>
      let ⟨t', hs', h'⟩ := h.both hm hj hc hs ha
      ⟨t', hs', hc.step hs, h'⟩)
    (fun ha ⟨hc, h⟩ hs => ⟨hc.step hs, h.left hj hc hs (Bool.eq_true_of_not_eq_false ha)⟩)
    ⟨Confined.init, hinit⟩ hrun
  refine ⟨t, ?_, hagrees⟩
  rw [← ht]
  congr 1
  refine List.filter_congr fun a _ => ?_
  cases a.Concerns first (e₁.jobId P cfg) <;> rfl

/-- The event of a delivery. -/
theorem both_ne {f : BridgeEvent → String} (hf : f e₁ ≠ f e₂) {b c : Bool} (h : (c == b) = false) :
    f (if c then e₁ else e₂) ≠ f (if b then e₁ else e₂) := by
  cases b <;> cases c
  · cases h
  · exact hf
  · exact hf.symm
  · cases h

/-- **Both events get their own job.** -/
theorem job_of_run (hm : e₁.message P cfg ≠ e₂.message P cfg)
    (hj : e₁.jobId P cfg ≠ e₂.jobId P cfg) {l : List (Action δ)} (hl : ∀ a ∈ l, a.SucceedsOrStops)
    (hrun : World.run P cfg env (World.both P cfg e₁ e₂ node first) l = some w) (b : Bool) {n : ℕ}
    (hn : 1 ≤ n)
    (hsite : ∀ site, (if b then e₁ else e₂).site P cfg = .ok site → env.threshold site = n)
    (S : Finset δ) (hS : n ≤ S.card) (hdone : ∀ d ∈ S, first d = b ∧ (w.handlers d).Done) :
    w.enqueuers ((if b then e₁ else e₂).jobId P cfg) ≠ [] ∧
      ∀ entry, w.store.jobs ((if b then e₁ else e₂).jobId P cfg) = some entry →
        (if b then e₁ else e₂).job P cfg env = .ok entry.data := by
  have hevent : ∀ d, first d = b → (if first d then e₁ else e₂) = if b then e₁ else e₂ := by
    rintro d rfl
    rfl
  cases hplan : (if b then e₁ else e₂).plan P cfg with
  | error err =>
    obtain ⟨d, hd⟩ := Finset.card_pos.1 (lt_of_lt_of_le hn hS)
    exact absurd (hdone d hd).2 (not_done_of_plan_error hplan hrun (hevent d (hdone d hd).1))
  | ok p =>
    have hdel : Deliveries P cfg env (fun d => if first d then e₁ else e₂) (fun d => first d == b)
        (if b then e₁ else e₂) p n :=
      { plan := hplan
        threshold := fun site h => hsite site (by rw [BridgeEvent.site, hplan]; exact h)
        of_mine := fun d h => hevent d (eq_of_beq h)
        message_ne := fun d h => both_ne hm h
        jobId_ne := fun d h => both_ne hj h }
    obtain ⟨s, hsteps, htr⟩ := Tracks.of_run hdel hl hrun
    rw [← (Plan.of_plan hplan).jobId, BridgeEvent.job, hplan]
    refine ⟨?_, fun entry hjob => ?_⟩
    · rw [htr.enqueuers]
      refine Collector.added_of_done hn hsteps S hS fun d hd => ?_
      exact (htr.handlers d (by rw [(hdone d hd).1]; exact beq_self_eq_true b)).done_cases
        (hdone d hd).2
    · exact congrArg Except.ok (htr.status_of_job hjob).1.symm

/-! ## Isolated events -/

omit [DecidableEq δ] in
/-- **Two bridge events do not interfere exactly when they are events of different transactions**,
provided that the hash has no collision among their transactions and messages. -/
theorem isolated_iff (hcollision : Set.InjOn (fun text => P.murmur3 text cfg.murmur3Seed)
    {e₁.transaction, e₂.transaction, e₁.message P cfg, e₂.message P cfg}) :
    Isolated P cfg env e₁ e₂ ↔ e₁.transaction ≠ e₂.transaction := by
  constructor
  · intro h heq
    exact h.message (congrArg (fun text => createMessage P text cfg.murmur3Seed) heq)
  · intro hne
    have hm : e₁.message P cfg ≠ e₂.message P cfg := fun h =>
      hne (hcollision (by simp) (by simp) (createMessage_eq h))
    have hj : e₁.jobId P cfg ≠ e₂.jobId P cfg := fun h =>
      hm (hcollision (by simp) (by simp) (createJobId_eq h))
    exact ⟨hm, hj, fun node first l w hrun => agrees_of_run hm hj hrun,
      fun node first l w hl hrun b n hn hsite S hS hdone =>
        job_of_run hm hj hl hrun b hn hsite S hS hdone⟩

/-- Another lock of the same token in the same transaction. -/
def Sample.otherLock : BridgeEvent :=
  .tokensLocked 1
    { tokenAddress := token
      amount := 7000000000000000000
      destinationChainId := 137
      destinationAddress := bytes 32 0x70997970c51812dc3a010c7d01b50e0d17dc79c8
      transactionHash := evmTransaction }

omit [DecidableEq δ] in
/-- A node handles two locks of one transaction. The second finds the job of the first, and gets
none of its own. -/
theorem not_isolated_sample :
    ¬ Isolated Sample.platform Sample.config (Sample.env 1 1) (Sample.lock 137)
      Sample.otherLock := by
  intro h
  have heval : (World.run Sample.platform Sample.config (Sample.env 1 1)
      (World.both Sample.platform Sample.config (Sample.lock 137) Sample.otherLock
        (fun _ : Fin 2 => Sample.node 0) (fun d => d = 0))
      (Sample.push 0 ++ Sample.count 0 ++ Sample.enqueue 0 ++ Sample.push 1 ++ Sample.count 1 ++
        [.handler 1 .ok])).map
      (fun w => (decide (w.handlers 1).Done, (w.store.jobs (Sample.otherLock.jobId Sample.platform
        Sample.config)).map fun entry => entry.data.amount)) =
        some (true, some "1500000000000000000") := by decide +kernel
  obtain ⟨w, hrun, heq⟩ := Option.map_eq_some_iff.1 heval
  simp only [Prod.mk.injEq, decide_eq_true_eq, Option.map_eq_some_iff] at heq
  obtain ⟨hdone, entry, hjob, hamount⟩ := heq
  have hown := (h.job (fun _ => Sample.node 0) (fun d => d = 0) _ w
    (fun a ha => Action.Succeeds.orStops (by revert a; decide)) hrun false 1 le_rfl
    (fun site _ => by cases site <;> rfl) {1} (by simp)
    (fun d hd => by rw [Finset.mem_singleton.1 hd]; exact ⟨rfl, hdone⟩)).2 entry hjob
  obtain ⟨job, hjob', hother⟩ := exists_ok_of_decide
    (p := fun job : BridgeJob => job.amount = "7000000000000000000")
    (x := Sample.otherLock.job Sample.platform Sample.config (Sample.env 1 1)) (by decide +kernel)
  cases hjob'.symm.trans hown
  rw [hother] at hamount
  exact absurd hamount (by decide)

omit [DecidableEq δ] in
/-- A lock on the EVM chain and one on Solana. -/
theorem isolated_iff_sample :
    Isolated Sample.platform Sample.config (Sample.env 1 1) (Sample.lock 137)
      Sample.solanaLock := by
  have hpairwise : ∀ a ∈ [(Sample.lock 137).transaction, Sample.solanaLock.transaction,
      (Sample.lock 137).message Sample.platform Sample.config,
      Sample.solanaLock.message Sample.platform Sample.config],
      ∀ b ∈ [(Sample.lock 137).transaction, Sample.solanaLock.transaction,
        (Sample.lock 137).message Sample.platform Sample.config,
        Sample.solanaLock.message Sample.platform Sample.config],
        Sample.platform.murmur3 a 42 = Sample.platform.murmur3 b 42 → a = b := by decide +kernel
  refine (isolated_iff fun a ha b hb h => ?_).2 (by decide +kernel)
  exact hpairwise a (by simpa using ha) b (by simpa using hb) h

end Tsunagari
