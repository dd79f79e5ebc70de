import Tsunagari.Bridge.World

/-!
# Proofs: what a step of the backend can do
-/

namespace Tsunagari

open Async (Prog)

/-! ## Updates -/

section Updates

variable {ι β : Type*} [DecidableEq ι] {p : ι → Prop} {f g : ι → β}

/-- The same update in both functions. -/
theorem update_both (h : ∀ i, p i → f i = g i) (i : ι) (new : β) :
    ∀ i', p i' → Function.update f i new i' = Function.update g i new i' := by
  intro i' hi'
  by_cases hne : i' = i
  · subst hne
    rw [Function.update_self, Function.update_self]
  · rw [Function.update_of_ne hne, Function.update_of_ne hne, h i' hi']

/-- An update outside of what is compared. -/
theorem update_left (h : ∀ i, p i → f i = g i) {i : ι} (hi : ¬ p i) (new : β) :
    ∀ i', p i' → Function.update f i new i' = g i' := by
  intro i' hi'
  have hne : i' ≠ i := by
    rintro rfl
    exact hi hi'
  rw [Function.update_of_ne hne, h i' hi']

end Updates

/-! ## The store -/

namespace Store

variable {δ : Type}

@[simp] theorem push_self (s : Store δ) (d : δ) (key value : String) :
    (s.push d key value).lists key = s.lists key ++ [(d, value)] := by simp [push]

theorem push_of_ne (s : Store δ) (d : δ) {key key' : String} (value : String) (h : key' ≠ key) :
    (s.push d key value).lists key' = s.lists key' := by simp [push, Function.update_of_ne h]

/-- A list after a push. -/
theorem mem_push {s : Store δ} {d : δ} {key key' value : String} {x : δ × String}
    (hx : x ∈ (s.push d key value).lists key') :
    x ∈ s.lists key' ∨ (key' = key ∧ x = (d, value)) := by
  by_cases hkey : key' = key
  · subst hkey
    rw [push_self, List.mem_append, List.mem_singleton] at hx
    exact hx.imp_right fun hx => ⟨rfl, hx⟩
  · rw [push_of_ne _ _ _ hkey] at hx
    exact Or.inl hx

@[simp] theorem clear_self (s : Store δ) (key : String) : (s.clear key).lists key = [] := by
  simp [clear]

theorem clear_of_ne (s : Store δ) {key key' : String} (h : key' ≠ key) :
    (s.clear key).lists key' = s.lists key' := by simp [clear, Function.update_of_ne h]

@[simp] theorem setJob_self (s : Store δ) (id : String) (entry : Option JobEntry) :
    (s.setJob id entry).jobs id = entry := by simp [setJob]

theorem setJob_of_ne (s : Store δ) {id id' : String} (entry : Option JobEntry) (h : id' ≠ id) :
    (s.setJob id entry).jobs id' = s.jobs id' := by simp [setJob, Function.update_of_ne h]

@[simp] theorem addJob_lists (s : Store δ) (data : BridgeJob) (id : String) (opts : JobOptions) :
    (s.addJob data id opts).lists = s.lists := by
  unfold addJob; split <;> rfl

theorem addJob_of_some {s : Store δ} {id : String} {entry : JobEntry} (data : BridgeJob)
    (opts : JobOptions) (h : s.jobs id = some entry) : s.addJob data id opts = s := by
  simp [addJob, h]

theorem addJob_of_none {s : Store δ} {id : String} (data : BridgeJob) (opts : JobOptions)
    (h : s.jobs id = none) :
    (s.addJob data id opts).jobs id = some ⟨data, opts, 0, s.added id, .waiting⟩ := by
  simp [addJob, h]

theorem addJob_jobs_of_ne (s : Store δ) (data : BridgeJob) {id id' : String} (opts : JobOptions)
    (h : id' ≠ id) : (s.addJob data id opts).jobs id' = s.jobs id' := by
  unfold addJob
  split
  · rfl
  · exact setJob_of_ne _ _ h

theorem addJob_added_of_ne (s : Store δ) (data : BridgeJob) {id id' : String} (opts : JobOptions)
    (h : id' ≠ id) : (s.addJob data id opts).added id' = s.added id' := by
  unfold addJob
  split
  · rfl
  · exact Function.update_of_ne h _ _

/-- What is in the queue stays there when a job is added. -/
theorem jobs_addJob_of_some {s : Store δ} (data : BridgeJob) (id : String) (opts : JobOptions)
    {id' : String} {entry : JobEntry} (h : s.jobs id' = some entry) :
    (s.addJob data id opts).jobs id' = some entry := by
  by_cases hid : id' = id
  · subst hid
    rwa [addJob_of_some data opts h]
  · rwa [addJob_jobs_of_ne _ _ _ hid]

/-- A job stays when one with another status is replaced. -/
theorem jobs_setJob_of_status {s : Store δ} {id id' : String} {entry entry' : JobEntry}
    (new : Option JobEntry) (hjob : s.jobs id = some entry) (hjob' : s.jobs id' = some entry')
    (hne : entry'.status ≠ entry.status) : (s.setJob id new).jobs id' = some entry' := by
  rwa [setJob_of_ne]
  rintro rfl
  cases hjob.symm.trans hjob'
  exact hne rfl

/-- A job after another one has been replaced, or that one. -/
theorem jobs_setJob_cases {s : Store δ} {id id' : String} {new : Option JobEntry} {entry : JobEntry}
    (h : (s.setJob id new).jobs id' = some entry) :
    (id' = id ∧ new = some entry) ∨ (id' ≠ id ∧ s.jobs id' = some entry) := by
  by_cases hid : id' = id
  · subst hid
    rw [setJob_self] at h
    exact Or.inl ⟨rfl, h⟩
  · rw [setJob_of_ne _ _ hid] at h
    exact Or.inr ⟨hid, h⟩

/-- A job after one has been added, or that one. -/
theorem jobs_addJob_cases {s : Store δ} {data : BridgeJob} {id id' : String} {opts : JobOptions}
    {entry : JobEntry} (h : (s.addJob data id opts).jobs id' = some entry) :
    s.jobs id' = some entry ∨ (id' = id ∧ s.jobs id = none ∧
      entry = ⟨data, opts, 0, s.added id, .waiting⟩) := by
  cases hjob : s.jobs id with
  | some entry' =>
    rw [addJob_of_some data opts hjob] at h
    exact Or.inl h
  | none =>
    by_cases hid : id' = id
    · subst hid
      rw [addJob_of_none data opts hjob] at h
      exact Or.inr ⟨rfl, rfl, (Option.some.inj h).symm⟩
    · rw [addJob_jobs_of_ne _ _ _ hid] at h
      exact Or.inl h

end Store

/-! ## Answers -/

/-- The answers that the environment can give. -/
inductive Answered {δ : Type} (env : Env) (s : Store δ) (queued : List (String × String)) :
    (o : Op) → Reply → Except JsError o.Resp → Store δ → List (String × String) → Prop where
  | failed (o : Op) (e : JsError) : Answered env s queued o (.error e) (.error e) s queued
  | rpush (key value : String) :
      Answered env s queued (.rpush key value) .ok (.ok 0) s (queued ++ [(key, value)])
  | llen (key : String) (h : queued = []) :
      Answered env s queued (.llen key) .ok (.ok (s.lists key).length) s queued
  | lrange (key : String) (h : queued = []) :
      Answered env s queued (.lrange key) .ok (.ok ((s.lists key).map Prod.snd)) s queued
  | del (key : String) (h : queued = []) :
      Answered env s queued (.del key) .ok (.ok (if s.lists key = [] then 0 else 1)) (s.clear key)
        queued
  | getThreshold (site : BridgeSite) :
      Answered env s queued (.getThreshold site) .ok (.ok (env.threshold site)) s queued
  | getMint (mint : PublicKey) :
      Answered env s queued (.getMint mint) .ok (.ok (env.decimals mint)) s queued
  | getJob (id : String) : Answered env s queued (.getJob id) .ok (.ok (s.jobs id).isSome) s queued
  | add (data : BridgeJob) (id : String) (opts : JobOptions) :
      Answered env s queued (.add data id opts) .ok (.ok ()) (s.addJob data id opts) queued
  | callEvm (c : EvmCall) (status : Option ℕ) :
      Answered env s queued (.callEvm c) (.receipt status) (.ok status) s queued
  | callSolana (c : SolanaCall) (status : Bool) (txSignature : String) :
      Answered env s queued (.callSolana c) (.transaction status txSignature)
        (.ok (status, txSignature)) s queued
  | storeTransaction (transaction : CreateTransactionDto) (password : String) :
      Answered env s queued (.storeTransaction transaction password) .ok (.ok ()) s queued

theorem answer_eq_some {δ : Type} {env : Env} {s s' : Store δ}
    {queued queued' : List (String × String)} {o : Op} {r : Reply}
    {result : Except JsError o.Resp} :
    s.answer env queued o r = some (result, s', queued') ↔
      Answered env s queued o r result s' queued' := by
  constructor
  · intro h
    cases r with
    | error e => cases o <;> (cases h; exact .failed _ e)
    | ok =>
      cases o with
      | rpush key value => cases h; exact .rpush key value
      | llen key =>
        simp only [Store.answer] at h
        split at h
        next hq => cases h; subst hq; exact .llen key rfl
        next => cases h
      | lrange key =>
        simp only [Store.answer] at h
        split at h
        next hq => cases h; subst hq; exact .lrange key rfl
        next => cases h
      | del key =>
        simp only [Store.answer] at h
        split at h
        next hq => cases h; subst hq; exact .del key rfl
        next => cases h
      | getThreshold site => cases h; exact .getThreshold site
      | getMint mint => cases h; exact .getMint mint
      | getJob id => cases h; exact .getJob id
      | add data id opts => cases h; exact .add data id opts
      | storeTransaction transaction password => cases h; exact .storeTransaction ..
      | callEvm c => cases h
      | callSolana c => cases h
    | receipt status =>
      cases o with
      | callEvm c => cases h; exact .callEvm c status
      | _ => cases h
    | transaction status txSignature =>
      cases o with
      | callSolana c => cases h; exact .callSolana c status txSignature
      | _ => cases h
  · intro h
    cases h with
    | failed e => cases o <;> rfl
    | llen key hq => subst hq; rfl
    | lrange key hq => subst hq; rfl
    | del key hq => subst hq; rfl
    | _ => rfl

/-- What an answer does to the store. -/
theorem Answered.store_cases {δ : Type} {env : Env} {s s' : Store δ}
    {queued queued' : List (String × String)} {o : Op} {r : Reply} {result : Except JsError o.Resp}
    (h : Answered env s queued o r result s' queued') :
    s' = s ∨ (∃ key, o = .del key ∧ s' = s.clear key) ∨
      ∃ data id opts, o = .add data id opts ∧ s' = s.addJob data id opts := by
  cases h with
  | del key => exact Or.inr (Or.inl ⟨key, rfl, rfl⟩)
  | add data id opts => exact Or.inr (Or.inr ⟨data, id, opts, rfl, rfl⟩)
  | _ => exact Or.inl rfl

/-- What an answer does to the commands under way. -/
theorem Answered.queued_cases {δ : Type} {env : Env} {s s' : Store δ}
    {queued queued' : List (String × String)} {o : Op} {r : Reply} {result : Except JsError o.Resp}
    (h : Answered env s queued o r result s' queued') :
    queued' = queued ∨ ∃ key value, o = .rpush key value ∧ queued' = queued ++ [(key, value)] := by
  cases h with
  | rpush key value => exact Or.inr ⟨key, value, rfl, rfl⟩
  | _ => exact Or.inl rfl

/-- What answering the awaited operation of a function does. -/
theorem advance_eq_some {δ : Type} {env : Env} {w w' : World δ} {agent : Agent δ}
    {queued queued' : List (String × String)} {prog prog' : Task Unit} {r : Reply} :
    w.advance env agent queued prog r = some (prog', queued', w') ↔
      ∃ (o : Op) (k : Except JsError o.Resp → Task Unit) (result : Except JsError o.Resp)
        (store : Store δ), prog = .await o k ∧
          Answered env w.store queued o r result store queued' ∧ prog' = k result ∧
          w' = { w with store, trace := w.trace ++ [⟨agent, o, result⟩] } := by
  constructor
  · intro h
    cases prog with
    | ret u => cases h
    | throw e => cases h
    | await o k =>
      obtain ⟨⟨result, store, q⟩, hans, heq⟩ := Option.map_eq_some_iff.1 h
      cases heq
      exact ⟨o, k, result, store, rfl, answer_eq_some.1 hans, rfl, rfl⟩
  · rintro ⟨o, k, result, store, rfl, hans, rfl, rfl⟩
    simp only [World.advance, answer_eq_some.2 hans, Option.map_some]

/-! ## Steps -/

variable {δ : Type} [DecidableEq δ]

/-- The steps that the backend can take. -/
inductive Moves (P : Platform) (cfg : Config) (env : Env) (w : World δ) :
    Action δ → World δ → Prop where
  | handler {d : δ} {r : Reply} {o : Op} {k : Except JsError o.Resp → Task Unit}
      {result : Except JsError o.Resp} {store : Store δ} {queued : List (String × String)}
      (hprog : (w.handlers d).prog = .await o k)
      (hans : Answered env w.store (w.handlers d).queued o r result store queued) :
      Moves P cfg env w (.handler d r)
        { store, handlers := Function.update w.handlers d { prog := k result, queued },
          completions := w.completions, trace := w.trace ++ [⟨.handler d, o, result⟩] }
  | flush {d : δ} {key value : String} {queued : List (String × String)}
      (hqueued : (w.handlers d).queued = (key, value) :: queued) :
      Moves P cfg env w (.flush d .ok)
        { w with
          store := w.store.push d key value
          handlers := Function.update w.handlers d { prog := (w.handlers d).prog, queued } }
  | flushFailed {d : δ} {e : JsError} {key value : String} {queued : List (String × String)}
      (hqueued : (w.handlers d).queued = (key, value) :: queued) :
      Moves P cfg env w (.flush d (.error e))
        { w with handlers := Function.update w.handlers d { prog := (w.handlers d).prog, queued } }
  | stop {d : δ} {o : Op} {k : Except JsError o.Resp → Task Unit}
      (hprog : (w.handlers d).prog = .await o k) :
      Moves P cfg env w (.stop d)
        { w with
          handlers := Function.update w.handlers d
            { prog := .throw .stopped, queued := (w.handlers d).queued } }
  | take {id : String} {entry : JobEntry} (hjob : w.store.jobs id = some entry)
      (hstatus : entry.status = .waiting) :
      Moves P cfg env w (.take id)
        (w.setJob id (some { entry with
          status := .active (QueueProcessor.process P entry.data) }))
  | worker {id : String} {r : Reply} {entry : JobEntry} {o : Op}
      {k : Except JsError o.Resp → Task Unit} {result : Except JsError o.Resp} {store : Store δ}
      {queued : List (String × String)} (hjob : w.store.jobs id = some entry)
      (hstatus : entry.status = .active (.await o k))
      (hans : Answered env w.store [] o r result store queued) :
      Moves P cfg env w (.worker id r)
        { w with
          store := store.setJob id (some { entry with status := .active (k result) })
          trace := w.trace ++ [⟨.worker id entry.serial, o, result⟩] }
  | complete {id : String} {entry : JobEntry} {u : Unit} (hjob : w.store.jobs id = some entry)
      (hstatus : entry.status = .active (.ret u)) :
      Moves P cfg env w (.settle id)
        { w with
          store := w.store.setJob id entry.removed
          completions := Function.update w.completions (id, entry.serial)
            (QueueProcessor.onCompleted cfg entry.data) }
  | retry {id : String} {entry : JobEntry} {e : JsError} (hjob : w.store.jobs id = some entry)
      (hstatus : entry.status = .active (.throw e)) :
      Moves P cfg env w (.settle id) (w.setJob id (some entry.retried))
  | completion {id : String} {serial : ℕ} {r : Reply} {o : Op}
      {k : Except JsError o.Resp → Task Unit} {result : Except JsError o.Resp} {store : Store δ}
      {queued : List (String × String)} (hprog : w.completions (id, serial) = .await o k)
      (hans : Answered env w.store [] o r result store queued) :
      Moves P cfg env w (.completion id serial r)
        { w with
          store
          completions := Function.update w.completions (id, serial) (k result)
          trace := w.trace ++ [⟨.completion id serial, o, result⟩] }

/-- **What a step can do.** -/
theorem step_eq_some {P : Platform} {cfg : Config} {env : Env} {w w' : World δ} {a : Action δ} :
    w.step P cfg env a = some w' ↔ Moves P cfg env w a w' := by
  constructor
  · intro h
    cases a with
    | handler d r =>
      obtain ⟨⟨prog, queued, w₁⟩, hadv, heq⟩ := Option.map_eq_some_iff.1 h
      obtain ⟨o, k, result, store, hprog, hans, rfl, rfl⟩ := advance_eq_some.1 hadv
      cases heq
      exact .handler hprog hans
    | flush d r =>
      simp only [World.step] at h
      split at h
      next key value queued hq => cases h; exact .flush hq
      next kv queued e hq => cases h; exact .flushFailed hq
      next => cases h
    | stop d =>
      simp only [World.step] at h
      split at h
      next o k hprog => cases h; exact .stop hprog
      next => cases h
    | take id =>
      obtain ⟨entry, hjob, h⟩ := Option.bind_eq_some_iff.1 h
      split at h
      next hstatus => cases h; exact .take hjob hstatus
      next => cases h
    | worker id r =>
      obtain ⟨entry, hjob, h⟩ := Option.bind_eq_some_iff.1 h
      split at h
      next prog hstatus =>
        obtain ⟨⟨prog', queued, w₁⟩, hadv, heq⟩ := Option.map_eq_some_iff.1 h
        obtain ⟨o, k, result, store, rfl, hans, rfl, rfl⟩ := advance_eq_some.1 hadv
        cases heq
        exact .worker hjob hstatus hans
      next => cases h
    | settle id =>
      obtain ⟨entry, hjob, h⟩ := Option.bind_eq_some_iff.1 h
      split at h
      next u hstatus => cases h; exact .complete hjob hstatus
      next e hstatus => cases h; exact .retry hjob hstatus
      next => cases h
    | completion id serial r =>
      obtain ⟨⟨prog, queued, w₁⟩, hadv, heq⟩ := Option.map_eq_some_iff.1 h
      obtain ⟨o, k, result, store, hprog, hans, rfl, rfl⟩ := advance_eq_some.1 hadv
      cases heq
      exact .completion hprog hans
  · intro h
    cases h with
    | handler hprog hans =>
      exact Option.map_eq_some_iff.2
        ⟨_, advance_eq_some.2 ⟨_, _, _, _, hprog, hans, rfl, rfl⟩, rfl⟩
    | flush hqueued => simp only [World.step, hqueued]; rfl
    | flushFailed hqueued => simp only [World.step, hqueued]; rfl
    | stop hprog => simp only [World.step, hprog]; rfl
    | take hjob hstatus =>
      simp only [World.step, hjob, hstatus, Option.bind_eq_bind, Option.bind_some]
    | worker hjob hstatus hans =>
      simp only [World.step, hjob, hstatus, Option.bind_eq_bind, Option.bind_some]
      exact Option.map_eq_some_iff.2
        ⟨_, advance_eq_some.2 ⟨_, _, _, _, rfl, hans, rfl, rfl⟩, rfl⟩
    | complete hjob hstatus =>
      simp only [World.step, hjob, hstatus, Option.bind_eq_bind, Option.bind_some]
    | retry hjob hstatus =>
      simp only [World.step, hjob, hstatus, Option.bind_eq_bind, Option.bind_some]
    | completion hprog hans =>
      exact Option.map_eq_some_iff.2
        ⟨_, advance_eq_some.2 ⟨_, _, _, _, hprog, hans, rfl, rfl⟩, rfl⟩

theorem Action.Succeeds.orStops {δ : Type} {a : Action δ} (h : a.Succeeds) : a.SucceedsOrStops := by
  cases a with
  | stop d => trivial
  | _ => exact h

omit [DecidableEq δ] in
/-- A job is added by a handler. -/
theorem Entry.agent_of_enqueuer {id : String} {entry : Entry δ} {d : δ}
    (h : entry.enqueuer? id = some d) : entry.agent = .handler d := by
  unfold Entry.enqueuer? at h
  split at h
  next d' data id' opts hagent hop =>
    split at h
    · cases h; exact hagent
    · cases h
  next => cases h

/-- A handler that awaits a push can get it done. -/
theorem World.reach_push (P : Platform) (cfg : Config) (env : Env) {w : World δ} {d : δ}
    {key value : String} {k : Except JsError ℕ → Task Unit}
    (hh : w.handlers d = ⟨.await (.rpush key value) k, []⟩) :
    Async.CanReach (World.step P cfg env) Action.Succeeds w fun w' =>
      w'.store = w.store.push d key value ∧ (∀ d', d' ≠ d → w'.handlers d' = w.handlers d') ∧
        ∀ entry ∈ w'.trace, entry ∈ w.trace ∨ entry.op = .rpush key value := by
  have hprog : (w.handlers d).prog = .await (.rpush key value) k := congrArg HandlerState.prog hh
  have hans : Answered env w.store (w.handlers d).queued (.rpush key value) .ok (.ok 0)
      w.store [(key, value)] := by
    rw [hh]
    exact .rpush _ _
  have hissue : w.step P cfg env (.handler d .ok) = some _ := step_eq_some.2 (.handler hprog hans)
  refine (Async.CanReach.one (show (Action.handler d .ok).Succeeds from trivial) hissue rfl).bind ?_
  rintro w₁ rfl
  have hqueued : (Function.update w.handlers d ⟨k (.ok 0), [(key, value)]⟩ d).queued =
      [(key, value)] := by
    rw [Function.update_self]
  refine .one (a := .flush d .ok) trivial (step_eq_some.2 (.flush hqueued)) ?_
  refine ⟨rfl, fun d' hne => ?_, fun entry hmem => ?_⟩
  · exact (Function.update_of_ne hne _ _).trans (Function.update_of_ne hne _ _)
  · rcases List.mem_append.1 hmem with h | h
    · exact Or.inl h
    · rw [List.mem_singleton.1 h]; exact Or.inr rfl

omit [DecidableEq δ] in
/-- An answer adds nothing to the lists. -/
theorem Answered.mem_lists {env : Env} {s store : Store δ} {queued queued' : List (String × String)}
    {o : Op} {r : Reply} {result : Except JsError o.Resp}
    (hans : Answered env s queued o r result store queued') {key : String} {x : δ × String}
    (hx : x ∈ store.lists key) : x ∈ s.lists key := by
  rcases hans.store_cases with rfl | ⟨key', rfl, rfl⟩ | ⟨data, id, opts, rfl, rfl⟩
  · exact hx
  · by_cases hkey : key = key'
    · subst hkey
      rw [Store.clear_self] at hx
      cases hx
    · rwa [Store.clear_of_ne s hkey] at hx
  · rwa [Store.addJob_lists] at hx

/-! ## Deliveries that do nothing -/

/-- Only deliveries whose handlers get to their first await have an effect. -/
structure Started (handler : δ → Task Unit) (w : World δ) : Prop where
  /-- The other handlers stay as they are. -/
  handlers : ∀ d, (∀ o k, handler d ≠ .await o k) →
    w.handlers d = { prog := handler d, queued := [] }
  lists : ∀ key, ∀ x ∈ w.store.lists key, ∃ o k, handler x.1 = .await o k
  trace : ∀ entry ∈ w.trace, ∀ d, entry.agent = .handler d → ∃ o k, handler d = .await o k

namespace Started

variable {P : Platform} {cfg : Config} {env : Env} {handler : δ → Task Unit} {w w' : World δ}

omit [DecidableEq δ] in
theorem init : Started handler (World.init handler) :=
  ⟨fun _ _ => rfl, fun _ _ h => (by cases h), fun _ h => (by cases h)⟩

omit [DecidableEq δ] in
/-- A handler that has changed had got to its first await. -/
theorem await (hw : Started handler w) {d : δ}
    (h : w.handlers d ≠ { prog := handler d, queued := [] }) : ∃ o k, handler d = .await o k := by
  by_contra hne
  exact h (hw.handlers d fun o k hk => hne ⟨o, k, hk⟩)

omit [DecidableEq δ] in
/-- So had one that awaits something. -/
theorem of_prog (hw : Started handler w) {d : δ} {o : Op}
    {k : Except JsError o.Resp → Task Unit} (hprog : (w.handlers d).prog = .await o k) :
    ∃ o k, handler d = .await o k := by
  by_cases heq : w.handlers d = { prog := handler d, queued := [] }
  · rw [heq] at hprog
    exact ⟨o, k, hprog⟩
  · exact hw.await heq

/-- A handler that had got to its first await changes. -/
theorem update (hw : Started handler w) {d : δ} (hd : ∃ o k, handler d = .await o k)
    (h : HandlerState) : ∀ d', (∀ o k, handler d' ≠ .await o k) →
      Function.update w.handlers d h d' = { prog := handler d', queued := [] } := by
  intro d' hd'
  have hne : d' ≠ d := by
    rintro rfl
    obtain ⟨o, k, hk⟩ := hd
    exact hd' o k hk
  rw [Function.update_of_ne hne]
  exact hw.handlers d' hd'

theorem step (hw : Started handler w) {a : Action δ} (h : w.step P cfg env a = some w') :
    Started handler w' := by
  have htrace : ∀ (agent : Agent δ) (o : Op) (result : Except JsError o.Resp),
      (∀ d, agent = .handler d → ∃ o k, handler d = .await o k) →
        ∀ entry ∈ w.trace ++ [⟨agent, o, result⟩], ∀ d, entry.agent = .handler d →
          ∃ o k, handler d = .await o k := by
    intro agent o result hagent entry hmem
    rcases List.mem_append.1 hmem with hmem | hmem
    · exact hw.trace entry hmem
    · rw [List.mem_singleton.1 hmem]
      exact hagent
  cases step_eq_some.1 h with
  | @handler d r o k result store queued hprog hans =>
    have hd := hw.of_prog hprog
    refine ⟨hw.update hd _, fun key x hx => hw.lists key x (hans.mem_lists hx),
      htrace _ _ _ fun d' h => ?_⟩
    cases h
    exact hd
  | @flush d key value queued hqueued =>
    have hd : ∃ o k, handler d = .await o k := hw.await fun h => by rw [h] at hqueued; cases hqueued
    refine ⟨hw.update hd _, fun key' x hx => ?_, hw.trace⟩
    rcases Store.mem_push hx with hx | ⟨rfl, rfl⟩
    · exact hw.lists key' x hx
    · exact hd
  | @flushFailed d e key value queued hqueued =>
    have hd : ∃ o k, handler d = .await o k := hw.await fun h => by rw [h] at hqueued; cases hqueued
    exact ⟨hw.update hd _, hw.lists, hw.trace⟩
  | @stop d o k hprog =>
    exact ⟨hw.update (hw.of_prog hprog) _, hw.lists, hw.trace⟩
  | worker hjob hstatus hans =>
    exact ⟨hw.handlers, fun key x hx => hw.lists key x (hans.mem_lists hx),
      htrace _ _ _ fun d h => by cases h⟩
  | completion hprog hans =>
    exact ⟨hw.handlers, fun key x hx => hw.lists key x (hans.mem_lists hx),
      htrace _ _ _ fun d h => by cases h⟩
  | _ => exact ⟨hw.handlers, hw.lists, hw.trace⟩

theorem of_run {l : List (Action δ)} (h : World.run P cfg env (World.init handler) l = some w) :
    Started handler w :=
  Async.exec_invariant (Started handler) (fun _ => True) (fun _ hw hs => hw.step hs) init
    (fun _ _ => trivial) h

end Started

/-- When no handler gets to its first await, nothing ever happens. -/
theorem run_of_throw {P : Platform} {cfg : Config} {env : Env} {handler : δ → Task Unit}
    (hd : ∀ d, ∃ e, handler d = .throw e) {l : List (Action δ)} {w : World δ}
    (h : World.run P cfg env (World.init handler) l = some w) : w = World.init handler := by
  cases l with
  | nil => cases h; rfl
  | cons a l =>
    obtain ⟨w₁, hs, -⟩ := Async.exec_cons.1 h
    cases step_eq_some.1 hs with
    | @handler d r o k result store queued hprog hans =>
      obtain ⟨e, he⟩ := hd d
      cases he.symm.trans hprog
    | @stop d o k hprog =>
      obtain ⟨e, he⟩ := hd d
      cases he.symm.trans hprog
    | flush hqueued => cases hqueued
    | flushFailed hqueued => cases hqueued
    | take hjob => cases hjob
    | worker hjob => cases hjob
    | complete hjob => cases hjob
    | retry hjob => cases hjob
    | completion hprog => cases hprog

end Tsunagari
