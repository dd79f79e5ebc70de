import Tsunagari.Bridge.History
import Tsunagari.Bridge.Proofs.RecordProofs
import Tsunagari.Bridge.Proofs.TerminationProofs

/-!
# Proofs: every run is made of single courses

Whatever fails, and however the functions are interleaved, what an agent is answered is a path of
one function from its beginning. A job in particular is processed once: `process` never throws, so
that no attempt after the first one is made.
-/

namespace Tsunagari

open Async (Prog)
open QueueProcessor (process onCompleted)

variable {δ : Type} [DecidableEq δ] {P : Platform} {cfg : Config} {env : Env} {w w' : World δ}

/-! ## Answers by agents -/

theorem World.answers_concat {agent : Agent δ} {o : Op} {result : Except JsError o.Resp}
    (htrace : w'.trace = w.trace ++ [⟨agent, o, result⟩]) :
    w'.answers agent = w.answers agent ++ [⟨o, result⟩] := by
  unfold World.answers
  rw [htrace, List.filter_append, List.map_append, List.filter_singleton]
  simp

theorem World.answers_of_ne {agent agent' : Agent δ} {o : Op} {result : Except JsError o.Resp}
    (htrace : w'.trace = w.trace ++ [⟨agent, o, result⟩]) (hne : agent ≠ agent') :
    w'.answers agent' = w.answers agent' := by
  unfold World.answers
  rw [htrace, List.filter_append, List.map_append, List.filter_singleton]
  simp [hne]

theorem World.answers_congr (htrace : w'.trace = w.trace) (agent : Agent δ) :
    w'.answers agent = w.answers agent := by
  unfold World.answers
  rw [htrace]

/-! ## What the others do -/

/-- Another agent leaves a handler on its way. -/
theorem World.Follows.frame {d : δ} {handler : Task Unit} (h : w.Follows d handler)
    (hprog : (w'.handlers d).prog = (w.handlers d).prog)
    (hanswers : w'.answers (.handler d) = w.answers (.handler d)) : w'.Follows d handler := by
  cases h with
  | running h => exact .running (hanswers ▸ hprog ▸ h)
  | stopped h hstop => exact .stopped (hanswers ▸ h) (hprog.trans hstop)

/-- Agents that have nothing to do with a job leave its life as it is. -/
theorem World.Life.frame {id : String} {serial : ℕ} {data : BridgeJob}
    (h : w.Life P cfg id serial data) (hjobs : w'.store.jobs id = w.store.jobs id)
    (hleft : w'.completions (id, serial) = w.completions (id, serial))
    (hworker : w'.answers (.worker id serial) = w.answers (.worker id serial))
    (hcompletion : w'.answers (.completion id serial) = w.answers (.completion id serial)) :
    w'.Life P cfg id serial data := by
  cases h with
  | waiting hjob hserial hdata hstatus hw hc hl =>
    exact .waiting (hjobs.trans hjob) hserial hdata hstatus (hworker.trans hw)
      (hcompletion.trans hc) (hleft.trans hl)
  | active hjob hserial hdata hstatus hw hc hl =>
    exact .active (hjobs.trans hjob) hserial hdata hstatus (hworker ▸ hw) (hcompletion.trans hc)
      (hleft.trans hl)
  | ended hjob hw hc =>
    exact .ended (fun entry he => hjob entry (hjobs ▸ he)) (hworker ▸ hw) (hcompletion ▸ hleft ▸ hc)

omit [DecidableEq δ] in
theorem World.Supplied.mono {jobs : String → Option (BridgeJob × JobOptions)} {id : String}
    {data : BridgeJob} (h : w.Supplied jobs id data) (htrace : ∀ x ∈ w.trace, x ∈ w'.trace) :
    w'.Supplied jobs id data := by
  obtain ⟨opts, h | ⟨d, hd⟩⟩ := h
  · exact ⟨opts, Or.inl h⟩
  · exact ⟨opts, Or.inr ⟨d, htrace _ hd⟩⟩

/-! ## What is left of a job -/

namespace World.Life

variable {id : String} {serial : ℕ} {data : BridgeJob} {entry : JobEntry} {prog : Task Unit}

/-- What is known of a job that a worker runs. -/
theorem of_active (h : w.Life P cfg id serial data) (hjob : w.store.jobs id = some entry)
    (hserial : entry.serial = serial) (hstatus : entry.status = .active prog) :
    entry.data = data ∧ Prog.Path (process P data) (w.answers (.worker id serial)) prog ∧
      w.answers (.completion id serial) = [] ∧ w.completions (id, serial) = .ret () := by
  cases h with
  | waiting hjob' _ _ hstatus' _ _ _ =>
    cases hjob.symm.trans hjob'
    cases hstatus.symm.trans hstatus'
  | active hjob' _ hdata hstatus' hw hc hl =>
    cases hjob.symm.trans hjob'
    cases hstatus.symm.trans hstatus'
    exact ⟨hdata, hw, hc, hl⟩
  | ended hended _ _ => cases hstatus.symm.trans (hended entry hjob hserial)

/-- What is known of a job that waits. -/
theorem of_waiting (h : w.Life P cfg id serial data) (hjob : w.store.jobs id = some entry)
    (hserial : entry.serial = serial) (hstatus : entry.status = .waiting) :
    entry.data = data ∧ w.answers (.worker id serial) = [] ∧
      w.answers (.completion id serial) = [] ∧ w.completions (id, serial) = .ret () := by
  cases h with
  | waiting hjob' _ hdata _ hw hc hl =>
    cases hjob.symm.trans hjob'
    exact ⟨hdata, hw, hc, hl⟩
  | active hjob' _ _ hstatus' _ _ _ =>
    cases hjob.symm.trans hjob'
    cases hstatus.symm.trans hstatus'
  | ended hended _ _ => cases hstatus.symm.trans (hended entry hjob hserial)

/-- A job whose number is not that of the one in the queue has ended. -/
theorem of_serial (h : w.Life P cfg id serial data)
    (hne : ∀ entry, w.store.jobs id = some entry → entry.serial ≠ serial) :
    Prog.Path (process P data) (w.answers (.worker id serial)) (.ret ()) ∧
      Prog.Path (onCompleted cfg data) (w.answers (.completion id serial))
        (w.completions (id, serial)) := by
  cases h with
  | waiting hjob hserial _ _ _ _ _ => exact absurd hserial (hne _ hjob)
  | active hjob hserial _ _ _ _ _ => exact absurd hserial (hne _ hjob)
  | ended _ hw hc => exact ⟨hw, hc⟩

/-- A listener that still has something to do belongs to a job that has ended. -/
theorem of_completions (h : w.Life P cfg id serial data)
    (hne : w.completions (id, serial) ≠ .ret ()) :
    (∀ entry, w.store.jobs id = some entry → entry.serial = serial → entry.status = .completed) ∧
      Prog.Path (process P data) (w.answers (.worker id serial)) (.ret ()) ∧
      Prog.Path (onCompleted cfg data) (w.answers (.completion id serial))
        (w.completions (id, serial)) := by
  cases h with
  | waiting _ _ _ _ _ _ hl => exact absurd hl hne
  | active _ _ _ _ _ _ hl => exact absurd hl hne
  | ended hjob hw hc => exact ⟨hjob, hw, hc⟩

theorem not_failed (h : w.Life P cfg id serial data) (hjob : w.store.jobs id = some entry)
    (hserial : entry.serial = serial) : entry.status ≠ .failed := by
  intro hfailed
  cases h with
  | waiting hjob' _ _ hstatus _ _ _ =>
    cases hjob.symm.trans hjob'
    cases hfailed.symm.trans hstatus
  | active hjob' _ _ hstatus _ _ _ =>
    cases hjob.symm.trans hjob'
    cases hfailed.symm.trans hstatus
  | ended hended _ _ => cases hfailed.symm.trans (hended entry hjob hserial)

/-- Nothing is ever thrown, so that no job is tried again. -/
theorem not_throw (h : w.Life P cfg id serial data) (hjob : w.store.jobs id = some entry)
    (hserial : entry.serial = serial) (e : JsError) : entry.status ≠ .active (.throw e) := by
  intro hstatus
  obtain ⟨-, hpath, -, -⟩ := h.of_active hjob hserial hstatus
  exact (QueueProcessor.process_paid P data).2.of_path hpath

end World.Life

/-! ## The invariant -/

/-- Every agent is on the way of one function. -/
structure Sequential (P : Platform) (cfg : Config)
    (jobs : String → Option (BridgeJob × JobOptions)) (handler : δ → Task Unit) (w : World δ) :
    Prop where
  handlers : ∀ d, w.Follows d (handler d)
  /-- The job in the queue is the last one that was added under its id. -/
  serials : ∀ id entry, w.store.jobs id = some entry → entry.serial + 1 = w.store.added id
  attempts : ∀ id entry, w.store.jobs id = some entry → entry.attemptsMade = 0
  lives : ∀ id serial, serial < w.store.added id →
    ∃ data, w.Supplied jobs id data ∧ w.Life P cfg id serial data
  /-- Nothing has happened to a job that is yet to be added. -/
  fresh : ∀ id serial, w.store.added id ≤ serial → w.answers (.worker id serial) = [] ∧
    w.answers (.completion id serial) = [] ∧ w.completions (id, serial) = .ret ()

namespace Sequential

variable {jobs : String → Option (BridgeJob × JobOptions)} {handler : δ → Task Unit}

theorem init (lists : String → List (δ × String)) :
    Sequential P cfg jobs handler (World.queue lists jobs handler) where
  handlers d := .running (.refl _)
  serials id entry h := by
    obtain ⟨job, hjob, rfl⟩ := Option.map_eq_some_iff.1 h
    simp [World.queue, hjob]
  attempts id entry h := by
    obtain ⟨job, -, rfl⟩ := Option.map_eq_some_iff.1 h
    rfl
  lives id serial h := by
    cases hjob : jobs id with
    | none => simp [World.queue, hjob] at h
    | some job =>
      have hserial : serial = 0 := by simpa [World.queue, hjob] using h
      subst hserial
      have hentry : (World.queue lists jobs handler).store.jobs id =
          some ⟨job.1, job.2, 0, 0, .waiting⟩ := by simp [World.queue, hjob]
      exact ⟨job.1, ⟨job.2, Or.inl hjob⟩, .waiting hentry rfl rfl rfl rfl rfl rfl⟩
  fresh id serial _ := ⟨rfl, rfl, rfl⟩

/-- What an agent does that has nothing to do with jobs. -/
theorem frame (hw : Sequential P cfg jobs handler w) (hjobs : w'.store.jobs = w.store.jobs)
    (hadded : w'.store.added = w.store.added) (hleft : w'.completions = w.completions)
    (hworker : ∀ id serial, w'.answers (.worker id serial) = w.answers (.worker id serial))
    (hcompletion : ∀ id serial,
      w'.answers (.completion id serial) = w.answers (.completion id serial))
    (htrace : ∀ x ∈ w.trace, x ∈ w'.trace) (hhandlers : ∀ d, w'.Follows d (handler d)) :
    Sequential P cfg jobs handler w' where
  handlers := hhandlers
  serials id entry := by rw [hjobs, hadded]; exact hw.serials id entry
  attempts id entry := by rw [hjobs]; exact hw.attempts id entry
  lives id serial h := by
    obtain ⟨data, hsupplied, hlife⟩ := hw.lives id serial (hadded ▸ h)
    exact ⟨data, hsupplied.mono htrace, hlife.frame (congrFun hjobs id) (congrFun hleft _)
      (hworker id serial) (hcompletion id serial)⟩
  fresh id serial h := by
    rw [hworker, hcompletion, hleft]
    exact hw.fresh id serial (hadded ▸ h)

/-- A handler has added a job. -/
theorem addJob (hw : Sequential P cfg jobs handler w) (data : BridgeJob) (id : String)
    (opts : JobOptions)
    (hadd : ∃ d, (⟨.handler d, .add data id opts, .ok ()⟩ : Entry δ) ∈ w.trace) :
    Sequential P cfg jobs handler { w with store := w.store.addJob data id opts } := by
  cases hjob : w.store.jobs id with
  | some entry => rw [Store.addJob_of_some data opts hjob]; exact hw
  | none =>
    have hadded : (w.store.addJob data id opts).added id = w.store.added id + 1 := by
      simp [Store.addJob, hjob]
    have hnew := Store.addJob_of_none data opts hjob
    have hsame : ∀ {id'}, id' ≠ id → (w.store.addJob data id opts).jobs id' = w.store.jobs id' ∧
        (w.store.addJob data id opts).added id' = w.store.added id' :=
      fun hid => ⟨Store.addJob_jobs_of_ne _ _ _ hid, Store.addJob_added_of_ne _ _ _ hid⟩
    refine ⟨fun d => (hw.handlers d).frame rfl rfl, fun id' entry h => ?_, fun id' entry h => ?_,
      fun id' serial h => ?_, fun id' serial h => hw.fresh id' serial ?_⟩
    · by_cases hid : id' = id
      · subst hid
        cases hnew.symm.trans h
        exact hadded.symm
      · show entry.serial + 1 = (w.store.addJob data id opts).added id'
        rw [(hsame hid).2]
        exact hw.serials id' entry ((hsame hid).1 ▸ h)
    · rcases Store.jobs_addJob_cases h with h | ⟨-, -, rfl⟩
      · exact hw.attempts id' entry h
      · rfl
    · by_cases hid : id' = id
      · subst hid
        have hlt : serial < w.store.added id' + 1 := hadded ▸ h
        rcases Nat.lt_succ_iff_lt_or_eq.1 hlt with hlt | rfl
        · obtain ⟨data', hsupplied, hlife⟩ := hw.lives id' serial hlt
          obtain ⟨hworker, hcompletion⟩ := hlife.of_serial fun entry h => by
            rw [hjob] at h
            cases h
          refine ⟨data', hsupplied, .ended (fun entry he hserial => ?_) hworker hcompletion⟩
          cases hnew.symm.trans he
          exact absurd hserial hlt.ne'
        · obtain ⟨hworker, hcompletion, hleft⟩ := hw.fresh id' _ le_rfl
          exact ⟨data, ⟨opts, Or.inr hadd⟩, .waiting hnew rfl rfl rfl hworker hcompletion hleft⟩
      · obtain ⟨data', hsupplied, hlife⟩ := hw.lives id' serial ((hsame hid).2 ▸ h)
        exact ⟨data', hsupplied, hlife.frame (hsame hid).1 rfl rfl rfl⟩
    · refine le_trans ?_ h
      by_cases hid : id' = id
      · subst hid
        exact hadded ▸ Nat.le_succ _
      · exact (hsame hid).2.ge

/-- A worker gets on, or its job ends. -/
theorem replace (hw : Sequential P cfg jobs handler w) {id : String} {entry : JobEntry}
    (hjob : w.store.jobs id = some entry)
    (hjobs : ∀ id', id' ≠ id → w'.store.jobs id' = w.store.jobs id')
    (hadded : w'.store.added = w.store.added)
    (hnew : ∀ entry', w'.store.jobs id = some entry' →
      entry'.serial = entry.serial ∧ entry'.attemptsMade = entry.attemptsMade)
    (hhandlers : ∀ d, (w'.handlers d).prog = (w.handlers d).prog ∧
      w'.answers (.handler d) = w.answers (.handler d))
    (hother : ∀ id' serial, (id', serial) ≠ (id, entry.serial) →
      w'.completions (id', serial) = w.completions (id', serial) ∧
        w'.answers (.worker id' serial) = w.answers (.worker id' serial) ∧
          w'.answers (.completion id' serial) = w.answers (.completion id' serial))
    (htrace : ∀ x ∈ w.trace, x ∈ w'.trace)
    (hlife : ∀ data, w.Life P cfg id entry.serial data → w'.Life P cfg id entry.serial data) :
    Sequential P cfg jobs handler w' := by
  have hserial := hw.serials id entry hjob
  refine ⟨fun d => (hw.handlers d).frame (hhandlers d).1 (hhandlers d).2, fun id' entry' h => ?_,
    fun id' entry' h => ?_, fun id' serial h => ?_, fun id' serial h => ?_⟩
  · rw [hadded]
    by_cases hid : id' = id
    · subst hid
      rw [(hnew entry' h).1, hserial]
    · exact hw.serials id' entry' (hjobs id' hid ▸ h)
  · by_cases hid : id' = id
    · subst hid
      rw [(hnew entry' h).2, hw.attempts id' entry hjob]
    · exact hw.attempts id' entry' (hjobs id' hid ▸ h)
  · obtain ⟨data, hsupplied, hl⟩ := hw.lives id' serial (hadded ▸ h)
    refine ⟨data, hsupplied.mono htrace, ?_⟩
    by_cases hkey : (id', serial) = (id, entry.serial)
    · cases hkey
      exact hlife data hl
    · obtain ⟨hleft, hworker, hcompletion⟩ := hother id' serial hkey
      by_cases hid : id' = id
      · subst hid
        have hne : entry.serial ≠ serial := fun h => hkey (by rw [h])
        obtain ⟨hw', hc'⟩ := hl.of_serial fun entry' h' => by
          cases hjob.symm.trans h'
          exact hne
        refine .ended (fun entry' h' hs => ?_) (hworker ▸ hw') (hcompletion ▸ hleft ▸ hc')
        exact absurd ((hnew entry' h').1.symm.trans hs) hne
      · exact hl.frame (hjobs id' hid) hleft hworker hcompletion
  · have hkey : (id', serial) ≠ (id, entry.serial) := by
      rintro ⟨⟩
      rw [hadded, ← hserial] at h
      omega
    obtain ⟨hleft, hworker, hcompletion⟩ := hother id' serial hkey
    rw [hleft, hworker, hcompletion]
    exact hw.fresh id' serial (hadded ▸ h)

/-- The listener of a completed job gets its operation answered. -/
theorem completion (hw : Sequential P cfg jobs handler w) {id : String} {serial : ℕ} {o : Op}
    {k : Except JsError o.Resp → Task Unit} {result : Except JsError o.Resp} {r : Reply}
    {queued : List (String × String)} (hprog : w.completions (id, serial) = .await o k)
    (hans : Answered env w.store [] o r result w'.store queued)
    (hhandlers : w'.handlers = w.handlers)
    (hcompletions : w'.completions = Function.update w.completions (id, serial) (k result))
    (htrace : w'.trace = w.trace ++ [⟨.completion id serial, o, result⟩]) :
    Sequential P cfg jobs handler w' := by
  have hne : w.completions (id, serial) ≠ .ret () := by rw [hprog]; exact nofun
  have hlt : serial < w.store.added id := by
    by_contra hle
    exact hne (hw.fresh id serial (not_lt.1 hle)).2.2
  obtain ⟨data, hsupplied, hlife⟩ := hw.lives id serial hlt
  obtain ⟨hended, hworker, hcompletion⟩ := hlife.of_completions hne
  rw [hprog] at hcompletion
  have hstore : w'.store = w.store :=
    hans.store_of_completion ((QueueProcessor.all_onCompleted cfg data).of_path hcompletion).1.1
  have hworkers : ∀ id' serial', w'.answers (.worker id' serial') =
      w.answers (.worker id' serial') :=
    fun _ _ => World.answers_of_ne htrace fun h => by cases h
  have hothers : ∀ id' serial', (id', serial') ≠ (id, serial) →
      w'.answers (.completion id' serial') = w.answers (.completion id' serial') ∧
        w'.completions (id', serial') = w.completions (id', serial') := by
    intro id' serial' hkey
    refine ⟨World.answers_of_ne htrace ?_, ?_⟩
    · rintro ⟨⟩
      exact hkey rfl
    · rw [hcompletions, Function.update_of_ne hkey]
  have hmem : ∀ x ∈ w.trace, x ∈ w'.trace := fun x hx => htrace ▸ List.mem_append_left _ hx
  refine ⟨fun d => (hw.handlers d).frame (by rw [hhandlers])
      (World.answers_of_ne htrace fun h => by cases h), fun id' entry => ?_, fun id' entry => ?_,
    fun id' serial' h => ?_, fun id' serial' h => ?_⟩
  · rw [hstore]
    exact hw.serials id' entry
  · rw [hstore]
    exact hw.attempts id' entry
  · rw [hstore] at h
    obtain ⟨data', hsupplied', hlife'⟩ := hw.lives id' serial' h
    by_cases hkey : (id', serial') = (id, serial)
    · cases hkey
      refine ⟨data, hsupplied.mono hmem, .ended (hstore ▸ hended) ?_ ?_⟩
      · rw [hworkers]
        exact hworker
      · rw [World.answers_concat htrace, hcompletions, Function.update_self]
        exact hcompletion.concat result
    · obtain ⟨hanswers, hleft⟩ := hothers id' serial' hkey
      exact ⟨data', hsupplied'.mono hmem,
        hlife'.frame (by rw [hstore]) hleft (hworkers ..) hanswers⟩
  · rw [hstore] at h
    have hkey : (id', serial') ≠ (id, serial) := by
      rintro ⟨⟩
      exact absurd hlt (not_lt.2 h)
    obtain ⟨hanswers, hleft⟩ := hothers id' serial' hkey
    rw [hworkers, hanswers, hleft]
    exact hw.fresh id' serial' h

/-- A handler that is on its way gets its operation answered. -/
theorem follows_handler (hw : Sequential P cfg jobs handler w) {d : δ} {o : Op}
    {k : Except JsError o.Resp → Task Unit} {result : Except JsError o.Resp}
    {queued : List (String × String)} (hprog : (w.handlers d).prog = .await o k)
    (hhandlers : w'.handlers = Function.update w.handlers d { prog := k result, queued })
    (htrace : w'.trace = w.trace ++ [⟨.handler d, o, result⟩]) (d' : δ) :
    w'.Follows d' (handler d') := by
  by_cases hd : d' = d
  · subst hd
    cases hw.handlers d' with
    | running h =>
      rw [hprog] at h
      refine .running ?_
      rw [World.answers_concat htrace, hhandlers, Function.update_self]
      exact h.concat result
    | stopped _ hstop => cases hprog.symm.trans hstop
  · refine (hw.handlers d').frame ?_ (World.answers_of_ne htrace ?_)
    · rw [hhandlers, Function.update_of_ne hd]
    · rintro ⟨⟩
      exact hd rfl

/-- The commands under way are not part of what a handler follows. -/
theorem follows_flush (hw : Sequential P cfg jobs handler w) {d : δ}
    {queued : List (String × String)}
    (hhandlers : w'.handlers = Function.update w.handlers d
      { prog := (w.handlers d).prog, queued })
    (htrace : w'.trace = w.trace) (d' : δ) : w'.Follows d' (handler d') := by
  refine (hw.handlers d').frame ?_ (World.answers_congr htrace _)
  by_cases hd : d' = d
  · subst hd
    rw [hhandlers, Function.update_self]
  · rw [hhandlers, Function.update_of_ne hd]

/-- A node stops. -/
theorem follows_stop (hw : Sequential P cfg jobs handler w) {d : δ} {o : Op}
    {k : Except JsError o.Resp → Task Unit} {queued : List (String × String)}
    (hprog : (w.handlers d).prog = .await o k)
    (hhandlers : w'.handlers = Function.update w.handlers d { prog := .throw .stopped, queued })
    (htrace : w'.trace = w.trace) (d' : δ) : w'.Follows d' (handler d') := by
  have hanswers := World.answers_congr htrace (.handler d')
  by_cases hd : d' = d
  · subst hd
    cases hw.handlers d' with
    | running h =>
      rw [hprog] at h
      refine .stopped (hanswers ▸ h) ?_
      rw [hhandlers, Function.update_self]
    | stopped _ hstop => cases hprog.symm.trans hstop
  · refine (hw.handlers d').frame ?_ hanswers
    rw [hhandlers, Function.update_of_ne hd]

/-- The worker of a job gets its operation answered. -/
theorem worker (hw : Sequential P cfg jobs handler w) {id : String} {entry : JobEntry} {o : Op}
    {k : Except JsError o.Resp → Task Unit} {result : Except JsError o.Resp} {r : Reply}
    {store : Store δ} {queued : List (String × String)} (hjob : w.store.jobs id = some entry)
    (hstatus : entry.status = .active (.await o k))
    (hans : Answered env w.store [] o r result store queued)
    (hstore : w'.store = store.setJob id (some { entry with status := .active (k result) }))
    (hhandlers : w'.handlers = w.handlers) (hcompletions : w'.completions = w.completions)
    (htrace : w'.trace = w.trace ++ [⟨.worker id entry.serial, o, result⟩]) :
    Sequential P cfg jobs handler w' := by
  have hlt : entry.serial < w.store.added id := hw.serials id entry hjob ▸ Nat.lt_succ_self _
  obtain ⟨data, -, hlife⟩ := hw.lives id entry.serial hlt
  obtain ⟨-, hpath, -, -⟩ := hlife.of_active hjob rfl hstatus
  have ho : o.OfWorker data.message := ((QueueProcessor.all_process P data).of_path hpath).1.1
  obtain ⟨hjobs, hadded⟩ : store.jobs = w.store.jobs ∧ store.added = w.store.added := by
    rcases hans.store_cases with rfl | ⟨key, rfl, rfl⟩ | ⟨data', id', opts, rfl, rfl⟩
    · exact ⟨rfl, rfl⟩
    · exact ⟨rfl, rfl⟩
    · exact absurd ho not_false
  have hself : w'.store.jobs id = some { entry with status := .active (k result) } := by
    rw [hstore, Store.setJob_self]
  have hcompletion : ∀ id' serial, w'.answers (.completion id' serial) =
      w.answers (.completion id' serial) :=
    fun _ _ => World.answers_of_ne htrace fun h => by cases h
  refine hw.replace hjob (fun id' hid => ?_) ?_ (fun entry' h => ?_) (fun d => ⟨by rw [hhandlers],
    World.answers_of_ne htrace fun h => by cases h⟩) (fun id' serial hkey => ⟨by rw [hcompletions],
      World.answers_of_ne htrace ?_, hcompletion id' serial⟩)
    (fun x hx => htrace ▸ List.mem_append_left _ hx) fun data' hlife' => ?_
  · rw [hstore, Store.setJob_of_ne _ _ hid, hjobs]
  · rw [hstore]
    exact hadded
  · cases hself.symm.trans h
    exact ⟨rfl, rfl⟩
  · rintro ⟨⟩
    exact hkey rfl
  · obtain ⟨hdata, hpath', hc, hleft⟩ := hlife'.of_active hjob rfl hstatus
    refine .active hself rfl hdata rfl ?_ ((hcompletion ..).trans hc) ?_
    · rw [World.answers_concat htrace]
      exact hpath'.concat result
    · rw [hcompletions, hleft]

/-- `process` has ended. -/
theorem complete (hw : Sequential P cfg jobs handler w) {id : String} {entry : JobEntry} {u : Unit}
    (hjob : w.store.jobs id = some entry) (hstatus : entry.status = .active (.ret u))
    (hstore : w'.store = w.store.setJob id entry.removed) (hhandlers : w'.handlers = w.handlers)
    (hcompletions : w'.completions =
      Function.update w.completions (id, entry.serial) (onCompleted cfg entry.data))
    (htrace : w'.trace = w.trace) : Sequential P cfg jobs handler w' := by
  have hanswers := World.answers_congr htrace
  have hself : ∀ entry', w'.store.jobs id = some entry' →
      entry' = { entry with status := .completed } := by
    intro entry' h
    rw [hstore, Store.setJob_self, JobEntry.removed] at h
    split at h <;> cases h
    rfl
  refine hw.replace hjob (fun id' hid => ?_) (by rw [hstore]; rfl) (fun entry' h => ?_)
    (fun d => ⟨by rw [hhandlers], hanswers _⟩)
    (fun id' serial hkey => ⟨?_, hanswers _, hanswers _⟩) (fun x hx => htrace ▸ hx)
    fun data hlife => ?_
  · rw [hstore, Store.setJob_of_ne _ _ hid]
  · rw [hself entry' h]
    exact ⟨rfl, rfl⟩
  · rw [hcompletions, Function.update_of_ne hkey]
  · obtain ⟨rfl, hpath, hc, -⟩ := hlife.of_active hjob rfl hstatus
    refine .ended (fun entry' h _ => ?_) (hanswers _ ▸ hpath) ?_
    · rw [hself entry' h]
    · rw [hanswers, hc, hcompletions, Function.update_self]
      exact .refl _

/-- One step leaves every agent on its way. -/
theorem step (hw : Sequential P cfg jobs handler w) {a : Action δ}
    (h : w.step P cfg env a = some w') : Sequential P cfg jobs handler w' := by
  cases step_eq_some.1 h with
  | @handler d r o k result store queued hprog hans =>
    have hsame : Sequential P cfg jobs handler { w with
        handlers := Function.update w.handlers d { prog := k result, queued }
        trace := w.trace ++ [⟨.handler d, o, result⟩] } :=
      hw.frame rfl rfl rfl (fun _ _ => World.answers_of_ne rfl fun h => by cases h)
        (fun _ _ => World.answers_of_ne rfl fun h => by cases h) (fun x => List.mem_append_left _)
        (hw.follows_handler hprog rfl rfl)
    cases hans with
    | add data id opts =>
      exact hsame.addJob data id opts ⟨d, List.mem_append_right _ (List.mem_singleton_self _)⟩
    | del key =>
      exact hsame.frame rfl rfl rfl (fun _ _ => rfl) (fun _ _ => rfl) (fun _ h => h) fun d =>
        (hsame.handlers d).frame rfl rfl
    | _ => exact hsame
  | flush hqueued =>
    exact hw.frame rfl rfl rfl (fun _ _ => rfl) (fun _ _ => rfl) (fun _ h => h)
      (hw.follows_flush rfl rfl)
  | flushFailed hqueued =>
    exact hw.frame rfl rfl rfl (fun _ _ => rfl) (fun _ _ => rfl) (fun _ h => h)
      (hw.follows_flush rfl rfl)
  | stop hprog =>
    exact hw.frame rfl rfl rfl (fun _ _ => rfl) (fun _ _ => rfl) (fun _ h => h)
      (hw.follows_stop hprog rfl rfl)
  | @take id entry hjob hstatus =>
    refine hw.replace hjob (fun id' hid => Store.setJob_of_ne _ _ hid) rfl (fun entry' h => ?_)
      (fun _ => ⟨rfl, rfl⟩) (fun _ _ _ => ⟨rfl, rfl, rfl⟩) (fun _ h => h) fun data hlife => ?_
    · cases (Store.setJob_self ..).symm.trans h
      exact ⟨rfl, rfl⟩
    · obtain ⟨rfl, hworker, hcompletion, hleft⟩ := hlife.of_waiting hjob rfl hstatus
      refine .active (Store.setJob_self ..) rfl rfl rfl ?_ hcompletion hleft
      show Prog.Path _ (w.answers _) _
      rw [hworker]
      exact .refl _
  | worker hjob hstatus hans => exact hw.worker hjob hstatus hans rfl rfl rfl rfl
  | complete hjob hstatus => exact hw.complete hjob hstatus rfl rfl rfl rfl
  | @retry id entry e hjob hstatus =>
    have hlt : entry.serial < w.store.added id := hw.serials id entry hjob ▸ Nat.lt_succ_self _
    obtain ⟨data, -, hlife⟩ := hw.lives id entry.serial hlt
    exact absurd hstatus (hlife.not_throw hjob rfl e)
  | completion hprog hans => exact hw.completion hprog hans rfl rfl rfl

theorem of_run {lists : String → List (δ × String)} {l : List (Action δ)}
    (h : World.run P cfg env (World.queue lists jobs handler) l = some w) :
    Sequential P cfg jobs handler w :=
  Async.exec_invariant (Sequential P cfg jobs handler) (fun _ => True) (fun _ hw hs => hw.step hs)
    (init lists) (fun _ _ => trivial) h

end Sequential

namespace Sequential

variable {jobs : String → Option (BridgeJob × JobOptions)} {handler : δ → Task Unit}

/-- What a worker was answered is a path of `process`. -/
theorem path_worker (hw : Sequential P cfg jobs handler w) (id : String) (serial : ℕ) :
    w.answers (.worker id serial) = [] ∨ ∃ data prog, w.Supplied jobs id data ∧
      serial < w.store.added id ∧
        Prog.Path (process P data) (w.answers (.worker id serial)) prog := by
  rcases lt_or_ge serial (w.store.added id) with hlt | hge
  · obtain ⟨data, hsupplied, hlife⟩ := hw.lives id serial hlt
    cases hlife with
    | waiting _ _ _ _ hworker _ _ => exact Or.inl hworker
    | active _ _ _ _ hworker _ _ => exact Or.inr ⟨data, _, hsupplied, hlt, hworker⟩
    | ended _ hworker _ => exact Or.inr ⟨data, _, hsupplied, hlt, hworker⟩
  · exact Or.inl (hw.fresh id serial hge).1

/-- What the listener of a completed job was answered is a path of `onCompleted`. -/
theorem path_completion (hw : Sequential P cfg jobs handler w) (id : String) (serial : ℕ) :
    w.answers (.completion id serial) = [] ∨ ∃ data prog, w.Supplied jobs id data ∧
      serial < w.store.added id ∧
        Prog.Path (onCompleted cfg data) (w.answers (.completion id serial)) prog := by
  rcases lt_or_ge serial (w.store.added id) with hlt | hge
  · obtain ⟨data, hsupplied, hlife⟩ := hw.lives id serial hlt
    cases hlife with
    | waiting _ _ _ _ _ hcompletion _ => exact Or.inl hcompletion
    | active _ _ _ _ _ hcompletion _ => exact Or.inl hcompletion
    | ended _ _ hcompletion => exact Or.inr ⟨data, _, hsupplied, hlt, hcompletion⟩
  · exact Or.inl (hw.fresh id serial hge).2.1

/-- What a handler was answered is a path of it. -/
theorem path_handler (hw : Sequential P cfg jobs handler w) (d : δ) :
    ∃ prog, Prog.Path (handler d) (w.answers (.handler d)) prog := by
  cases hw.handlers d with
  | running h => exact ⟨_, h⟩
  | stopped h _ => exact ⟨_, h⟩

end Sequential

/-! ## The courses of a run -/

/-- **Every run is made of single courses.** Whatever fails and whoever stops, the operations that
were answered are those of handlers, of one call of `process` for every job that was taken, and of
one call of `onCompleted` for every job whose `process` has ended; no job fails or is tried
again. -/
theorem courses_of_run {lists : String → List (δ × String)}
    {jobs : String → Option (BridgeJob × JobOptions)} {handler : δ → Task Unit}
    {l : List (Action δ)} (hrun : World.run P cfg env (World.queue lists jobs handler) l = some w) :
    (∀ d, w.Follows d (handler d)) ∧
      (∀ id serial, serial < w.store.added id →
        ∃ data, w.Supplied jobs id data ∧ w.Life P cfg id serial data) ∧
      (∀ id serial, w.store.added id ≤ serial →
        w.answers (.worker id serial) = [] ∧ w.answers (.completion id serial) = []) ∧
      ∀ id entry, w.store.jobs id = some entry →
        entry.attemptsMade = 0 ∧ entry.status ≠ .failed := by
  have hw := Sequential.of_run hrun
  refine ⟨hw.handlers, hw.lives, fun id serial h => ?_, fun id entry hjob => ?_⟩
  · obtain ⟨hworker, hcompletion, -⟩ := hw.fresh id serial h
    exact ⟨hworker, hcompletion⟩
  · have hlt : entry.serial < w.store.added id := hw.serials id entry hjob ▸ Nat.lt_succ_self _
    obtain ⟨data, -, hlife⟩ := hw.lives id entry.serial hlt
    exact ⟨hw.attempts id entry hjob, hlife.not_failed hjob rfl⟩

/-- The list cannot be read: the job has ended after one call of `process`, and is recorded. -/
theorem courses_of_run_sample :
    ∃ w : World (Fin 3), World.run Sample.platform Sample.config (Sample.env 1 1) Sample.queue
        [.take "jobID: 2361242049",
          .worker "jobID: 2361242049" (.error (.rejected "Connection is closed.")),
          .settle "jobID: 2361242049", .completion "jobID: 2361242049" 0 .ok] = some w ∧
      (w.stored "jobID: 2361242049" = [0] ∧ w.store.added "jobID: 2361242049" = 1) ∧
        ∃ data, w.Life Sample.platform Sample.config "jobID: 2361242049" 0 data := by
  have heval : (World.run Sample.platform Sample.config (Sample.env 1 1) Sample.queue
      [.take "jobID: 2361242049",
        .worker "jobID: 2361242049" (.error (.rejected "Connection is closed.")),
        .settle "jobID: 2361242049", .completion "jobID: 2361242049" 0 .ok]).map
      (fun w => (w.stored "jobID: 2361242049", w.store.added "jobID: 2361242049")) =
        some ([0], 1) := by decide +kernel
  obtain ⟨w, hrun, heq⟩ := Option.map_eq_some_iff.1 heval
  obtain ⟨hstored, hadded⟩ := Prod.mk.inj heq
  obtain ⟨-, hlives, -, -⟩ := courses_of_run hrun
  obtain ⟨data, -, hlife⟩ := hlives "jobID: 2361242049" 0 (hadded ▸ Nat.one_pos)
  exact ⟨w, hrun, ⟨hstored, hadded⟩, data, hlife⟩

end Tsunagari
