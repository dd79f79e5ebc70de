import Tsunagari.Bridge.Proofs.ProcessorProofs
import Tsunagari.Bridge.Proofs.WorldProofs
import Tsunagari.Bridge.Queue
import Tsunagari.Bridge.Sample

/-!
# Proofs: when the recorded transfers were delivered

The listener of completed jobs records every job whose `process` has ended, which it always does
without an error. The records are right in the runs in which nothing fails and no job is added
again.
-/

namespace Tsunagari

open Async (Along Prog)
open QueueProcessor (Course Decodes deliver onCompleted)

variable {δ : Type} {P : Platform} {cfg : Config} {env : Env} {w w' : World δ}

/-! ## The course of a worker -/

/-- The worker's operation is answered without a failure. -/
theorem QueueProcessor.Course.serve {data : BridgeJob} {D : Prop} {o : Op}
    {k : Except JsError o.Resp → Task Unit} {r : Reply} {result : Except JsError o.Resp}
    {s store : Store δ} {queued queued' : List (String × String)}
    (h : Course P data (fun _ => Decodes P data) D (.await o k))
    (hans : Answered env s queued o r result store queued') (hserved : o.Served P s data r) :
    Course P data (fun _ => Decodes P data) (D ∨ o.Delivered result) (k result) ∧
      store.jobs = s.jobs ∧ store.added = s.added := by
  generalize hp : Prog.await o k = prog at h
  cases h with
  | start =>
    cases hp
    cases hans with
    | failed _ e => exact absurd hserved.1 not_false
    | lrange key hq =>
      obtain ⟨-, hne, hdec⟩ := hserved
      exact ⟨.afterRead (fun _ => hdec) (fun h => absurd (List.map_eq_nil_iff.1 h) hne), rfl, rfl⟩
  | held vs hdec =>
    cases hp
    cases hans with
    | failed _ e => exact ⟨.cleared vs hdec, rfl, rfl⟩
    | del key hq => exact ⟨.cleared vs hdec, rfl, rfl⟩
  | cleared vs hdec =>
    obtain ⟨c, hc⟩ := hdec.call vs
    unfold deliver at hp
    rw [hc] at hp
    cases c with
    | evm c =>
      cases hp
      cases hans with
      | failed _ e => exact absurd hserved not_false
      | callEvm _ status => exact ⟨.served (Or.inr hserved), rfl, rfl⟩
    | solana c =>
      cases hp
      cases hans with
      | failed _ e => exact absurd hserved not_false
      | callSolana _ status txSignature => exact ⟨.served (Or.inr hserved), rfl, rfl⟩
  | served h => cases hp

/-! ## The invariant -/

/-- No job with the id has been completed. -/
def World.Pending (w : World δ) (id : String) : Prop :=
  w.store.added id = 0 ∨ ∃ entry, w.store.jobs id = some entry ∧ entry.Outstanding

/-- A transaction of the job has succeeded. -/
def World.Delivered (w : World δ) (id : String) : Prop := ∃ x ∈ w.trace, x.Delivers id 0

/-- No job has been added twice, and the completed ones have been delivered. -/
structure Recorded (P : Platform) (cfg : Config) (w : World δ) : Prop where
  serials : ∀ id entry, w.store.jobs id = some entry → entry.serial = 0 ∧ w.store.added id ≠ 0
  pending : ∀ id, w.Pending id → (∀ s, w.completions (id, s) = .ret ()) ∧ w.stored id = []
  active : ∀ id entry prog, w.store.jobs id = some entry → entry.status = .active prog →
    Course P entry.data (fun _ => Decodes P entry.data) (w.Delivered id) prog
  completions : ∀ id s, w.completions (id, s) = .ret () ∨
    (s = 0 ∧ w.stored id = [] ∧ w.Delivered id ∧
      ∃ data, w.completions (id, s) = onCompleted cfg data)
  once : ∀ id, (w.stored id).length ≤ 1
  preceded : ∀ id s, ∀ entry ∈ w.trace, entry.stores? id = some s →
    ∃ x : Entry δ, x.Delivers id s ∧ [x, entry].Sublist w.trace

namespace Recorded

theorem init (lists : String → List (δ × String)) (jobs : String → Option (BridgeJob × JobOptions))
    (handler : δ → Task Unit) : Recorded P cfg (World.queue lists jobs handler) where
  serials id entry h := by
    obtain ⟨job, hjob, rfl⟩ := Option.map_eq_some_iff.1 h
    refine ⟨rfl, ?_⟩
    simp [World.queue, hjob]
  pending id _ := ⟨fun _ => rfl, rfl⟩
  active id entry prog h hstatus := by
    obtain ⟨job, -, rfl⟩ := Option.map_eq_some_iff.1 h
    cases hstatus
  completions id s := Or.inl rfl
  once id := Nat.zero_le 1
  preceded id s entry h := by cases h

/-- What is recorded depends only on the listeners of completed jobs. -/
theorem stored_append {l : List (Entry δ)} (htrace : w'.trace = w.trace ++ l)
    (hl : ∀ x ∈ l, ∀ id, x.stores? id = none) (id : String) : w'.stored id = w.stored id := by
  rw [World.stored, htrace, List.filterMap_append,
    List.filterMap_eq_nil_iff.2 fun x hx => hl x hx id, List.append_nil]
  rfl

theorem delivered_append {l : List (Entry δ)} (htrace : w'.trace = w.trace ++ l) {id : String}
    (h : w.Delivered id) : w'.Delivered id := by
  obtain ⟨x, hx, hdel⟩ := h
  exact ⟨x, htrace ▸ List.mem_append_left _ hx, hdel⟩

/-- The jobs and their completions stay as they are. -/
theorem frame (hw : Recorded P cfg w) {l : List (Entry δ)} (hjobs : w'.store.jobs = w.store.jobs)
    (hadded : w'.store.added = w.store.added) (hcompletions : w'.completions = w.completions)
    (htrace : w'.trace = w.trace ++ l) (hl : ∀ x ∈ l, ∀ id, x.stores? id = none) :
    Recorded P cfg w' where
  serials id entry := by rw [hjobs, hadded]; exact hw.serials id entry
  pending id h := by
    rw [hcompletions, stored_append htrace hl]
    refine hw.pending id ?_
    rwa [World.Pending, hadded, hjobs] at h
  active id entry prog h hstatus :=
    (hw.active id entry prog (hjobs ▸ h) hstatus).mono (delivered_append htrace)
  completions id s := by
    rw [hcompletions, stored_append htrace hl]
    rcases hw.completions id s with h | ⟨hs, hstored, hdel, hdata⟩
    · exact Or.inl h
    · exact Or.inr ⟨hs, hstored, delivered_append htrace hdel, hdata⟩
  once id := by rw [stored_append htrace hl]; exact hw.once id
  preceded id s entry hmem hentry := by
    rw [htrace] at hmem ⊢
    rcases List.mem_append.1 hmem with hmem | hmem
    · obtain ⟨x, hx, hsub⟩ := hw.preceded id s entry hmem hentry
      exact ⟨x, hx, hsub.trans (List.sublist_append_left ..)⟩
    · rw [hl entry hmem] at hentry
      cases hentry

/-- A job is added under an id that has not been used. -/
theorem addJob (hw : Recorded P cfg w) (data : BridgeJob) (id : String) (opts : JobOptions)
    (hnew : w.store.jobs id = none → w.store.added id = 0) :
    Recorded P cfg { w with store := w.store.addJob data id opts } := by
  cases hjob : w.store.jobs id with
  | some entry => rw [Store.addJob_of_some data opts hjob]; exact hw
  | none =>
    have hadded : (w.store.addJob data id opts).added id = w.store.added id + 1 := by
      simp [Store.addJob, hjob]
    refine ⟨fun id' entry h => ?_, fun id' h => ?_, fun id' entry prog h hstatus => ?_,
      hw.completions, hw.once, hw.preceded⟩
    · by_cases hid : id' = id
      · subst hid
        rcases Store.jobs_addJob_cases h with h | ⟨-, -, rfl⟩
        · rw [hjob] at h; cases h
        · exact ⟨hnew hjob, hadded.trans_ne (Nat.succ_ne_zero _)⟩
      · rw [Store.addJob_jobs_of_ne _ _ _ hid] at h
        rw [Store.addJob_added_of_ne _ _ _ hid]
        exact hw.serials id' entry h
    · by_cases hid : id' = id
      · subst hid
        exact hw.pending id' (Or.inl (hnew hjob))
      · refine hw.pending id' ?_
        rwa [World.Pending, Store.addJob_jobs_of_ne _ _ _ hid,
          Store.addJob_added_of_ne _ _ _ hid] at h
    · rcases Store.jobs_addJob_cases h with h | ⟨-, -, rfl⟩
      · exact hw.active id' entry prog h hstatus
      · cases hstatus

/-- The worker of a job gets on. -/
theorem setActive (hw : Recorded P cfg w) {id : String} {entry : JobEntry} {prog : Task Unit}
    (hjob : w.store.jobs id = some entry) (hout : entry.Outstanding)
    (hcourse : Course P entry.data (fun _ => Decodes P entry.data) (w.Delivered id) prog) :
    Recorded P cfg (w.setJob id (some { entry with status := .active prog })) := by
  refine ⟨fun id' entry' h => ?_, fun id' h => hw.pending id' ?_,
    fun id' entry' prog' h hstatus => ?_, hw.completions, hw.once, hw.preceded⟩
  · rcases Store.jobs_setJob_cases h with ⟨rfl, ⟨⟩⟩ | ⟨-, h⟩
    · exact hw.serials id' entry hjob
    · exact hw.serials id' entry' h
  · rcases h with h | ⟨entry', h, hout'⟩
    · exact Or.inl h
    · rcases Store.jobs_setJob_cases h with ⟨rfl, -⟩ | ⟨-, h⟩
      · exact Or.inr ⟨entry, hjob, hout⟩
      · exact Or.inr ⟨entry', h, hout'⟩
  · rcases Store.jobs_setJob_cases h with ⟨rfl, ⟨⟩⟩ | ⟨-, h⟩
    · cases hstatus
      exact hcourse
    · exact hw.active id' entry' prog' h hstatus

/-- The job has been delivered, and its completion is going to be recorded. -/
theorem complete (hw : Recorded P cfg w) {id : String} {entry : JobEntry} {u : Unit}
    (hjob : w.store.jobs id = some entry) (hstatus : entry.status = .active (.ret u)) :
    Recorded P cfg { w with
      store := w.store.setJob id entry.removed
      completions := Function.update w.completions (id, entry.serial)
        (onCompleted cfg entry.data) } := by
  obtain ⟨hserial, hadded⟩ := hw.serials id entry hjob
  obtain ⟨-, hstored⟩ := hw.pending id (Or.inr ⟨entry, hjob, Or.inr ⟨_, hstatus⟩⟩)
  have hdel := (hw.active id entry _ hjob hstatus).of_ret fun _ h => h
  have hupdate : Function.update w.completions (id, entry.serial) (onCompleted cfg entry.data)
      (id, entry.serial) = onCompleted cfg entry.data := Function.update_self ..
  have hremoved : ∀ entry', entry.removed = some entry' →
      entry' = { entry with status := .completed } := by
    intro entry' h
    unfold JobEntry.removed at h
    split at h <;> cases h
    rfl
  refine ⟨fun id' entry' h => ?_, fun id' h => ?_, fun id' entry' prog h hst => ?_, fun id' s => ?_,
    hw.once, hw.preceded⟩
  · rcases Store.jobs_setJob_cases h with ⟨rfl, hnew⟩ | ⟨-, h⟩
    · rw [hremoved entry' hnew]
      exact ⟨hserial, hadded⟩
    · exact hw.serials id' entry' h
  · obtain ⟨hid, hpending⟩ : id' ≠ id ∧ w.Pending id' := by
      rcases h with h | ⟨entry', h, hout⟩
      · exact ⟨fun hid => hadded (hid ▸ h), Or.inl h⟩
      · rcases Store.jobs_setJob_cases h with ⟨rfl, hnew⟩ | ⟨hid, h⟩
        · rw [hremoved entry' hnew] at hout
          rcases hout with h | ⟨prog, h⟩ <;> cases h
        · exact ⟨hid, Or.inr ⟨entry', h, hout⟩⟩
    exact ⟨fun s => (Function.update_of_ne (fun h => hid (Prod.ext_iff.1 h).1) _ _).trans
      ((hw.pending id' hpending).1 s), (hw.pending id' hpending).2⟩
  · rcases Store.jobs_setJob_cases h with ⟨rfl, hnew⟩ | ⟨-, h⟩
    · rw [hremoved entry' hnew] at hst
      cases hst
    · exact hw.active id' entry' prog h hst
  · by_cases hkey : (id', s) = (id, entry.serial)
    · cases hkey
      exact Or.inr ⟨hserial, hstored, hdel, entry.data, hupdate⟩
    · rcases hw.completions id' s with h | ⟨hs, hst, hd, data, h⟩
      · exact Or.inl ((Function.update_of_ne hkey _ _).trans h)
      · exact Or.inr ⟨hs, hst, hd, data, (Function.update_of_ne hkey _ _).trans h⟩

/-- The transfer is recorded, or the attempt fails. -/
theorem record (hw : Recorded P cfg w) {id : String} {serial : ℕ} {o : Op}
    {k : Except JsError o.Resp → Task Unit} {result : Except JsError o.Resp} {r : Reply}
    {store : Store δ} {queued queued' : List (String × String)}
    (hprog : w.completions (id, serial) = .await o k)
    (hans : Answered env w.store queued o r result store queued') :
    Recorded P cfg { w with
      store
      completions := Function.update w.completions (id, serial) (k result)
      trace := w.trace ++ [⟨.completion id serial, o, result⟩] } := by
  rcases hw.completions id serial with h | ⟨rfl, hstored, hdel, data, h⟩
  · rw [h] at hprog; cases hprog
  unfold onCompleted at h
  rw [h] at hprog
  cases hprog
  have hstore : store = w.store := by cases hans <;> rfl
  subst hstore
  have hstored' : ∀ id', (w.trace ++ [(⟨.completion id 0, _, result⟩ : Entry δ)]).filterMap
      (Entry.stores? id') = w.stored id' ++ if id' = id then [0] else [] := by
    intro id'
    rw [List.filterMap_append]
    by_cases hid : id' = id
    · subst hid
      rw [if_pos rfl]
      exact congrArg _ (List.filterMap_cons_some (if_pos rfl))
    · rw [if_neg hid]
      exact congrArg _ (List.filterMap_cons_none (if_neg (fun h => hid h.symm)))
  have hne : ∀ {id'}, id' ≠ id → (w.trace ++ [(⟨.completion id 0, _, result⟩ : Entry δ)]).filterMap
      (Entry.stores? id') = w.stored id' := by
    intro id' hid
    rw [hstored' id', if_neg hid, List.append_nil]
  refine ⟨hw.serials, fun id' hp => ?_, fun id' entry prog hjob hstatus => ?_, fun id' s => ?_,
    fun id' => ?_, fun id' s entry hmem hentry => ?_⟩
  · have hid : id' ≠ id := by
      rintro rfl
      have := (hw.pending id' hp).1 0
      rw [h] at this
      cases this
    exact ⟨fun s => (Function.update_of_ne (fun h => hid (Prod.ext_iff.1 h).1) _ _).trans
      ((hw.pending id' hp).1 s), (hne hid).trans (hw.pending id' hp).2⟩
  · exact (hw.active id' entry prog hjob hstatus).mono (delivered_append rfl)
  · by_cases hkey : (id', s) = (id, 0)
    · cases hkey
      refine Or.inl ((Function.update_self ..).trans ?_)
      cases result <;> rfl
    · rcases hw.completions id' s with hc | ⟨rfl, hst, hd, data', hc⟩
      · exact Or.inl ((Function.update_of_ne hkey _ _).trans hc)
      · have hid : id' ≠ id := fun h => hkey (by rw [h])
        exact Or.inr ⟨rfl, (hne hid).trans hst, delivered_append rfl hd, data',
          (Function.update_of_ne hkey _ _).trans hc⟩
  · show (List.filterMap _ _).length ≤ 1
    rw [hstored' id']
    by_cases hid : id' = id
    · subst hid
      rw [if_pos rfl, hstored]
      exact le_rfl
    · rw [if_neg hid, List.append_nil]
      exact hw.once id'
  · rcases List.mem_append.1 hmem with hmem | hmem
    · obtain ⟨x, hx, hsub⟩ := hw.preceded id' s entry hmem hentry
      exact ⟨x, hx, hsub.trans (List.sublist_append_left ..)⟩
    · rw [List.mem_singleton.1 hmem] at hentry ⊢
      obtain ⟨rfl, rfl⟩ : id = id' ∧ 0 = s := by
        simp only [Entry.stores?] at hentry
        split at hentry
        next hid => exact ⟨hid, Option.some.inj hentry⟩
        next => cases hentry
      obtain ⟨x, hx, hxdel⟩ := hdel
      exact ⟨x, hxdel, (List.singleton_sublist.2 hx).append (List.Sublist.refl _)⟩

variable [DecidableEq δ]

/-- One step without a failure. -/
theorem step (hw : Recorded P cfg w) {a : Action δ} (hserves : w.Serves P a)
    (h : w.step P cfg env a = some w') : Recorded P cfg w' := by
  cases step_eq_some.1 h with
  | @handler d r o k result store queued hprog hans =>
    have hadds : o.AddsNew w.store r := hserves o (by rw [hprog]; rfl)
    cases hans with
    | add data id opts =>
      exact (hw.addJob data id opts (hadds trivial)).frame rfl rfl rfl rfl (by simp [Entry.stores?])
    | _ => exact hw.frame rfl rfl rfl rfl (by simp [Entry.stores?])
  | flush hqueued => exact hw.frame rfl rfl rfl (List.append_nil _).symm (by simp)
  | flushFailed hqueued => exact hw.frame rfl rfl rfl (List.append_nil _).symm (by simp)
  | stop hprog => exact hw.frame rfl rfl rfl (List.append_nil _).symm (by simp)
  | @take id entry hjob hstatus =>
    rw [QueueProcessor.process_eq]
    exact hw.setActive hjob (Or.inl hstatus) .start
  | @worker id r entry o k result store queued hjob hstatus hans =>
    have hserved : o.Served P w.store entry.data r :=
      hserves entry hjob o (by rw [JobEntry.awaits?, hstatus]; rfl)
    obtain ⟨hcourse, hjobs, hadded⟩ := (hw.active id entry _ hjob hstatus).serve hans hserved
    obtain ⟨hserial, -⟩ := hw.serials id entry hjob
    have hframe : Recorded P cfg { w with
        store, trace := w.trace ++ [⟨.worker id entry.serial, o, result⟩] } :=
      hw.frame hjobs hadded rfl rfl (by simp [Entry.stores?])
    refine hframe.setActive (hjobs ▸ hjob) (Or.inr ⟨_, hstatus⟩) (hcourse.mono ?_)
    rintro (hdel | hdel)
    · exact delivered_append rfl hdel
    · exact ⟨_, List.mem_append_right _ (List.mem_singleton_self _), by rw [hserial], hdel⟩
  | complete hjob hstatus => exact hw.complete hjob hstatus
  | @retry id entry e hjob hstatus =>
    exact absurd rfl ((hw.active id entry _ hjob hstatus).ne_throw e)
  | completion hprog hans => exact hw.record hprog hans

end Recorded

/-! ## The records of a run -/

/-- **In a run in which no step meets a failure and no job is added again, `StoreTransaction` is
called at most once for a job, and only after a transaction of the job has succeeded.** -/
theorem stored_of_serves [DecidableEq δ] (lists : String → List (δ × String))
    (jobs : String → Option (BridgeJob × JobOptions)) (handler : δ → Task Unit)
    {l : List (Action δ)}
    (hserves : Along (World.step P cfg env) (World.Serves P) (World.queue lists jobs handler) l)
    (hrun : World.run P cfg env (World.queue lists jobs handler) l = some w) :
    (∀ id, (w.stored id).length ≤ 1) ∧
      ∀ id serial, ∀ entry ∈ w.trace, entry.stores? id = some serial →
        ∃ x : Entry δ, x.Delivers id serial ∧ [x, entry].Sublist w.trace := by
  have hw : Recorded P cfg w := Async.exec_invariant_along (Recorded P cfg) (World.Serves P)
    (fun hserves hw hs => hw.step hserves hs) (Recorded.init lists jobs handler) hserves hrun
  exact ⟨hw.once, hw.preceded⟩

/-- The job of the lock is waiting, and its list has one signature. -/
def Sample.queue : World (Fin 3) :=
  World.queue signed.lists
    (fun id => if id = "jobID: 2361242049" then some (job, config.jobOptions) else none)
    fun _ => .ret ()

/-- The destination chain cannot be reached: the job is completed and recorded. -/
theorem not_stored_sample :
    ¬ ∀ (l : List (Action (Fin 3))) (w : World (Fin 3)),
      World.run Sample.platform Sample.config (Sample.env 1 1) Sample.queue l = some w →
        (∀ id, (w.stored id).length ≤ 1) ∧
          ∀ id serial, ∀ entry ∈ w.trace, entry.stores? id = some serial →
            ∃ x : Entry (Fin 3), x.Delivers id serial ∧ [x, entry].Sublist w.trace := by
  intro h
  have heval : (World.run Sample.platform Sample.config (Sample.env 1 1) Sample.queue
      (Sample.serve "jobID: 2361242049" (.error (.rejected "could not detect network")) ++
        [.settle "jobID: 2361242049", .completion "jobID: 2361242049" 0 .ok])).map
      (fun w => (w.stored "jobID: 2361242049", decide (∀ x ∈ w.trace, ¬ x.op.Delivered x.result))) =
        some ([0], true) := by decide +kernel
  obtain ⟨w, hrun, heq⟩ := Option.map_eq_some_iff.1 heval
  simp only [Prod.mk.injEq, decide_eq_true_eq] at heq
  obtain ⟨hstored, hnone⟩ := heq
  obtain ⟨entry, hmem, hentry⟩ : ∃ entry ∈ w.trace, entry.stores? "jobID: 2361242049" = some 0 :=
    List.mem_filterMap.1 (show 0 ∈ w.stored "jobID: 2361242049" by rw [hstored]; simp)
  obtain ⟨x, hx, hsub⟩ := (h _ w hrun).2 _ _ entry hmem hentry
  exact hnone x (hsub.subset (List.mem_cons_self ..)) hx.2

/-- The transaction of the call succeeds. -/
theorem stored_of_serves_sample :
    ∃ w, World.run Sample.platform Sample.config (Sample.env 1 1) Sample.queue
        (Sample.serve "jobID: 2361242049" (.receipt (some 1)) ++
          [.settle "jobID: 2361242049", .completion "jobID: 2361242049" 0 .ok]) = some w ∧
      (∀ id, (w.stored id).length ≤ 1) ∧
        ∀ id serial, ∀ entry ∈ w.trace, entry.stores? id = some serial →
          ∃ x : Entry (Fin 3), x.Delivers id serial ∧ [x, entry].Sublist w.trace := by
  have heval : (World.run Sample.platform Sample.config (Sample.env 1 1) Sample.queue
      (Sample.serve "jobID: 2361242049" (.receipt (some 1)) ++
        [.settle "jobID: 2361242049", .completion "jobID: 2361242049" 0 .ok])).map
      (fun w => w.stored "jobID: 2361242049") = some [0] := by decide +kernel
  obtain ⟨w, hrun, -⟩ := Option.map_eq_some_iff.1 heval
  exact ⟨w, hrun, stored_of_serves _ _ _ (by decide +kernel) hrun⟩

end Tsunagari
