import Tsunagari.Bridge.Conservation
import Tsunagari.Bridge.Proofs.ConfinementProofs
import Tsunagari.Bridge.Proofs.CourseProofs
import Tsunagari.Bridge.Proofs.WorldProofs
import Tsunagari.Bridge.Sample

/-!
# Proofs: when no signature is lost

A worker reads the list and deletes it in two commands. What is pushed in between is deleted without
having been read, and what was read is lost when the fields of the job cannot be decoded. In every
other run a signature stays in the list until a worker takes it into its submission.
-/

namespace Tsunagari

open Async (Along Prog)
open QueueProcessor (Course Decodes callOp deliver destinationCall)

variable {δ : Type} {P : Platform} {cfg : Config} {env : Env} {event : δ → BridgeEvent}
  {node : δ → Node} {w w' : World δ}

/-! ## What a worker has read -/

theorem World.lastRead_append {l : List (Entry δ)} (htrace : w'.trace = w.trace ++ l) {id : String}
    {serial : ℕ} (hl : ∀ x ∈ l, x.read? id serial = none) :
    w'.lastRead id serial = w.lastRead id serial := by
  unfold World.lastRead
  rw [htrace, List.filterMap_append, List.filterMap_eq_nil_iff.2 hl, List.append_nil]

theorem World.lastRead_concat {x : Entry δ} (htrace : w'.trace = w.trace ++ [x]) {id : String}
    {serial : ℕ} {signatures : List String} (hx : x.read? id serial = some signatures) :
    w'.lastRead id serial = signatures := by
  unfold World.lastRead
  rw [htrace, List.filterMap_append, List.filterMap_cons_some hx, List.filterMap_nil,
    List.getLast?_concat, Option.getD_some]

theorem Entry.read?_of_op {entry : Entry δ} (h : ∀ key, entry.op ≠ .lrange key) (id : String)
    (serial : ℕ) : entry.read? id serial = none := by
  unfold Entry.read?
  split
  next => exact absurd rfl (h _)
  next => rfl

theorem Entry.read?_of_id {entry : Entry δ} {id id' : String} {serial serial' : ℕ}
    (h : entry.agent = .worker id' serial') (hne : id' ≠ id) : entry.read? id serial = none := by
  unfold Entry.read?
  split
  next =>
    cases h
    rw [if_neg fun h => hne h.1]
  next => rfl

theorem Entry.read?_of_handler {entry : Entry δ} {d : δ} (h : entry.agent = .handler d)
    (id : String) (serial : ℕ) : entry.read? id serial = none := by
  unfold Entry.read?
  split
  next => cases h
  next => rfl

/-- Only a read changes what was read last. -/
theorem World.lastRead_of_op {x : Entry δ} (htrace : w'.trace = w.trace ++ [x])
    (hop : ∀ key, x.op ≠ .lrange key) (id : String) (serial : ℕ) :
    w'.lastRead id serial = w.lastRead id serial := by
  refine World.lastRead_append htrace fun y hy => ?_
  rw [List.mem_singleton.1 hy]
  exact Entry.read?_of_op hop id serial

/-- Other workers do not change it. -/
theorem World.lastRead_of_id {x : Entry δ} {id id' : String} {serial' : ℕ}
    (htrace : w'.trace = w.trace ++ [x]) (hagent : x.agent = .worker id' serial') (hne : id' ≠ id)
    (serial : ℕ) : w'.lastRead id serial = w.lastRead id serial := by
  refine World.lastRead_append htrace fun y hy => ?_
  rw [List.mem_singleton.1 hy]
  exact Entry.read?_of_id hagent hne

/-! ## What a worker does next -/

/-- The worker of the job has read `vs`, and its fields can be decoded: it will delete the list and
call the client, or it awaits the client. -/
def JobEntry.Submitting (P : Platform) (vs : List String) (entry : JobEntry) : Prop :=
  Decodes P entry.data ∧
    (entry.status = .active (.await (.del entry.data.message) fun _ => deliver P entry.data vs) ∨
      entry.status = .active (deliver P entry.data vs))

namespace QueueProcessor

variable {data : BridgeJob} {vs : List String} {c : Call} {o : Op}
  {k : Except JsError o.Resp → Task Unit} {V : List String → Prop} {D : Prop}

theorem call_of_await (h : Prog.await o k = deliver P data vs) :
    ∃ c, o = callOp c ∧ destinationCall P data vs = .ok c := by
  have hpath : Prog.Path (deliver P data vs) [] (.await o k) := h ▸ Prog.Path.refl _
  exact call_of_deliver hpath

theorem Course.ofWorker (h : Course P data V D (.await o k)) : o.OfWorker data.message := by
  generalize hp : Prog.await o k = prog at h
  cases h with
  | start => cases hp; rfl
  | held vs hvs => cases hp; rfl
  | cleared vs hvs =>
    obtain ⟨c, rfl, -⟩ := call_of_await hp
    cases c <;> trivial
  | served => cases hp

/-- A worker that awaits the deletion of the list goes on with what it has read. -/
theorem Course.of_del {key : String} {k : Except JsError ℕ → Task Unit}
    (h : Course P data V D (.await (.del key) k)) :
    key = data.message ∧ ∃ vs, V vs ∧ k = fun _ => deliver P data vs := by
  generalize hp : (Prog.await (.del key) k : Task Unit) = prog at h
  cases h with
  | start => cases hp
  | held vs hvs => cases hp; exact ⟨rfl, vs, hvs, rfl⟩
  | cleared vs hvs =>
    obtain ⟨c, hc, -⟩ := call_of_await hp
    cases c <;> cases hc
  | served => cases hp

theorem signedMessage_of_destinationCall (h : destinationCall P data vs = .ok c) :
    c.signedMessage = data.message := by
  by_cases hd : data.destinationChainId = SOLANA_CHAIN_ID
  · obtain ⟨tokenMint, amount, -, -, rfl⟩ := (destinationCall_eq_solana hd).1 h
    rfl
  · obtain ⟨amount, -, rfl⟩ := (destinationCall_eq_evm hd).1 h
    rfl

theorem carries_of_destinationCall (h : destinationCall P data vs = .ok c) {signature : String}
    (hmem : signature ∈ vs) : c.Carries signature := by
  by_cases hd : data.destinationChainId = SOLANA_CHAIN_ID
  · obtain ⟨tokenMint, amount, -, -, rfl⟩ := (destinationCall_eq_solana hd).1 h
    exact List.mem_map_of_mem hmem
  · obtain ⟨amount, -, rfl⟩ := (destinationCall_eq_evm hd).1 h
    exact hmem

/-- The record of a call submits what the call carries. -/
theorem submits_of_destinationCall (h : destinationCall P data vs = .ok c) {signature : String}
    (hmem : signature ∈ vs) (id : String) (serial : ℕ) (result : Except JsError (callOp c).Resp) :
    (⟨.worker id serial, callOp c, result⟩ : Entry δ).Submits data.message signature := by
  have hcall : (callOp c).call? = some c := by cases c <;> rfl
  exact ⟨c, hcall, signedMessage_of_destinationCall h, carries_of_destinationCall h hmem⟩

end QueueProcessor

/-- Such a worker awaits something. -/
theorem JobEntry.Submitting.exists_await {vs : List String} {entry : JobEntry}
    (h : entry.Submitting P vs) : ∃ o k, entry.status = .active (.await o k) ∧
      (o = .del entry.data.message ∨ o.call?.isSome) := by
  obtain ⟨hdec, hstatus | hstatus⟩ := h
  · exact ⟨_, _, hstatus, Or.inl rfl⟩
  · obtain ⟨c, hc⟩ := hdec.call vs
    rw [QueueProcessor.deliver_of_destinationCall hc] at hstatus
    exact ⟨_, _, hstatus, Or.inr (by cases c <;> rfl)⟩

/-! ## Workers -/

/-- The handlers and the listeners of completed jobs keep to their operations, and every worker goes
on with what it has read. -/
structure Working (P : Platform) (cfg : Config) (event : δ → BridgeEvent) (node : δ → Node)
    (w : World δ) : Prop where
  handlers : ∀ d, (w.handlers d).prog.All (Op.OfHandler P cfg (node d) (event d))
  completions : ∀ key, (w.completions key).All Op.OfCompletion
  active : ∀ id entry prog, w.store.jobs id = some entry → entry.status = .active prog →
    Course P entry.data (· = w.lastRead id entry.serial) True prog

namespace Working

theorem init (lists : String → List (δ × String))
    (jobs : String → Option (BridgeJob × JobOptions)) :
    Working P cfg event node
      (World.queue lists jobs fun d => (event d).handle P cfg (node d)) where
  handlers d := (event d).all_handle P cfg (node d)
  completions _ := trivial
  active id entry prog h hstatus := by
    obtain ⟨job, -, rfl⟩ := Option.map_eq_some_iff.1 h
    cases hstatus

/-- The active jobs are as before, and no worker has read anything. -/
theorem active_frame (hw : Working P cfg event node w) {l : List (Entry δ)}
    (htrace : w'.trace = w.trace ++ l) (hl : ∀ x ∈ l, ∀ id serial, x.read? id serial = none)
    (hjobs : ∀ id entry prog, w'.store.jobs id = some entry → entry.status = .active prog →
      w.store.jobs id = some entry) (id : String) (entry : JobEntry) (prog : Task Unit)
    (hjob : w'.store.jobs id = some entry) (hstatus : entry.status = .active prog) :
    Course P entry.data (· = w'.lastRead id entry.serial) True prog := by
  rw [World.lastRead_append htrace fun x hx => hl x hx id entry.serial]
  exact hw.active id entry prog (hjobs id entry prog hjob hstatus) hstatus

/-- A worker gets its operation answered. -/
theorem active_worker (hw : Working P cfg event node w) (id : String) (entry : JobEntry) {o : Op}
    {k : Except JsError o.Resp → Task Unit} {result : Except JsError o.Resp}
    (hjob : w.store.jobs id = some entry) (hstatus : entry.status = .active (.await o k))
    (htrace : w'.trace = w.trace ++ [⟨.worker id entry.serial, o, result⟩]) :
    Course P entry.data (· = w'.lastRead id entry.serial) True (k result) := by
  have h := hw.active id entry _ hjob hstatus
  generalize hp : Prog.await o k = prog at h
  cases h with
  | start =>
    cases hp
    rcases result with e | vs
    · exact .served trivial
    · have hread : w'.lastRead id entry.serial = vs :=
        World.lastRead_concat htrace (if_pos ⟨rfl, rfl⟩)
      exact .afterRead (fun _ => hread.symm) fun _ => trivial
  | held vs hvs =>
    cases hp
    have hread := World.lastRead_of_op htrace (fun key h => by cases h) id entry.serial
    exact .cleared vs (hvs.trans hread.symm)
  | cleared vs hvs =>
    obtain ⟨c, rfl, hc⟩ := QueueProcessor.call_of_await hp
    rw [QueueProcessor.deliver_of_destinationCall hc] at hp
    cases hp
    exact .served trivial
  | served => cases hp

variable [DecidableEq δ]

theorem step (hw : Working P cfg event node w) {a : Action δ} (h : w.step P cfg env a = some w') :
    Working P cfg event node w' := by
  cases step_eq_some.1 h with
  | @handler d r o k result store queued hprog hans =>
    have hall := hw.handlers d
    rw [hprog] at hall
    refine ⟨Confined.updateHandler hw.handlers (hall.2 result), hw.completions,
      hw.active_frame rfl (fun x hx => ?_) fun id entry prog hjob hstatus => ?_⟩
    · rw [List.mem_singleton.1 hx]
      exact Entry.read?_of_handler rfl
    · rcases hans.store_cases with rfl | ⟨key, rfl, rfl⟩ | ⟨data, id', opts, rfl, rfl⟩
      · exact hjob
      · exact hjob
      · rcases Store.jobs_addJob_cases hjob with hjob | ⟨-, -, rfl⟩
        · exact hjob
        · cases hstatus
  | @flush d key value queued hqueued =>
    exact ⟨Confined.updateHandler hw.handlers (hw.handlers d), hw.completions, hw.active⟩
  | @flushFailed d e key value queued hqueued =>
    exact ⟨Confined.updateHandler hw.handlers (hw.handlers d), hw.completions, hw.active⟩
  | @stop d o k hprog =>
    exact ⟨Confined.updateHandler hw.handlers trivial, hw.completions, hw.active⟩
  | @take id entry hjob hstatus =>
    refine ⟨hw.handlers, hw.completions, fun id' entry' prog hjob' hstatus' => ?_⟩
    rcases Store.jobs_setJob_cases hjob' with ⟨rfl, heq⟩ | ⟨-, hjob'⟩
    · cases heq
      cases hstatus'
      rw [QueueProcessor.process_eq]
      exact .start
    · exact hw.active id' entry' prog hjob' hstatus'
  | @worker id r entry o k result store queued hjob hstatus hans =>
    have hjobs := hans.jobs_of_worker (hw.active id entry _ hjob hstatus).ofWorker
    refine ⟨hw.handlers, hw.completions, fun id' entry' prog hjob' hstatus' => ?_⟩
    rcases Store.jobs_setJob_cases hjob' with ⟨rfl, heq⟩ | ⟨hne, hjob'⟩
    · cases heq
      cases hstatus'
      exact hw.active_worker id' entry hjob hstatus rfl
    · rw [World.lastRead_of_id (w := w) rfl rfl (Ne.symm hne)]
      exact hw.active id' entry' prog (hjobs ▸ hjob') hstatus'
  | @complete id entry u hjob hstatus =>
    refine ⟨hw.handlers, Confined.updateCompletions hw.completions
      (QueueProcessor.all_onCompleted cfg entry.data), fun id' entry' prog hjob' hstatus' => ?_⟩
    rcases Store.jobs_setJob_cases hjob' with ⟨rfl, heq⟩ | ⟨-, hjob'⟩
    · unfold JobEntry.removed at heq
      split at heq <;> cases heq
      cases hstatus'
    · exact hw.active id' entry' prog hjob' hstatus'
  | @retry id entry e hjob hstatus =>
    refine ⟨hw.handlers, hw.completions, fun id' entry' prog hjob' hstatus' => ?_⟩
    rcases Store.jobs_setJob_cases hjob' with ⟨rfl, heq⟩ | ⟨-, hjob'⟩
    · cases heq
      simp only [JobEntry.retried] at hstatus'
      split at hstatus' <;> cases hstatus'
    · exact hw.active id' entry' prog hjob' hstatus'
  | @completion id serial r o k result store queued hprog hans =>
    have hall := hw.completions (id, serial)
    rw [hprog] at hall
    have hstore := hans.store_of_completion hall.1
    refine ⟨hw.handlers, Confined.updateCompletions hw.completions (hall.2 result),
      hw.active_frame rfl (fun x hx => ?_) fun id' entry prog hjob hstatus => hstore ▸ hjob⟩
    rw [List.mem_singleton.1 hx]
    refine Entry.read?_of_op fun key heq => ?_
    have ho : (Op.lrange key).OfCompletion := heq ▸ hall.1
    exact ho

end Working

/-! ## Where a signature is -/

/-- The signature is in the list, or its worker goes on to submit it, or it was submitted. -/
def World.Kept (P : Platform) (w : World δ) (message signature : String) : Prop :=
  signature ∈ (w.store.lists message).map Prod.snd ∨
    (∃ id entry, w.store.jobs id = some entry ∧ entry.data.message = message ∧
      entry.Submitting P (w.lastRead id entry.serial) ∧
        signature ∈ w.lastRead id entry.serial) ∨
    ∃ entry ∈ w.trace, entry.Submits message signature

namespace World.Kept

variable {message signature : String}

theorem accounted (h : w.Kept P message signature) : w.Accounted message signature := by
  obtain h | ⟨id, entry, hjob, rfl, hsub, hmem⟩ | h := h
  · exact Or.inl h
  · obtain ⟨o, k, hstatus, ho⟩ := hsub.exists_await
    refine Or.inr (Or.inl ⟨id, entry, o, hjob, rfl, ?_, ho, hmem⟩)
    rw [JobEntry.awaits?, hstatus]
    rfl
  · exact Or.inr (Or.inr h)

/-- Nothing is taken from the lists and no worker goes on. -/
theorem frame (h : w.Kept P message signature) {l : List (Entry δ)}
    (hlists : ∀ x ∈ w.store.lists message, x ∈ w'.store.lists message)
    (htrace : w'.trace = w.trace ++ l) (hl : ∀ x ∈ l, ∀ id serial, x.read? id serial = none)
    (hjobs : ∀ id entry o k, w.store.jobs id = some entry → entry.status = .active (.await o k) →
      w'.store.jobs id = some entry) : w'.Kept P message signature := by
  obtain h | ⟨id, entry, hjob, hmessage, hsub, hmem⟩ | ⟨x, hx, hsub⟩ := h
  · obtain ⟨x, hx, rfl⟩ := List.mem_map.1 h
    exact Or.inl (List.mem_map_of_mem (hlists x hx))
  · have hread := World.lastRead_append htrace fun x hx => hl x hx id entry.serial
    obtain ⟨o, k, hstatus, -⟩ := hsub.exists_await
    exact Or.inr (Or.inl ⟨id, entry, hjobs id entry o k hjob hstatus, hmessage, hread ▸ hsub,
      hread ▸ hmem⟩)
  · exact Or.inr (Or.inr ⟨x, htrace ▸ List.mem_append_left _ hx, hsub⟩)

/-- A worker that has read the signature deletes the list, and goes on to submit it. -/
theorem of_del {id key : String} {entry : JobEntry} {k : Except JsError ℕ → Task Unit}
    {result : Except JsError ℕ}
    (hcourse : Course P entry.data (· = w.lastRead id entry.serial) True (.await (.del key) k))
    (hdec : Decodes P entry.data) (hmessage : entry.data.message = message)
    (hmem : signature ∈ w.lastRead id entry.serial)
    (hread : w'.lastRead id entry.serial = w.lastRead id entry.serial)
    (hjob : w'.store.jobs id = some { entry with status := .active (k result) }) :
    w'.Kept P message signature := by
  obtain ⟨-, vs, hvs, rfl⟩ := hcourse.of_del
  refine Or.inr (Or.inl ⟨id, _, hjob, hmessage, ⟨hdec, Or.inr ?_⟩, hread.symm ▸ hmem⟩)
  rw [hvs, ← hread]

/-- A worker gets its operation answered, which deletes nothing that it has not read. -/
theorem worker (h : w.Kept P message signature) (hw : Working P cfg event node w) {id : String}
    {r : Reply} {entry : JobEntry} {o : Op} {k : Except JsError o.Resp → Task Unit}
    {result : Except JsError o.Resp} {store : Store δ} {queued : List (String × String)}
    (hjob : w.store.jobs id = some entry) (hstatus : entry.status = .active (.await o k))
    (hans : Answered env w.store [] o r result store queued)
    (hok : r = .ok → o.DeletesRead P w.store entry.data (w.lastRead id entry.serial))
    (hstore : w'.store = store.setJob id (some { entry with status := .active (k result) }))
    (htrace : w'.trace = w.trace ++ [⟨.worker id entry.serial, o, result⟩]) :
    w'.Kept P message signature := by
  have hcourse := hw.active id entry _ hjob hstatus
  have hjob' : w'.store.jobs id = some { entry with status := .active (k result) } := by
    rw [hstore, Store.setJob_self]
  obtain h | ⟨id', entry', hentry', hmessage, hsub, hmem⟩ | ⟨x, hx, hsub⟩ := h
  · -- the signature stays in the list, unless the list is deleted
    obtain ⟨x, hx, rfl⟩ := List.mem_map.1 h
    have hlist : x ∈ store.lists message → x ∈ w'.store.lists message := by
      rw [hstore]
      exact fun h => h
    cases hans with
    | del key hq =>
      by_cases hkey : message = key
      · subst hkey
        obtain ⟨hmem, hdec⟩ := hok rfl x hx
        have hread := World.lastRead_of_op htrace (fun key h => by cases h) id entry.serial
        exact of_del hcourse hdec hcourse.of_del.1.symm hmem hread hjob'
      · refine Or.inl (List.mem_map_of_mem (hlist ?_))
        rwa [Store.clear_of_ne _ hkey]
    | add data id' opts => exact absurd hcourse.ofWorker not_false
    | _ => exact Or.inl (List.mem_map_of_mem (hlist hx))
  · by_cases hid : id' = id
    · subst hid
      cases hjob.symm.trans hentry'
      obtain ⟨hdec, hprog | hprog⟩ := hsub
      · -- it deletes the list and goes on to the call
        cases hstatus.symm.trans hprog
        have hread := World.lastRead_of_op htrace (fun key h => by cases h) id' entry.serial
        exact @of_del _ _ _ _ _ _ _ _ _ _ result hcourse hdec hmessage hmem hread hjob'
      · -- it makes the call
        obtain ⟨c, rfl, hc⟩ := QueueProcessor.call_of_await
          (JobStatus.active.inj (hstatus.symm.trans hprog))
        have hsubmits := QueueProcessor.submits_of_destinationCall (δ := δ) hc hmem id' entry.serial
          result
        rw [hmessage] at hsubmits
        exact Or.inr (Or.inr ⟨_, htrace ▸ List.mem_append_right _ (List.mem_singleton_self _),
          hsubmits⟩)
    · -- another worker's job
      have hread := World.lastRead_of_id htrace rfl (Ne.symm hid) entry'.serial
      have hentry : w'.store.jobs id' = some entry' := by
        rw [hstore, Store.setJob_of_ne _ _ hid, hans.jobs_of_worker hcourse.ofWorker]
        exact hentry'
      exact Or.inr (Or.inl ⟨id', entry', hentry, hmessage, hread ▸ hsub, hread ▸ hmem⟩)
  · exact Or.inr (Or.inr ⟨x, htrace ▸ List.mem_append_left _ hx, hsub⟩)

variable [DecidableEq δ]

/-- **One step keeps a signature**, when a deletion finds only what was read. -/
theorem step (h : w.Kept P message signature) (hw : Working P cfg event node w) {a : Action δ}
    (hok : w.DeletesRead P a) (hstep : w.step P cfg env a = some w') :
    w'.Kept P message signature := by
  cases step_eq_some.1 hstep with
  | @handler d r o k result store queued hprog hans =>
    have hall := hw.handlers d
    rw [hprog] at hall
    refine h.frame (fun x hx => ?_) rfl (fun x hx => ?_) fun id entry o' k' hjob hstatus => ?_
    · rcases hans.store_cases with rfl | ⟨key, rfl, rfl⟩ | ⟨data, id', opts, rfl, rfl⟩
      · exact hx
      · exact absurd hall.1 not_false
      · rwa [Store.addJob_lists]
    · rw [List.mem_singleton.1 hx]
      exact Entry.read?_of_handler rfl
    · rcases hans.store_cases with rfl | ⟨key, rfl, rfl⟩ | ⟨data, id', opts, rfl, rfl⟩
      · exact hjob
      · exact hjob
      · exact Store.jobs_addJob_of_some _ _ _ hjob
  | @flush d key value queued hqueued =>
    refine h.frame (fun x hx => ?_) (List.append_nil _).symm (fun x hx => by cases hx)
      fun id entry o k hjob hstatus => hjob
    by_cases hkey : message = key
    · subst hkey
      rw [Store.push_self]
      exact List.mem_append_left _ hx
    · rwa [Store.push_of_ne _ _ _ hkey]
  | flushFailed hqueued =>
    exact h.frame (fun x hx => hx) (List.append_nil _).symm (fun x hx => by cases hx)
      fun id entry o k hjob hstatus => hjob
  | stop hprog =>
    exact h.frame (fun x hx => hx) (List.append_nil _).symm (fun x hx => by cases hx)
      fun id entry o k hjob hstatus => hjob
  | @take id entry hjob hstatus =>
    refine h.frame (fun x hx => hx) (List.append_nil _).symm (fun x hx => by cases hx)
      fun id' entry' o k hjob' hstatus' => Store.jobs_setJob_of_status _ hjob hjob' ?_
    rw [hstatus, hstatus']
    exact fun h => by cases h
  | @worker id r entry o k result store queued hjob hstatus hans =>
    refine h.worker hw hjob hstatus hans (fun hr => ?_) rfl rfl
    subst hr
    exact hok entry hjob o (by rw [JobEntry.awaits?, hstatus]; rfl)
  | @complete id entry u hjob hstatus =>
    refine h.frame (fun x hx => hx) (List.append_nil _).symm (fun x hx => by cases hx)
      fun id' entry' o k hjob' hstatus' => Store.jobs_setJob_of_status _ hjob hjob' ?_
    rw [hstatus, hstatus']
    exact fun h => by cases h
  | @retry id entry e hjob hstatus =>
    refine h.frame (fun x hx => hx) (List.append_nil _).symm (fun x hx => by cases hx)
      fun id' entry' o k hjob' hstatus' => Store.jobs_setJob_of_status _ hjob hjob' ?_
    rw [hstatus, hstatus']
    exact fun h => by cases h
  | @completion id serial r o k result store queued hprog hans =>
    have hall := hw.completions (id, serial)
    rw [hprog] at hall
    have hstore := hans.store_of_completion hall.1
    refine h.frame (fun x hx => hstore ▸ hx) rfl (fun x hx => ?_)
      fun id' entry' o k hjob' hstatus' => hstore ▸ hjob'
    rw [List.mem_singleton.1 hx]
    refine Entry.read?_of_op fun key heq => ?_
    have ho : (Op.lrange key).OfCompletion := heq ▸ hall.1
    exact ho

end World.Kept

/-! ## Runs -/

/-- **No signature is lost in a run in which every deletion finds only what its worker has read**,
and the fields of its job can be decoded. -/
theorem accounted_of_deletesRead [DecidableEq δ] (lists : String → List (δ × String))
    (jobs : String → Option (BridgeJob × JobOptions)) {l : List (Action δ)}
    (hok : Along (World.step P cfg env) (World.DeletesRead P)
      (World.queue lists jobs fun d => (event d).handle P cfg (node d)) l)
    (hrun : World.run P cfg env
      (World.queue lists jobs fun d => (event d).handle P cfg (node d)) l = some w) :
    ∀ message signature,
      (World.queue lists jobs fun d => (event d).handle P cfg (node d)).Pushed P cfg env l message
        signature → w.Accounted message signature := by
  intro message signature hpushed
  have hinit : Working P cfg event node (World.queue lists jobs _) := .init lists jobs
  have hworking : ∀ {l' : List (Action δ)} {w₁ : World δ}, World.run P cfg env
      (World.queue lists jobs fun d => (event d).handle P cfg (node d)) l' = some w₁ →
        Working P cfg event node w₁ := fun h =>
    Async.exec_invariant (Working P cfg event node) (fun _ => True) (fun _ hw hs => hw.step hs)
      hinit (fun _ _ => trivial) h
  have hkept : ∀ {l' : List (Action δ)} {w₁ : World δ}, Working P cfg event node w₁ →
      w₁.Kept P message signature → Along (World.step P cfg env) (World.DeletesRead P) w₁ l' →
        World.run P cfg env w₁ l' = some w → w.Kept P message signature := fun hw hk hok h =>
    (Async.exec_invariant_along (fun w => Working P cfg event node w ∧ w.Kept P message signature)
      (World.DeletesRead P) (fun hok hw hs => ⟨hw.1.step hs, hw.2.step hw.1 hok hs⟩) ⟨hw, hk⟩ hok
      h).2
  rcases hpushed with h | ⟨l₁, d, l₂, w₁, queued, rfl, hrun₁, hqueued⟩
  · exact (hkept hinit (Or.inl h) hok hrun).accounted
  · obtain ⟨w₁', hrun₁', hrun₂⟩ := Async.exec_append.1 hrun
    cases hrun₁.symm.trans hrun₁'
    obtain ⟨w₂, hflush, hrun₂⟩ := Async.exec_cons.1 hrun₂
    have hpush : signature ∈ (w₂.store.lists message).map Prod.snd := by
      cases step_eq_some.1 hflush with
      | flush hq =>
        cases hqueued.symm.trans hq
        simp
    exact (hkept ((hworking hrun₁).step hflush) (Or.inl hpush)
      ((hok.of_append.2 w₁ hrun₁).2 w₂ hflush) hrun₂).accounted

/-- Two nodes handle the lock, and the queue is empty. -/
def Sample.lockQueue : World (Fin 2) :=
  World.queue (fun _ => []) (fun _ => none) fun d =>
    (lock 137).handle platform config (Sample.node (d.castLE (Nat.le_succ 2)))

/-- The first node has its job added, and the worker has read its signature; the second node has
issued its push. -/
def Sample.halfRead : List (Action (Fin 2)) :=
  push 0 ++ count 0 ++ enqueue 0 ++
    [.take "jobID: 2361242049", .worker "jobID: 2361242049" .ok, .handler 1 .ok]

/-- The second node pushes before the worker deletes the list: its signature is gone. -/
theorem not_accounted_sample :
    ¬ ∀ (l : List (Action (Fin 2))) (w : World (Fin 2)), (∀ a ∈ l, a.Succeeds) →
      World.run Sample.platform Sample.config (Sample.env 1 1) Sample.lockQueue l = some w →
        ∀ message signature, Sample.lockQueue.Pushed Sample.platform Sample.config
          (Sample.env 1 1) l message signature → w.Accounted message signature := by
  intro h
  have heval : (World.run Sample.platform Sample.config (Sample.env 1 1) Sample.lockQueue
      (Sample.halfRead ++ .flush 1 .ok :: [.worker "jobID: 2361242049" .ok,
        .worker "jobID: 2361242049" (.receipt (some 1)), .settle "jobID: 2361242049"])).map
      (fun w => (w.store.lists "378321974", (w.store.jobs "jobID: 2361242049").isSome,
        decide (∀ x ∈ w.trace, ¬ x.Submits "378321974" Sample.secondSignature))) =
          some ([], false, true) := by decide +kernel
  obtain ⟨w, hrun, heq⟩ := Option.map_eq_some_iff.1 heval
  simp only [Prod.mk.injEq, decide_eq_true_eq] at heq
  obtain ⟨hlist, hjob, htrace⟩ := heq
  have hpush : (World.run Sample.platform Sample.config (Sample.env 1 1) Sample.lockQueue
      Sample.halfRead).map (fun w => (w.handlers 1).queued) =
        some [("378321974", Sample.secondSignature)] := by decide +kernel
  obtain ⟨w₁, hrun₁, hqueued⟩ := Option.map_eq_some_iff.1 hpush
  rcases h _ w (by decide) hrun _ _ (Or.inr ⟨_, 1, _, w₁, [], rfl, hrun₁, hqueued⟩) with
    h | ⟨id, entry, o, hentry, -⟩ | ⟨x, hx, hsub⟩
  · rw [hlist] at h
    cases h
  · -- there are no other jobs than the event's
    have hconf : Confined Sample.platform Sample.config (fun _ => Sample.lock 137)
      (fun d : Fin 2 => Sample.node (d.castLE (Nat.le_succ 2))) w := Confined.of_run hrun
    obtain ⟨d, rfl, -⟩ := (hconf.jobs id entry hentry).of_event
    have hid : (Sample.lock 137).jobId Sample.platform Sample.config = "jobID: 2361242049" := by
      decide +kernel
    rw [hid] at hentry
    rw [hentry] at hjob
    cases hjob
  · exact htrace x hx hsub

/-- The second node pushes after the worker has deleted the list: its signature is in the list. -/
theorem accounted_of_deletesRead_sample :
    ∃ w, World.run Sample.platform Sample.config (Sample.env 1 1) Sample.lockQueue
        (Sample.halfRead ++ [.worker "jobID: 2361242049" .ok, .flush 1 .ok]) = some w ∧
      ∀ message signature, Sample.lockQueue.Pushed Sample.platform Sample.config (Sample.env 1 1)
        (Sample.halfRead ++ [.worker "jobID: 2361242049" .ok, .flush 1 .ok]) message signature →
          w.Accounted message signature := by
  have heval : (World.run Sample.platform Sample.config (Sample.env 1 1) Sample.lockQueue
      (Sample.halfRead ++ [.worker "jobID: 2361242049" .ok, .flush 1 .ok])).isSome := by
    decide +kernel
  obtain ⟨w, hrun⟩ := Option.isSome_iff_exists.1 heval
  exact ⟨w, hrun, accounted_of_deletesRead _ _ (by decide +kernel) hrun⟩

end Tsunagari
