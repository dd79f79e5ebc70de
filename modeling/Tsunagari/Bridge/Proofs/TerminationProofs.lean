import Tsunagari.Async.Cost
import Tsunagari.Bridge.Proofs.ConfinementProofs
import Tsunagari.Bridge.Sample

/-!
# Proofs: every run ends

A handler awaits at most six operations, and a job takes at most six steps from the time it is added
until its completion has been recorded. A job that has been removed may be added again, but only by
another handler, and no job is ever tried again, whatever fails.
-/

namespace Tsunagari

open Async (Prog)

/-! ## Prices -/

/-- The steps of a job: it is taken, read, deleted, submitted, settled and recorded. -/
def jobPrice : ℕ := 6

/-- The steps that an operation entails. -/
def Op.price : Op → ℕ
  -- the command is issued, and run later
  | .rpush _ _ => 2
  | .add _ _ _ => 1 + jobPrice
  | _ => 1

theorem Op.price_pos (o : Op) : 0 < o.price := by
  cases o <;> simp [price]

namespace Plan

variable (p : Plan)

theorem within_addJob (n : ℕ) : (p.addJob n).Within Op.price 7 :=
  Prog.within_await (m := 0) le_rfl fun _ => trivial

theorem within_enqueue (reached : Bool) (n : ℕ) : (p.enqueue reached n).Within Op.price 8 := by
  unfold enqueue
  split
  · refine Prog.within_await (m := 7) le_rfl fun r => ?_
    rcases r with err | existing
    · trivial
    · cases existing with
      | true => trivial
      | false => exact p.within_addJob n
  · trivial

theorem within_readMint (reached : Bool) : (p.readMint reached).Within Op.price 9 := by
  unfold readMint
  split
  · exact (p.within_enqueue reached 0).mono (by omega)
  · refine Prog.within_await (m := 8) le_rfl fun r => ?_
    rcases r with err | n
    · trivial
    · exact p.within_enqueue reached n

theorem within_readThreshold : p.readThreshold.Within Op.price 11 := by
  unfold readThreshold
  split
  · trivial
  · refine Prog.within_await (m := 10) le_rfl fun r => ?_
    rcases r with err | t
    · trivial
    · exact Prog.within_await (m := 9) le_rfl fun _ => p.within_readMint _

theorem within_start (signature : String) : (p.start signature).Within Op.price 13 :=
  Prog.within_await (m := 11) le_rfl fun _ => p.within_readThreshold

end Plan

/-- The price of a handler. -/
theorem BridgeEvent.within_handle (P : Platform) (cfg : Config) (node : Node) (e : BridgeEvent) :
    (e.handle P cfg node).Within Op.price 13 := by
  rw [e.handle_eq]
  cases e.plan P cfg with
  | error err => trivial
  | ok p =>
    cases e.sign P cfg node with
    | error err => trivial
    | ok signature => exact p.within_start signature

namespace QueueProcessor

variable (P : Platform) (data : BridgeJob)

theorem deliver_paid (vs : List String) :
    (deliver P data vs).Within Op.price 1 ∧ (deliver P data vs).Returns := by
  unfold deliver
  split
  · exact ⟨trivial, trivial⟩
  · exact ⟨Prog.within_await (m := 0) le_rfl fun _ => trivial, fun _ => trivial⟩
  · exact ⟨Prog.within_await (m := 0) le_rfl fun _ => trivial, fun _ => trivial⟩

/-- The price of a worker, which never fails. -/
theorem process_paid : (process P data).Within Op.price 3 ∧ (process P data).Returns := by
  have hread : ∀ vs, (afterRead P data vs).Within Op.price 2 ∧ (afterRead P data vs).Returns := by
    intro vs
    unfold afterRead
    split
    · exact ⟨trivial, trivial⟩
    · exact ⟨Prog.within_await (m := 1) le_rfl fun _ => (deliver_paid P data vs).1,
        fun _ => (deliver_paid P data vs).2⟩
  rw [process_eq]
  refine ⟨Prog.within_await (m := 2) le_rfl fun r => ?_, fun r => ?_⟩
  · rcases r with err | vs
    · trivial
    · exact (hread vs).1
  · rcases r with err | vs
    · trivial
    · exact (hread vs).2

theorem onCompleted_within (cfg : Config) : (onCompleted cfg data).Within Op.price 1 :=
  Prog.within_await (m := 0) le_rfl fun r => by rcases r with err | u <;> trivial

end QueueProcessor

/-! ## Credit -/

/-- The credit pays for what is left of the job, whose worker never fails. -/
def JobEntry.Paid (entry : JobEntry) (n : ℕ) : Prop :=
  match entry.status with
  | .waiting => jobPrice ≤ n
  | .active prog => prog.Returns ∧ ∃ m, prog.Within Op.price m ∧ m + 2 ≤ n
  | _ => True

variable {δ : Type}

/-- The credit pays for what is left of every handler, job and listener. -/
structure World.Paid (w : World δ) (credit : Agent δ →₀ ℕ) : Prop where
  handlers : ∀ d, ∃ n, (w.handlers d).prog.Within Op.price n ∧
    n + (w.handlers d).queued.length ≤ credit (.handler d)
  jobs : ∀ id entry, w.store.jobs id = some entry → entry.Paid (credit (.worker id entry.serial))
  completions : ∀ id serial,
    (w.completions (id, serial)).Within Op.price (credit (.completion id serial))

theorem JobEntry.Paid.mono {entry : JobEntry} {m n : ℕ} (h : entry.Paid m) (hmn : m ≤ n) :
    entry.Paid n := by
  unfold JobEntry.Paid at h ⊢
  split at h
  · exact h.trans hmn
  · exact ⟨h.1, h.2.imp fun _ hm => ⟨hm.1, hm.2.trans hmn⟩⟩
  · trivial

/-- The commands under way and an added job are paid by the price of the operation. -/
theorem Answered.queued_lt {env : Env} {s store : Store δ} {queued queued' : List (String × String)}
    {o : Op} {r : Reply} {result : Except JsError o.Resp}
    (h : Answered env s queued o r result store queued') :
    queued'.length < queued.length + o.price := by
  rcases h.queued_cases with rfl | ⟨key, value, rfl, rfl⟩
  · have := o.price_pos
    omega
  · simp [Op.price]

section Steps

variable [DecidableEq δ] {P : Platform} {cfg : Config} {env : Env} {event : δ → BridgeEvent}
  {node : δ → Node} {w w' : World δ} {credit : Agent δ →₀ ℕ}

namespace World.Paid

/-- A handler pays: the other handlers stay as they are. -/
theorem payHandler (h : w.Paid credit) {d : δ} {hs : HandlerState} {n b : ℕ}
    (hwithin : hs.prog.Within Op.price n) (hb : n + hs.queued.length ≤ b) (d' : δ) :
    ∃ n, (Function.update w.handlers d hs d').prog.Within Op.price n ∧
      n + (Function.update w.handlers d hs d').queued.length ≤
        credit.update (.handler d) b (.handler d') := by
  rw [Finsupp.coe_update]
  by_cases hd : d' = d
  · subst hd
    rw [Function.update_self, Function.update_self]
    exact ⟨n, hwithin, hb⟩
  · rw [Function.update_of_ne hd, Function.update_of_ne (by simp [hd])]
    exact h.handlers d'

/-- A step of a handler that leaves the jobs alone. -/
theorem handlerStep (h : w.Paid credit) {d : δ} (hs : HandlerState) {n : ℕ}
    (hwithin : hs.prog.Within Op.price n) (hlt : n + hs.queued.length < credit (.handler d))
    (hhandlers : w'.handlers = Function.update w.handlers d hs)
    (hjobs : w'.store.jobs = w.store.jobs) (hcompletions : w'.completions = w.completions) :
    ∃ credit' : Agent δ →₀ ℕ, credit'.degree < credit.degree ∧ w'.Paid credit' := by
  refine ⟨credit.update (.handler d) (n + hs.queued.length), Async.degree_update_lt _ hlt,
    fun d' => ?_, fun id entry hjob => ?_, fun id serial => ?_⟩
  · rw [hhandlers]
    exact h.payHandler hwithin le_rfl d'
  · rw [Finsupp.coe_update, Function.update_of_ne (by simp)]
    exact h.jobs id entry (hjobs ▸ hjob)
  · rw [Finsupp.coe_update, Function.update_of_ne (by simp), hcompletions]
    exact h.completions id serial

/-- A handler adds a job and credits it. -/
theorem addStep (h : w.Paid credit) {d : δ} (hs : HandlerState) {n : ℕ} {data : BridgeJob}
    {id : String} {opts : JobOptions} {trace : List (Entry δ)}
    (hwithin : hs.prog.Within Op.price n)
    (hlt : n + hs.queued.length + jobPrice < credit (.handler d)) :
    ∃ credit' : Agent δ →₀ ℕ, credit'.degree < credit.degree ∧
      World.Paid { store := w.store.addJob data id opts,
                   handlers := Function.update w.handlers d hs, completions := w.completions,
                   trace } credit' := by
  cases hjob : w.store.jobs id with
  | some entry =>
    rw [Store.addJob_of_some data opts hjob]
    exact h.handlerStep hs hwithin (by omega) rfl rfl rfl
  | none =>
    let credit₁ := credit.update (.handler d) (n + hs.queued.length)
    let worker : Agent δ := .worker id (w.store.added id)
    have h1 : credit₁.degree + jobPrice < credit.degree := by
      have h0 : credit₁.degree + credit (.handler d) = credit.degree + (n + hs.queued.length) :=
        Async.degree_update ..
      omega
    have h2 := Async.degree_update credit₁ worker (credit₁ worker + jobPrice)
    refine ⟨credit₁.update worker (credit₁ worker + jobPrice), by omega, fun d' => ?_,
      fun id' entry hentry => ?_, fun id' serial => ?_⟩
    · rw [Finsupp.coe_update, Function.update_of_ne (by simp [worker])]
      exact h.payHandler hwithin le_rfl d'
    · rcases Store.jobs_addJob_cases hentry with hold | ⟨rfl, -, rfl⟩
      · have hne : id' ≠ id := by
          rintro rfl
          rw [hjob] at hold
          cases hold
        rw [Finsupp.coe_update, Function.update_of_ne (by simp [worker, hne]), Finsupp.coe_update,
          Function.update_of_ne (by simp)]
        exact h.jobs id' entry hold
      · rw [Finsupp.coe_update, Function.update_self]
        exact Nat.le_add_left ..
    · rw [Finsupp.coe_update, Function.update_of_ne (by simp [worker]), Finsupp.coe_update,
        Function.update_of_ne (by simp)]
      exact h.completions id' serial

/-- A step of a worker or of the queue, which replaces the job. -/
theorem jobStep (h : w.Paid credit) (id : String) (entry : JobEntry) (new : Option JobEntry)
    {n : ℕ} (hnew : ∀ entry', new = some entry' → entry'.serial = entry.serial ∧ entry'.Paid n)
    (hlt : n < credit (.worker id entry.serial)) (hhandlers : w'.handlers = w.handlers)
    (hjobs : w'.store.jobs = (w.store.setJob id new).jobs)
    (hcompletions : w'.completions = w.completions) :
    ∃ credit' : Agent δ →₀ ℕ, credit'.degree < credit.degree ∧ w'.Paid credit' := by
  refine ⟨credit.update (.worker id entry.serial) n, Async.degree_update_lt _ hlt,
    fun d => ?_, fun id' entry' hjob => ?_, fun id' serial => ?_⟩
  · rw [Finsupp.coe_update, Function.update_of_ne (by simp), hhandlers]
    exact h.handlers d
  · rw [hjobs] at hjob
    rcases Store.jobs_setJob_cases hjob with ⟨rfl, heq⟩ | ⟨hne, hold⟩
    · obtain ⟨hserial, hpaid⟩ := hnew entry' heq
      rw [hserial, Finsupp.coe_update, Function.update_self]
      exact hpaid
    · rw [Finsupp.coe_update, Function.update_of_ne (by simp [hne])]
      exact h.jobs id' entry' hold
  · rw [Finsupp.coe_update, Function.update_of_ne (by simp), hcompletions]
    exact h.completions id' serial

/-- **Every step leaves less credit.** -/
theorem step (h : w.Paid credit) (hw : Confined P cfg event node w) {a : Action δ}
    (hstep : w.step P cfg env a = some w') :
    ∃ credit' : Agent δ →₀ ℕ, credit'.degree < credit.degree ∧ w'.Paid credit' := by
  cases step_eq_some.1 hstep with
  | @handler d r o k result store queued hprog hans =>
    obtain ⟨n, hwithin, hn⟩ := h.handlers d
    rw [hprog] at hwithin
    obtain ⟨m, hm, hk⟩ := hwithin
    have hqueued := hans.queued_lt
    have hall := hw.handlers d
    rw [hprog] at hall
    rcases hans.store_cases with rfl | ⟨key, rfl, rfl⟩ | ⟨data, id, opts, rfl, rfl⟩
    · exact h.handlerStep ⟨k result, queued⟩ (hk result)
        (show m + queued.length < _ by omega) rfl rfl rfl
    · exact absurd hall.1 not_false
    · have hsame : queued = (w.handlers d).queued := by
        rcases hans.queued_cases with hq | ⟨key, value, ho, -⟩
        · exact hq
        · cases ho
      refine h.addStep ⟨k result, queued⟩ (hk result) ?_
      show m + queued.length + jobPrice < _
      rw [hsame]
      simp only [Op.price] at hm
      omega
  | @flush d key value queued hqueued =>
    obtain ⟨n, hwithin, hn⟩ := h.handlers d
    rw [hqueued, List.length_cons] at hn
    exact h.handlerStep ⟨(w.handlers d).prog, queued⟩ hwithin
      (show n + queued.length < _ by omega) rfl rfl rfl
  | @flushFailed d err key value queued hqueued =>
    obtain ⟨n, hwithin, hn⟩ := h.handlers d
    rw [hqueued, List.length_cons] at hn
    exact h.handlerStep ⟨(w.handlers d).prog, queued⟩ hwithin
      (show n + queued.length < _ by omega) rfl rfl rfl
  | @stop d o k hprog =>
    obtain ⟨n, hwithin, hn⟩ := h.handlers d
    rw [hprog] at hwithin
    obtain ⟨m, hm, -⟩ := hwithin
    have := o.price_pos
    exact h.handlerStep ⟨.throw .stopped, (w.handlers d).queued⟩ (n := 0) trivial
      (show 0 + (w.handlers d).queued.length < _ by omega) rfl rfl rfl
  | @take id entry hjob hstatus =>
    have hpaid := h.jobs id entry hjob
    simp only [JobEntry.Paid, hstatus] at hpaid
    refine h.jobStep id entry
      (some { entry with status := .active (QueueProcessor.process P entry.data) }) (n := 5) ?_
      (by unfold jobPrice at hpaid; omega) rfl rfl rfl
    rintro _ ⟨⟩
    obtain ⟨hprocess, hreturns⟩ := QueueProcessor.process_paid P entry.data
    exact ⟨rfl, hreturns, 3, hprocess, le_rfl⟩
  | @worker id r entry o k result store queued hjob hstatus hans =>
    have hpaid := h.jobs id entry hjob
    simp only [JobEntry.Paid, hstatus] at hpaid
    obtain ⟨hreturns, n, ⟨m, hm, hk⟩, hn⟩ := hpaid
    have ho := ((hw.jobs id entry hjob).active _ hstatus).1
    have := o.price_pos
    refine h.jobStep id entry (some { entry with status := .active (k result) }) (n := m + 2) ?_
      (by omega) rfl ?_ rfl
    · rintro _ ⟨⟩
      exact ⟨rfl, hreturns result, m, hk result, le_rfl⟩
    · show Function.update store.jobs _ _ = Function.update w.store.jobs _ _
      rw [hans.jobs_of_worker ho]
  | @complete id entry u hjob hstatus =>
    have hpaid := h.jobs id entry hjob
    simp only [JobEntry.Paid, hstatus] at hpaid
    obtain ⟨-, m, -, hm⟩ := hpaid
    let worker : Agent δ := .worker id entry.serial
    let listener : Agent δ := .completion id entry.serial
    let credit₁ := credit.update worker 0
    have h1 : credit₁.degree + credit worker = credit.degree + 0 := Async.degree_update ..
    have h2 := Async.degree_update credit₁ listener (credit₁ listener + 1)
    have hworker : m + 2 ≤ credit worker := hm
    have hother : ∀ agent, agent ≠ worker → agent ≠ listener →
        credit₁.update listener (credit₁ listener + 1) agent = credit agent := by
      intro agent hne hne'
      rw [Finsupp.coe_update, Function.update_of_ne hne', Finsupp.coe_update,
        Function.update_of_ne hne]
    refine ⟨credit₁.update listener (credit₁ listener + 1), by omega, fun d => ?_,
      fun id' entry' hentry => ?_, fun id' serial => ?_⟩
    · rw [hother _ (by simp [worker]) (by simp [listener])]
      exact h.handlers d
    · rcases Store.jobs_setJob_cases hentry with ⟨rfl, heq⟩ | ⟨hne, hold⟩
      · rw [(hw.jobs id' entry hjob).removed] at heq
        cases heq
      · rw [hother _ (by simp [worker, hne]) (by simp [listener])]
        exact h.jobs id' entry' hold
    · show (Function.update w.completions (id, entry.serial) _ (id', serial)).Within _ _
      by_cases hkey : (id', serial) = (id, entry.serial)
      · cases hkey
        rw [Function.update_self, Finsupp.coe_update, Function.update_self]
        exact (QueueProcessor.onCompleted_within entry.data cfg).mono (Nat.le_add_left ..)
      · rw [Function.update_of_ne hkey, hother _ (by simp [worker])
          (by simpa [listener] using hkey)]
        exact h.completions id' serial
  | @retry id entry err hjob hstatus =>
    have hpaid := h.jobs id entry hjob
    simp only [JobEntry.Paid, hstatus] at hpaid
    exact absurd hpaid.1 not_false
  | @completion id serial r o k result store queued hprog hans =>
    have hwithin := h.completions id serial
    have hall := hw.completions (id, serial)
    rw [hprog] at hwithin hall
    obtain ⟨m, hm, hk⟩ := hwithin
    have hstore := hans.store_of_completion hall.1
    have := o.price_pos
    refine ⟨credit.update (.completion id serial) m, Async.degree_update_lt _ (by omega),
      fun d => ?_, fun id' entry hjob => ?_, fun id' serial' => ?_⟩
    · rw [Finsupp.coe_update, Function.update_of_ne (by simp)]
      exact h.handlers d
    · rw [Finsupp.coe_update, Function.update_of_ne (by simp)]
      exact h.jobs id' entry (hstore ▸ hjob)
    · show (Function.update w.completions (id, serial) _ (id', serial')).Within _ _
      by_cases hkey : (id', serial') = (id, serial)
      · cases hkey
        rw [Function.update_self, Finsupp.coe_update, Function.update_self]
        exact hk result
      · rw [Function.update_of_ne hkey, Finsupp.coe_update,
          Function.update_of_ne (by simpa using hkey)]
        exact h.completions id' serial'

end World.Paid

/-- At most `n` steps are left. -/
def World.Left (P : Platform) (cfg : Config) (event : δ → BridgeEvent) (node : δ → Node)
    (w : World δ) (n : ℕ) : Prop :=
  Confined P cfg event node w ∧ ∃ credit : Agent δ →₀ ℕ, credit.degree = n ∧ w.Paid credit

omit [DecidableEq δ] in
theorem World.Left.init [Fintype δ] : World.Left P cfg event node
    (World.init fun d => (event d).handle P cfg (node d)) (13 * Fintype.card δ) := by
  classical
  let credit : Agent δ →₀ ℕ := ∑ d : δ, Finsupp.single (.handler d) 13
  have hdegree : credit.degree = 13 * Fintype.card δ := by
    simp only [credit, map_sum, Finsupp.degree_single, Finset.sum_const, Finset.card_univ,
      smul_eq_mul, mul_comm]
  have hcredit : ∀ d, credit (.handler d) = 13 := by
    intro d
    simp [credit, Finsupp.finsetSum_apply, Finsupp.single_apply]
  exact ⟨Confined.init, credit, hdegree,
    { handlers := fun d => ⟨13, (event d).within_handle P cfg (node d), (hcredit d).ge⟩
      jobs := fun id entry hjob => by cases hjob
      completions := fun id serial => trivial }⟩

theorem World.Left.step {n : ℕ} (h : World.Left P cfg event node w n) {a : Action δ}
    (hstep : w.step P cfg env a = some w') : ∃ m, m < n ∧ World.Left P cfg event node w' m := by
  obtain ⟨hw, credit, rfl, hpaid⟩ := h
  obtain ⟨credit', hlt, hpaid'⟩ := hpaid.step hw hstep
  exact ⟨_, hlt, hw.step hstep, credit', rfl, hpaid'⟩

/-- **Every run ends**: `n` deliveries keep the backend busy for at most `13 * n` steps, however
their operations fail and however the nodes and workers take turns. -/
theorem run_length_le [Fintype δ] {l : List (Action δ)}
    (h : World.run P cfg env (World.init fun d => (event d).handle P cfg (node d)) l = some w) :
    l.length ≤ 13 * Fintype.card δ := by
  obtain ⟨m, hm, -⟩ := Async.exec_left (World.Left P cfg event node) (fun hw hs => hw.step hs)
    World.Left.init h
  omega

end Steps

/-- One node serves a lock on Solana with the threshold one, and nothing fails. -/
def Sample.wholeRun : List (Action (Fin 1)) :=
  Sample.push 0 ++ Sample.count 0 ++ [.handler 0 .ok] ++ Sample.enqueue 0 ++
    Sample.serve "jobID: 3461477406" (.receipt (some 1)) ++
      [.settle "jobID: 3461477406", .completion "jobID: 3461477406" 0 .ok]

/-- The bound is reached. -/
theorem run_length_le_sample :
    ∃ w : World (Fin 1), World.run Sample.platform Sample.config (Sample.env 1 1)
        (Sample.world Sample.solanaLock 1 (by decide)) Sample.wholeRun = some w ∧
      Sample.wholeRun.length = 13 ∧ Sample.wholeRun.length ≤ 13 * Fintype.card (Fin 1) := by
  have heval : (World.run Sample.platform Sample.config (Sample.env 1 1)
      (Sample.world Sample.solanaLock 1 (by decide)) Sample.wholeRun).isSome := by
    decide +kernel
  obtain ⟨w, hrun⟩ := Option.isSome_iff_exists.1 heval
  exact ⟨w, hrun, rfl, run_length_le hrun⟩

end Tsunagari
