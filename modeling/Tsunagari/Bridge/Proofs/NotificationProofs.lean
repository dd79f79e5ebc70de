import Tsunagari.Async.Loop
import Tsunagari.Bridge.Proofs.ConfinementProofs
import Tsunagari.Bridge.Proofs.RouteProofs

/-!
# Proofs: what a notification of Solana transactions leads to

The callback of the log subscription handles the bridge events of a notification one after another,
and does not look at the error of the transaction. A notification of a failed transaction has no
effect only when the first handler throws before it signs, or when there is no bridge event. An
error of one handler reaches the callback, which drops the events after it.
-/

namespace Tsunagari

open Async (Prog CanReach)

variable {P : Platform} {cfg : Config} {env : Env}

/-! ## The callback -/

/-- The bridge event that a parsed event of the transaction stands for. -/
def ParsedEvent.bridgeEvent? (txSignature : String) : ParsedEvent → Option BridgeEvent
  | .tokensLocked data => some (.solanaTokensLocked txSignature data)
  | .tokensBurned data => some (.solanaTokensBurned txSignature data)
  | .other _ => none

/-- The bridge events of a notification. -/
def Logs.bridgeEvents (P : Platform) (logs : Logs) : List BridgeEvent :=
  (P.parseLogs logs.logs).filterMap (ParsedEvent.bridgeEvent? logs.signature)

/-- Handle the events in turn. -/
def BridgeEvent.handleAll (P : Platform) (cfg : Config) (node : Node) : List BridgeEvent → Task Unit
  | [] => .ret ()
  | e :: events => do
    e.handle P cfg node
    handleAll P cfg node events

theorem handleEvents_eq (node : Node) (txSignature : String) (events : List ParsedEvent) :
    SolanaClientService.handleEvents P cfg node txSignature events =
      BridgeEvent.handleAll P cfg node
        (events.filterMap (ParsedEvent.bridgeEvent? txSignature)) := by
  induction events with
  | nil => rfl
  | cons event events ih =>
    cases event with
    | tokensBurned data =>
      rw [SolanaClientService.handleEvents, ih]
      rfl
    | tokensLocked data =>
      rw [SolanaClientService.handleEvents, ih]
      rfl
    | other name =>
      rw [SolanaClientService.handleEvents, ih]
      rfl

theorem Logs.onLogs_eq (node : Node) (logs : Logs) :
    SolanaClientService.onLogs P cfg node logs =
      BridgeEvent.handleAll P cfg node (logs.bridgeEvents P) :=
  handleEvents_eq node logs.signature _

/-- The bridge events of a notification are events on Solana, which every node can sign. -/
theorem Logs.sign_isOk (cfg : Config) {logs : Logs} {e : BridgeEvent}
    (h : e ∈ logs.bridgeEvents P) (node : Node) :
    ∃ signature, e.sign P cfg node = .ok signature := by
  obtain ⟨event, -, hevent⟩ := List.mem_filterMap.1 h
  cases event with
  | tokensLocked data => cases hevent; exact ⟨_, rfl⟩
  | tokensBurned data => cases hevent; exact ⟨_, rfl⟩
  | other name => cases hevent

/-- The first bridge event of the notification gets through the lookups of its handler. -/
def Logs.Routed (P : Platform) (cfg : Config) (logs : Logs) : Prop :=
  ∃ e p, (logs.bridgeEvents P).head? = some e ∧ e.plan P cfg = .ok p

/-- The callback of such a notification begins with a push. -/
theorem Logs.Routed.onLogs {logs : Logs} (h : logs.Routed P cfg) (node : Node) :
    ∃ key value k, SolanaClientService.onLogs P cfg node logs = .await (.rpush key value) k := by
  obtain ⟨e, p, hhead, hplan⟩ := h
  obtain ⟨events, hevents⟩ := List.head?_eq_some_iff.1 hhead
  have hmem : e ∈ logs.bridgeEvents P := by rw [hevents]; exact List.mem_cons_self ..
  obtain ⟨signature, hsign⟩ := Logs.sign_isOk cfg hmem node
  rw [Logs.onLogs_eq, hevents, BridgeEvent.handleAll, e.handle_eq, hplan, hsign]
  exact ⟨_, _, _, rfl⟩

/-- The callback of any other notification ends at once. -/
theorem Logs.routed_of_await {logs : Logs} {node : Node} {o : Op}
    {k : Except JsError o.Resp → Task Unit}
    (h : SolanaClientService.onLogs P cfg node logs = .await o k) : logs.Routed P cfg := by
  rw [Logs.onLogs_eq] at h
  cases hevents : logs.bridgeEvents P with
  | nil => rw [hevents] at h; cases h
  | cons e events =>
    cases hplan : e.plan P cfg with
    | error err =>
      rw [hevents, BridgeEvent.handleAll, e.handle_eq, hplan] at h
      cases h
    | ok p => exact ⟨e, p, by rw [hevents]; rfl, hplan⟩

/-! ## Committed transactions -/

variable {δ : Type} [DecidableEq δ] {node : δ → Node} {logs : δ → Logs}

/-- **Every signature in Redis and every job stems from a transaction without an error, in every
run, exactly when no failed transaction is notified whose first bridge event gets through the
lookups.** -/
theorem committed_iff :
    (∀ (l : List (Action δ)) (w : World δ),
        World.run P cfg env
          (World.init fun d => SolanaClientService.onLogs P cfg (node d) (logs d)) l = some w →
          (∀ key, ∀ x ∈ w.store.lists key, (logs x.1).err = none) ∧
          ∀ id, ∀ d ∈ w.enqueuers id, (logs d).err = none) ↔
      ∀ d, (logs d).err ≠ none → ¬ (logs d).Routed P cfg := by
  constructor
  · intro h d herr hrouted
    obtain ⟨key, value, k, hawait⟩ := hrouted.onLogs (node d)
    obtain ⟨l, w, -, hrun, hstore, -⟩ := World.reach_push P cfg env
      (w := World.init fun d => SolanaClientService.onLogs P cfg (node d) (logs d)) (d := d)
      (congrArg (fun prog => HandlerState.mk prog []) hawait)
    refine herr ((h l w hrun).1 key (d, value) ?_)
    rw [hstore, Store.push_self]
    exact List.mem_append_right _ (List.mem_singleton_self _)
  · intro h l w hrun
    have hw := Started.of_run hrun
    have hcommitted : ∀ d,
        (∃ o k, SolanaClientService.onLogs P cfg (node d) (logs d) = .await o k) →
          (logs d).err = none := by
      rintro d ⟨o, k, hawait⟩
      by_contra herr
      exact h d herr (Logs.routed_of_await hawait)
    refine ⟨fun key x hx => hcommitted _ (hw.lists key x hx), fun id d hd => ?_⟩
    obtain ⟨entry, hmem, hentry⟩ := List.mem_filterMap.1 hd
    exact hcommitted d (hw.trace entry hmem d (Entry.agent_of_enqueuer hentry))

/-- A transaction that locks tokens and then fails. -/
def Sample.failedLock : Logs where
  signature := solanaTransaction
  err := some (.rejected "InstructionError")
  logs := lockLines

/-- The node that is notified of the failed transaction signs it and adds its job. -/
theorem not_committed_sample :
    ¬ ∀ (l : List (Action (Fin 1))) (w : World (Fin 1)),
      World.run Sample.platform Sample.config (Sample.env 1 1)
          (World.init fun _ => SolanaClientService.onLogs Sample.platform Sample.config
            (Sample.node 0) Sample.failedLock) l = some w →
        (∀ key, ∀ x ∈ w.store.lists key, Sample.failedLock.err = none) ∧
          ∀ id, ∀ d ∈ w.enqueuers id, Sample.failedLock.err = none := by
  intro h
  have heval : (World.run Sample.platform Sample.config (Sample.env 1 1)
      (World.init fun _ : Fin 1 => SolanaClientService.onLogs Sample.platform Sample.config
        (Sample.node 0) Sample.failedLock)
      (Sample.push 0 ++ Sample.count 0 ++ [.handler 0 .ok] ++ Sample.enqueue 0)).map
      (fun w => w.enqueuers (Sample.solanaLock.jobId Sample.platform Sample.config)) =
        some [0] := by decide +kernel
  obtain ⟨w, hrun, henq⟩ := Option.map_eq_some_iff.1 heval
  have herr := (h _ w hrun).2 _ 0 (by rw [henq]; simp)
  cases herr

/-! ## Failing events -/

/-- The signatures that are pushed, under their messages. -/
def Answers.pushes (tr : Answers) : List (String × String) :=
  tr.filterMap fun x =>
    match x.1 with
    | .rpush key value => some (key, value)
    | _ => none

/-- The callback that would catch the error of each event. -/
def Logs.isolated (P : Platform) (cfg : Config) (node : Node) (logs : Logs) : Task Unit :=
  Prog.forEachCatch (fun e : BridgeEvent => e.handle P cfg node) (logs.bridgeEvents P)

/-- What the node pushes for an event that gets as far as the push: one that it can look up and
sign. -/
def BridgeEvent.push? (P : Platform) (cfg : Config) (node : Node) (e : BridgeEvent) :
    Option (String × String) :=
  match e.route P cfg, e.sign P cfg node with
  | .ok _, .ok signature => some (e.message P cfg, signature)
  | _, _ => none

theorem BridgeEvent.handleAll_eq (node : Node) (events : List BridgeEvent) :
    handleAll P cfg node events =
      Prog.forEach (fun e : BridgeEvent => e.handle P cfg node) events := by
  induction events with
  | nil => rfl
  | cons e events ih =>
    rw [handleAll, ih]
    rfl

theorem Answers.pushes_append (tr tr' : Answers) : (tr ++ tr').pushes = tr.pushes ++ tr'.pushes :=
  List.filterMap_append

/-- After its push, a handler pushes nothing. -/
theorem Answers.pushes_of_afterPush {e : BridgeEvent} {tr : Answers}
    (h : ∀ x ∈ tr, x.1.AfterPush P cfg e) : tr.pushes = [] := by
  refine List.filterMap_eq_nil_iff.2 fun x hx => ?_
  obtain ⟨o, r⟩ := x
  cases o with
  | rpush key value => exact absurd (h _ hx) not_false
  | _ => rfl

section Turns

variable {σ : Type} {answer : σ → (o : Op) → Except JsError o.Resp × σ} {node : Node}

/-- A handler pushes once or not at all, whatever it is answered. -/
theorem BridgeEvent.pushes_handle (e : BridgeEvent) (s : σ) :
    Answers.pushes ((e.handle P cfg node).record answer s) = (e.push? P cfg node).toList := by
  unfold push?
  cases hroute : e.route P cfg with
  | error err =>
    obtain ⟨err', hthrow⟩ : ∃ err', e.handle P cfg node = .throw err' :=
      BridgeEvent.handle_of_error (Or.inl ⟨err, hroute⟩)
    rw [hthrow]
    rfl
  | ok dest =>
    cases hsign : e.sign P cfg node with
    | error err =>
      obtain ⟨err', hthrow⟩ := BridgeEvent.handle_of_error (P := P) (Or.inr ⟨err, hsign⟩)
      rw [hthrow]
      rfl
    | ok signature =>
      obtain ⟨p, hplan⟩ := BridgeEvent.exists_plan hroute
      have hp := Plan.of_plan hplan
      have hrest : Answers.pushes (p.readThreshold.record answer
          (answer s (.rpush p.message signature)).2) = [] :=
        Answers.pushes_of_afterPush ((Plan.all_readThreshold hp).of_mem_record _)
      rw [e.handle_eq, hplan, hsign]
      show (p.message, signature) :: Answers.pushes _ = [(e.message P cfg, signature)]
      rw [hrest, hp.message]

/-- The loop that catches the errors pushes for every event that gets as far as the push. -/
theorem Logs.pushes_isolated (events : List BridgeEvent) (s : σ) :
    Answers.pushes ((Prog.forEachCatch (fun e : BridgeEvent => e.handle P cfg node) events).record
      answer s) = events.filterMap (BridgeEvent.push? P cfg node) := by
  induction events generalizing s with
  | nil => rfl
  | cons e events ih =>
    rw [(Prog.forEachCatch_cons e events s).2, Answers.pushes_append, BridgeEvent.pushes_handle, ih]
    cases h : e.push? P cfg node with
    | none => rw [List.filterMap_cons_none h, Option.toList_none, List.nil_append]
    | some kv => rw [List.filterMap_cons_some h, Option.toList_some, List.singleton_append]

/-- On Solana, only the lookups keep a handler from its push. -/
theorem Logs.awaits?_eq_none {logs : Logs} {e : BridgeEvent} (h : e ∈ logs.bridgeEvents P) :
    (e.handle P cfg node).awaits? = none ↔ ∃ err, e.route P cfg = .error err := by
  obtain ⟨signature, hsign⟩ := Logs.sign_isOk cfg h node
  cases hroute : e.route P cfg with
  | error err =>
    obtain ⟨err', hthrow⟩ : ∃ err', e.handle P cfg node = .throw err' :=
      BridgeEvent.handle_of_error (Or.inl ⟨err, hroute⟩)
    rw [hthrow]
    exact ⟨fun _ => ⟨err, rfl⟩, fun _ => rfl⟩
  | ok dest =>
    obtain ⟨key, k, hawait⟩ := BridgeEvent.handle_of_route hroute hsign
    rw [hawait]
    exact ⟨fun h => (by cases h), fun ⟨err, h⟩ => by cases h⟩

/-- **Every event of a notification is handled as if the errors of the others were caught, and
pushes its signature if it gets as far, exactly when no event whose handler throws at its turn is
followed by one that gets through its lookups.** -/
theorem notification_isolated_iff (logs : Logs) (s : σ) :
    ((SolanaClientService.onLogs P cfg node logs).record answer s =
          (logs.isolated P cfg node).record answer s ∧
        Answers.pushes ((SolanaClientService.onLogs P cfg node logs).record answer s) =
          (logs.bridgeEvents P).filterMap (BridgeEvent.push? P cfg node)) ↔
      ∀ pre e post, logs.bridgeEvents P = pre ++ e :: post →
        (∃ err, ((e.handle P cfg node).run answer
          ((Prog.forEachCatch (fun e : BridgeEvent => e.handle P cfg node) pre).run answer s).2).1 =
            .error err) →
          ∀ e' ∈ post, ∃ err, e'.route P cfg = .error err := by
  have hiff := Prog.record_forEach_eq_iff answer (fun e : BridgeEvent => e.handle P cfg node)
    (logs.bridgeEvents P) s
  rw [Logs.onLogs_eq, BridgeEvent.handleAll_eq]
  constructor
  · rintro ⟨hrec, -⟩ pre e post hevents hthrow e' he'
    have hmem : e' ∈ logs.bridgeEvents P := by
      rw [hevents]
      exact List.mem_append_right _ (List.mem_cons_of_mem _ he')
    exact (Logs.awaits?_eq_none hmem).1 (hiff.1 hrec pre e post hevents hthrow e' he')
  · intro h
    have hrec := hiff.2 fun pre e post hevents hthrow e' he' => by
      have hmem : e' ∈ logs.bridgeEvents P := by
        rw [hevents]
        exact List.mem_append_right _ (List.mem_cons_of_mem _ he')
      exact (Logs.awaits?_eq_none hmem).2 (h pre e post hevents hthrow e' he')
    exact ⟨hrec, by rw [hrec]; exact Logs.pushes_isolated _ _⟩

end Turns

/-- A mint that the configuration does not have. -/
def Sample.unknownMint : PublicKey :=
  bytes 32 90000504370102394704099784797280792267247599056409324908524740370261802442081

/-- The log lines of a transaction that locks 2500 tokens of an unknown mint, and then 2.5 SOL. -/
def Sample.twoLocks : Logs where
  signature := solanaTransaction
  err := none
  logs :=
    ["Program NfuWnZr8HR4mxULPG61Nh7zSbdinwGtNQGVoeuxM5Jf invoke [1]",
     "Program data: P7jJFMvC+YoA+QKVAAAAAMb6evO+2606PWXzaqvJdDGxu+TC0vbg5HymAgNFL11hiQAAAEIAAAAweDAwMDAwMDAwMDAwMDAwMDAwMDAwMDAwMGYzOWZkNmU1MWFhZDg4ZjZmNGNlNmFiODgyNzI3OWNmZmZiOTIyNjY=",
     "Program NfuWnZr8HR4mxULPG61Nh7zSbdinwGtNQGVoeuxM5Jf success"] ++ lockLines

/-- The library functions, at the arguments that occur in this transaction. -/
def Sample.twoLocksPlatform : Platform :=
  { platform with
    toBase58 := fun key =>
      if key = unknownMint then "EPjFWdd5AufqSSqeM2qN1xzybapC8G4wEGGkZwyTDt1v"
      else "So11111111111111111111111111111111111111112"
    parseLogs := fun lines =>
      if lines = twoLocks.logs then
        [.tokensLocked { lockData with lockedTokenMint := unknownMint }, .tokensLocked lockData]
      else [] }

/-- The lock of the unknown mint keeps the node from signing the other one. -/
theorem not_notification_isolated_sample :
    ¬ ∀ (σ : Type) (answer : σ → (o : Op) → Except JsError o.Resp × σ) (s : σ),
      (SolanaClientService.onLogs Sample.twoLocksPlatform Sample.config (Sample.node 0)
            Sample.twoLocks).record answer s =
          (Sample.twoLocks.isolated Sample.twoLocksPlatform Sample.config (Sample.node 0)).record
            answer s ∧
        Answers.pushes ((SolanaClientService.onLogs Sample.twoLocksPlatform Sample.config
            (Sample.node 0) Sample.twoLocks).record answer s) =
          (Sample.twoLocks.bridgeEvents Sample.twoLocksPlatform).filterMap
            (BridgeEvent.push? Sample.twoLocksPlatform Sample.config (Sample.node 0)) := by
  intro h
  have hpushes := (h Unit (fun _ _ => (.error .stopped, ())) ()).2
  revert hpushes
  decide +kernel

end Tsunagari
