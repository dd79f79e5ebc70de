import Tsunagari.Bridge.Faults
import Tsunagari.Bridge.Proofs.ProcessorProofs
import Tsunagari.Bridge.Proofs.WorldProofs
import Tsunagari.Bridge.Sample

/-!
# Proofs: when a failed delivery is dropped

`process` never throws, so that a job whose delivery fails is completed like any other, and the list
is emptied before the call of the destination client.
-/

namespace Tsunagari

open Async (Prog)
open QueueProcessor (destinationCall deliver afterRead start)

variable {δ : Type} {P : Platform} {env : Env} {f : Faults} {data : BridgeJob} {store : Store δ}

/-! ## The answers -/

theorem answer_lrange_error {key : String} {e : JsError} (s : Session δ) (h : f.lrange = some e) :
    s.answer env f (.lrange key) =
      (.error e, { s with log := s.log ++ [⟨.lrange key, .error e⟩] }) := by
  simp only [Session.answer, Faults.reply, h, Store.answer]

theorem answer_lrange_ok {key : String} (s : Session δ) (h : f.lrange = none) :
    s.answer env f (.lrange key) = (.ok ((s.store.lists key).map Prod.snd),
      { s with log := s.log ++ [⟨.lrange key, .ok ((s.store.lists key).map Prod.snd)⟩] }) := by
  simp only [Session.answer, Faults.reply, h, Store.answer, if_true]

/-- Emptying the list records one answer, whether or not it fails. -/
theorem answer_del_log (env : Env) (f : Faults) (key : String) (s : Session δ) :
    ∃ r, (s.answer env f (.del key)).2.log = s.log ++ [⟨.del key, r⟩] := by
  cases h : f.del with
  | none =>
    exact ⟨.ok (if s.store.lists key = [] then 0 else 1), by
      simp only [Session.answer, Faults.reply, h, Store.answer, if_true]⟩
  | some e => exact ⟨.error e, by simp only [Session.answer, Faults.reply, h, Store.answer]⟩

theorem answer_callEvm_log (c : EvmCall) (s : Session δ) :
    (s.answer env f (.callEvm c)).2.log = s.log ++ [⟨.callEvm c, f.callEvm c⟩] := by
  cases h : f.callEvm c <;> simp only [Session.answer, Faults.reply, h, Store.answer]

theorem answer_callSolana_log (c : SolanaCall) (s : Session δ) :
    (s.answer env f (.callSolana c)).2.log = s.log ++ [⟨.callSolana c, f.callSolana c⟩] := by
  cases h : f.callSolana c <;> simp only [Session.answer, Faults.reply, h, Store.answer]

/-! ## Delivered transactions -/

/-- The transaction of some call succeeded. -/
def Session.Delivered (s : Session δ) : Prop := ∃ x ∈ s.log, x.1.Delivered x.2

theorem delivered_append {s s' : Session δ} {x : Σ o : Op, Except JsError o.Resp}
    (h : s'.log = s.log ++ [x]) : s'.Delivered ↔ s.Delivered ∨ x.1.Delivered x.2 := by
  simp only [Session.Delivered, h, List.mem_append, List.mem_singleton, or_and_right, exists_or,
    exists_eq_left]

/-- The call is answered by a successful transaction exactly when the faults let it succeed. -/
theorem delivered_callEvm {c : EvmCall} :
    Op.Delivered (.callEvm c) (f.callEvm c) ↔ f.Delivers (.evm c) := by
  cases h : f.callEvm c <;> simp [Op.Delivered, Faults.Delivers, h]

theorem delivered_callSolana {c : SolanaCall} :
    Op.Delivered (.callSolana c) (f.callSolana c) ↔ f.Delivers (.solana c) := by
  cases h : f.callSolana c <;> simp [Op.Delivered, Faults.Delivers, h, Prod.ext_iff]

/-! ## The stages -/

/-- The last stage delivers exactly when the fields decode and the call succeeds. -/
theorem run_deliver (P : Platform) (env : Env) (f : Faults) (data : BridgeJob) (vs : List String)
    (s : Session δ) :
    ((deliver P data vs).run (Session.answer env f) s).1 = .ok () ∧
      (((deliver P data vs).run (Session.answer env f) s).2.Delivered ↔
        s.Delivered ∨ ∃ c, destinationCall P data vs = .ok c ∧ f.Delivers c) := by
  cases h : destinationCall P data vs with
  | error e => simp only [deliver, h, Prog.run, reduceCtorEq, false_and, exists_false, or_false,
      true_and]
  | ok c =>
    cases c with
    | evm c =>
      simp only [deliver, h, Prog.run, true_and, Except.ok.injEq, exists_eq_left']
      rw [delivered_append (answer_callEvm_log c s), delivered_callEvm]
    | solana c =>
      simp only [deliver, h, Prog.run, true_and, Except.ok.injEq, exists_eq_left']
      rw [delivered_append (answer_callSolana_log c s), delivered_callSolana]

/-- So does the stage before it, unless nothing was read. -/
theorem run_afterRead (P : Platform) (env : Env) (f : Faults) (data : BridgeJob) (vs : List String)
    (s : Session δ) :
    ((afterRead P data vs).run (Session.answer env f) s).1 = .ok () ∧
      (((afterRead P data vs).run (Session.answer env f) s).2.Delivered ↔
        s.Delivered ∨ vs ≠ [] ∧ ∃ c, destinationCall P data vs = .ok c ∧ f.Delivers c) := by
  unfold afterRead
  by_cases hvs : vs = []
  · rw [if_pos hvs]
    simp only [Prog.run, ne_eq, hvs, not_true_eq_false, false_and, or_false, true_and]
  · obtain ⟨r, hlog⟩ := answer_del_log env f data.message s
    have hdel := delivered_append hlog
    simp only [Op.Delivered, or_false] at hdel
    rw [if_neg hvs]
    simp only [Prog.run, ne_eq, hvs, not_false_eq_true, true_and, ← hdel]
    exact run_deliver P env f data vs _

/-- **`process` never rejects**, and it delivers exactly when the list is read and not empty, the
fields of the job decode, and the transaction of the call succeeds. -/
theorem processAlone_cases (P : Platform) (env : Env) (f : Faults) (store : Store δ)
    (data : BridgeJob) :
    (processAlone P env f store data).1 = .ok () ∧
      ((processAlone P env f store data).2.Delivered ↔
        f.lrange = none ∧ store.lists data.message ≠ [] ∧
          ∃ c, destinationCall P data ((store.lists data.message).map Prod.snd) = .ok c ∧
            f.Delivers c) := by
  rw [processAlone, QueueProcessor.process_eq, start]
  cases h : f.lrange with
  | some e =>
    simp only [Prog.run, answer_lrange_error _ h, reduceCtorEq, false_and, true_and]
    simp only [Session.Delivered, List.nil_append, List.mem_singleton, exists_eq_left, Op.Delivered]
  | none =>
    simp only [Prog.run, answer_lrange_ok _ h, true_and]
    obtain ⟨hret, hiff⟩ := run_afterRead P env f data
      ((store.lists data.message).map Prod.snd)
      { store, log := [⟨.lrange data.message, .ok ((store.lists data.message).map Prod.snd)⟩] }
    refine ⟨hret, hiff.trans ?_⟩
    simp only [Session.Delivered, List.mem_singleton, exists_eq_left, Op.Delivered, false_or, ne_eq,
      List.map_eq_nil_iff]

/-! ## Dropped deliveries -/

/-- **Either the destination transaction succeeded, or `process` rejected and left the signature
list as it was, exactly when no failure is met**: the list is read and not empty, the fields of the
job decode, and the transaction of the call succeeds. -/
theorem delivered_or_kept_iff :
    ((processAlone P env f store data).2.Delivered ∨
        (∃ e, (processAlone P env f store data).1 = .error e) ∧
          (processAlone P env f store data).2.store.lists data.message =
            store.lists data.message) ↔
      f.lrange = none ∧ store.lists data.message ≠ [] ∧
        ∃ c, destinationCall P data ((store.lists data.message).map Prod.snd) = .ok c ∧
          f.Delivers c := by
  obtain ⟨hret, hiff⟩ := processAlone_cases P env f store data
  simp only [hret, reduceCtorEq, exists_false, false_and, or_false]
  exact hiff

/-- The commands of Redis succeed, and the EVM chain cannot be reached. -/
def Sample.unreachable : Faults where
  lrange := none
  del := none
  callEvm _ := .error (.rejected "could not detect network")
  callSolana _ := .ok (true, solanaTransaction)

/-- The destination chain cannot be reached: `process` resolves, and the list is empty. -/
theorem not_delivered_or_kept_sample :
    ¬ ((processAlone Sample.platform (Sample.env 1 1) Sample.unreachable Sample.signed
          Sample.job).2.Delivered ∨
        (∃ e, (processAlone Sample.platform (Sample.env 1 1) Sample.unreachable Sample.signed
          Sample.job).1 = .error e) ∧
          (processAlone Sample.platform (Sample.env 1 1) Sample.unreachable Sample.signed
            Sample.job).2.store.lists Sample.job.message =
            Sample.signed.lists Sample.job.message) := by
  rintro (h | ⟨-, h⟩)
  · obtain ⟨-, -, c, hc, hdel⟩ := (processAlone_cases _ _ _ _ _).2.1 h
    obtain ⟨amount, -, rfl⟩ := (QueueProcessor.destinationCall_eq_evm (by decide)).1 hc
    obtain ⟨status, hstatus, -⟩ := hdel
    cases hstatus
  · revert h; decide +kernel

end Tsunagari
