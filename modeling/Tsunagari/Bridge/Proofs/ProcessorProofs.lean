import Tsunagari.Bridge.World
import Tsunagari.Bridge.Plan

/-!
# Proofs: the course of the processor
-/

namespace Tsunagari

namespace QueueProcessor

open Async (Prog)

/-! ## Decoding -/

theorem bigInt_eq_ok {text : String} {n : ℤ} : bigInt text = .ok n ↔ Js.bigInt text = some n := by
  unfold bigInt
  cases Js.bigInt text with
  | none => exact ⟨fun h => (by cases h), fun h => by cases h⟩
  | some m => exact ⟨fun h => by cases h; rfl, fun h => by cases h; rfl⟩

theorem newPublicKey_eq_ok {P : Platform} {address : Option String} {key : PublicKey} :
    newPublicKey P address = .ok key ↔
      ∃ text, address = some text ∧ P.publicKey text = .ok key := by
  cases address with
  | none => exact ⟨fun h => (by cases h), fun ⟨_, h, _⟩ => by cases h⟩
  | some text => exact ⟨fun h => ⟨text, rfl, h⟩, fun ⟨_, htext, h⟩ => by cases htext; exact h⟩

/-- The call for a destination on Solana. -/
theorem destinationCall_eq_solana {P : Platform} {data : BridgeJob} {vs : List String} {c : Call}
    (hd : data.destinationChainId = SOLANA_CHAIN_ID) :
    destinationCall P data vs = .ok c ↔
      ∃ tokenMint amount, newPublicKey P data.destinationTokenAddress = .ok tokenMint ∧
        bigInt data.amount = .ok amount ∧
          c = .solana { method := method data.type, signedMessage := data.message,
                        signatures := vs.map signatureBytes, receiverString := data.recipient,
                        amount, tokenMint } := by
  unfold destinationCall solanaCall
  rw [if_pos hd]
  cases newPublicKey P data.destinationTokenAddress with
  | error e => exact ⟨fun h => (by cases h), fun ⟨_, _, h, _⟩ => by cases h⟩
  | ok tokenMint =>
    cases bigInt data.amount with
    | error e => exact ⟨fun h => (by cases h), fun ⟨_, _, _, h, _⟩ => by cases h⟩
    | ok amount =>
      constructor
      · rintro ⟨⟩
        exact ⟨tokenMint, amount, rfl, rfl, rfl⟩
      · rintro ⟨_, _, ⟨⟩, ⟨⟩, rfl⟩
        rfl

/-- The call for a destination on an EVM chain. -/
theorem destinationCall_eq_evm {P : Platform} {data : BridgeJob} {vs : List String} {c : Call}
    (hd : ¬ data.destinationChainId = SOLANA_CHAIN_ID) :
    destinationCall P data vs = .ok c ↔
      ∃ amount, bigInt data.amount = .ok amount ∧
        c = .evm { method := method data.type, signedMessage := data.message, signatures := vs,
                   «to» := "0x" ++ Js.sliceEnd 40 data.recipient, amount,
                   destinationChainId := data.destinationChainId,
                   tokenAddress := data.destinationTokenAddress } := by
  unfold destinationCall evmCall
  rw [if_neg hd]
  cases bigInt data.amount with
  | error e => exact ⟨fun h => (by cases h), fun ⟨_, h, _⟩ => by cases h⟩
  | ok amount =>
    constructor
    · rintro ⟨⟩
      exact ⟨amount, rfl, rfl⟩
    · rintro ⟨_, ⟨⟩, rfl⟩
      rfl

/-- Whether the fields of a job can be decoded does not depend on its signatures. -/
theorem destinationCall_isOk {P : Platform} {data : BridgeJob} {vs vs' : List String} {c : Call}
    (h : destinationCall P data vs = .ok c) : ∃ c', destinationCall P data vs' = .ok c' := by
  by_cases hd : data.destinationChainId = SOLANA_CHAIN_ID
  · obtain ⟨tokenMint, amount, hk, ha, -⟩ := (destinationCall_eq_solana hd).1 h
    exact ⟨_, (destinationCall_eq_solana hd).2 ⟨tokenMint, amount, hk, ha, rfl⟩⟩
  · obtain ⟨amount, ha, -⟩ := (destinationCall_eq_evm hd).1 h
    exact ⟨_, (destinationCall_eq_evm hd).2 ⟨amount, ha, rfl⟩⟩

/-- A submission carries all signatures that were read. -/
theorem signatureCount_of_destinationCall {P : Platform} {data : BridgeJob} {vs : List String}
    {c : Call} (h : destinationCall P data vs = .ok c) : c.signatureCount = vs.length := by
  by_cases hd : data.destinationChainId = SOLANA_CHAIN_ID
  · obtain ⟨tokenMint, amount, -, -, rfl⟩ := (destinationCall_eq_solana hd).1 h
    exact List.length_map ..
  · obtain ⟨amount, -, rfl⟩ := (destinationCall_eq_evm hd).1 h
    rfl

theorem Decodes.call {P : Platform} {data : BridgeJob} (h : Decodes P data) (vs : List String) :
    ∃ c, destinationCall P data vs = .ok c := by
  obtain ⟨c, hc⟩ := h
  exact destinationCall_isOk hc

/-! ## `process` -/

theorem processJobWithSolanaDestination_eq (P : Platform) (data : BridgeJob) (vs : List String)
    (hd : data.destinationChainId = SOLANA_CHAIN_ID) :
    (processJobWithSolanaDestination P data vs).tryCatch (fun _ => .ret ()) =
      deliver P data vs := by
  unfold processJobWithSolanaDestination deliver destinationCall
  rw [if_pos hd]
  cases solanaCall P data vs with
  | error e => rfl
  | ok c =>
    refine congrArg (Prog.await _) (funext fun r => ?_)
    rcases r with e | status <;> rfl

theorem processJobWithEvmDestination_eq (P : Platform) (data : BridgeJob) (vs : List String)
    (hd : ¬ data.destinationChainId = SOLANA_CHAIN_ID) :
    (processJobWithEvmDestination data vs).tryCatch (fun _ => .ret ()) = deliver P data vs := by
  unfold processJobWithEvmDestination deliver destinationCall
  rw [if_neg hd]
  cases evmCall data vs with
  | error e => rfl
  | ok c =>
    refine congrArg (Prog.await _) (funext fun r => ?_)
    rcases r with e | status <;> rfl

/-- **`process` follows its course**: read the list, empty it, deliver; nothing is ever thrown. -/
theorem process_eq (P : Platform) (data : BridgeJob) : process P data = start P data := by
  refine congrArg (Prog.await _) (funext fun r => ?_)
  rcases r with e | vs
  · rfl
  · rcases vs with _ | ⟨v, vs⟩
    · rfl
    · refine congrArg (Prog.await _) (funext fun r => ?_)
      have hdel : ∀ u : Option ℕ, ((pure u : Task (Option ℕ)) >>= fun _ =>
          if data.destinationChainId = SOLANA_CHAIN_ID then
            processJobWithSolanaDestination P data (v :: vs)
          else processJobWithEvmDestination data (v :: vs)).tryCatch (fun _ => .ret ()) =
            deliver P data (v :: vs) := by
        intro u
        by_cases hd : data.destinationChainId = SOLANA_CHAIN_ID
        · rw [← processJobWithSolanaDestination_eq P data _ hd]
          simp only [Prog.pure_eq, Prog.ret_bind, if_pos hd]
        · rw [← processJobWithEvmDestination_eq P data _ hd]
          simp only [Prog.pure_eq, Prog.ret_bind, if_neg hd]
      rcases r with e | n
      · exact hdel none
      · exact hdel (some n)

/-! ## The course of a worker -/

/-- What is left of the worker of a job: `V` holds of the signatures that it has read, and `D` when
it has ended. -/
inductive Course (P : Platform) (data : BridgeJob) (V : List String → Prop) (D : Prop) :
    Task Unit → Prop where
  | start : Course P data V D (start P data)
  | held (vs : List String) (h : V vs) :
      Course P data V D (.await (.del data.message) fun _ => deliver P data vs)
  | cleared (vs : List String) (h : V vs) : Course P data V D (deliver P data vs)
  | served (h : D) : Course P data V D (.ret ())

namespace Course

variable {P : Platform} {data : BridgeJob} {V : List String → Prop} {D D' : Prop} {prog : Task Unit}

theorem mono (h : Course P data V D prog) (hD : D → D') : Course P data V D' prog := by
  cases h with
  | start => exact .start
  | held vs h => exact .held vs h
  | cleared vs h => exact .cleared vs h
  | served h => exact .served (hD h)

/-- Nothing is ever thrown. -/
theorem ne_throw (h : Course P data V D prog) (e : JsError) : prog ≠ .throw e := by
  intro hp
  cases h with
  | start => cases hp
  | held vs h => cases hp
  | cleared vs h =>
    unfold deliver at hp
    split at hp <;> cases hp
  | served h => cases hp

/-- A worker that has read something and whose job can be decoded ends after the call. -/
theorem of_ret {u : Unit} (h : Course P data V D (.ret u)) (hV : ∀ vs, V vs → Decodes P data) :
    D := by
  generalize hp : Prog.ret u = prog at h
  cases h with
  | start => cases hp
  | held vs h => cases hp
  | cleared vs h =>
    obtain ⟨c, hc⟩ := (hV vs h).call vs
    cases c <;> (rw [deliver, hc] at hp; cases hp)
  | served h => exact h

/-- What a worker reads, unless it is nothing, it goes on with. -/
theorem afterRead {vs : List String} (hvs : vs ≠ [] → V vs) (hD : vs = [] → D) :
    Course P data V D (afterRead P data vs) := by
  unfold QueueProcessor.afterRead
  by_cases h : vs = []
  · rw [if_pos h]; exact .served (hD h)
  · rw [if_neg h]; exact .held vs (hvs h)

end Course

end QueueProcessor

end Tsunagari
