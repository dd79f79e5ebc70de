import Tsunagari.Bridge.Clients

/-!
# Proofs: the courses of the clients

What a client has been answered, and what it sends, when it gets to its transaction.
-/

namespace Tsunagari

open Async (Prog)

variable {P : Platform} {cfg : Config} {L : SolanaLibrary} {tr : ClientAnswers}

/-! ## EVM chains -/

/-- The arguments of the contract call. -/
def EvmCall.arguments (c : EvmCall) : ContractArguments where
  amount := c.amount
  «to» := c.to
  tokenAddress := c.tokenAddress
  messageBytes := messageToBytes c.signedMessage
  signatures := c.signatures

theorem EthereumClientService.serve_eq (c : EvmCall) :
    serve cfg c = sendTransaction cfg c.destinationChainId c.method c.arguments := by
  cases c with
  | mk method signedMessage signatures recipient amount destinationChainId tokenAddress =>
    cases method <;> rfl

/-- **The course of the EVM client up to its transaction.** -/
theorem EvmCall.Sends.course {c : EvmCall} {chainId : ℕ} {contract : String}
    {method : SmartContractMethods} {args : ContractArguments}
    (h : c.Sends cfg chainId contract method args) :
    chainId = c.destinationChainId ∧ method = c.method ∧ args = c.arguments ∧
      ∃ network, cfg.network? c.destinationChainId = some network ∧
        contract = network.bridgeAddress := by
  obtain ⟨tr, k, h⟩ := h
  rw [EthereumClientService.serve_eq, EthereumClientService.sendTransaction] at h
  split at h
  next => cases h.of_throw
  next network hnetwork =>
    split at h
    next => cases h.of_throw
    next =>
      cases h with
      | refl => exact ⟨rfl, rfl, rfl, network, hnetwork, rfl⟩
      | await r₁ h₁ =>
        rcases r₁ with err | tx
        · cases h₁.of_throw
        obtain h₂ | ⟨r₂, tr₂, -, h₂⟩ := h₁.of_await
        · cases h₂
        rcases r₂ with err | status
        · cases h₂.of_throw
        change Prog.Path (if status = none ∨ status = some 0 then _ else _) tr₂ _ at h₂
        by_cases hstatus : status = none ∨ status = some 0
        · rw [if_pos hstatus] at h₂
          cases h₂.of_throw
        · rw [if_neg hstatus] at h₂
          cases h₂.of_ret

/-- The EVM client gets to its transaction, when the bridge of the chain is known. -/
theorem EvmCall.exists_sends {c : EvmCall} {network : Network}
    (hnetwork : cfg.network? c.destinationChainId = some network)
    (haddress : network.bridgeAddress ≠ "") :
    c.Sends cfg c.destinationChainId network.bridgeAddress c.method c.arguments := by
  unfold Sends
  rw [EthereumClientService.serve_eq, EthereumClientService.sendTransaction, hnetwork]
  simp only [if_neg haddress]
  exact ⟨[], _, .refl _⟩

/-! ## Solana -/

/-- The instruction that a call leads to, given the receiver, his token account and the decimals of
the mint. -/
def SolanaCall.instruction (L : SolanaLibrary) (c : SolanaCall) (receiver ata : PublicKey)
    (decimals : ℕ) : Instruction :=
  match c.method with
  | .MINT_WRAPPED_TOKENS =>
    .mintWrapped (SolanaClientService.scaledAmount c.amount decimals) receiver c.tokenMint
      (SolanaClientService.messageBytes c.signedMessage) c.signatures
      (SolanaClientService.accounts L c.tokenMint) receiver ata L.ASSOCIATED_TOKEN_PROGRAM_ID
      (SolanaClientService.remainingAccounts L c.signatures)
  | .UNLOCK_TOKENS =>
    .unlock c.tokenMint (SolanaClientService.scaledAmount c.amount decimals)
      (SolanaClientService.messageBytes c.signedMessage) c.signatures
      (SolanaClientService.accounts L c.tokenMint)
      (L.getAssociatedTokenAddress c.tokenMint (PDADeriver.splVault L L.programId)) ata
      (SolanaClientService.remainingAccounts L c.signatures)

namespace SolanaCall

variable (L) (c : SolanaCall) (receiver ata : PublicKey) (decimals : ℕ)

@[simp] theorem instruction_method :
    (c.instruction L receiver ata decimals).method = c.method := by
  unfold instruction; cases c.method <;> rfl

@[simp] theorem instruction_tokenMint :
    (c.instruction L receiver ata decimals).tokenMint = c.tokenMint := by
  unfold instruction; cases c.method <;> rfl

@[simp] theorem instruction_tokenAccount :
    (c.instruction L receiver ata decimals).tokenAccount = ata := by
  unfold instruction; cases c.method <;> rfl

@[simp] theorem instruction_amount :
    (c.instruction L receiver ata decimals).amount =
      SolanaClientService.scaledAmount c.amount decimals := by
  unfold instruction; cases c.method <;> rfl

@[simp] theorem instruction_message :
    (c.instruction L receiver ata decimals).message =
      SolanaClientService.messageBytes c.signedMessage := by
  unfold instruction; cases c.method <;> rfl

@[simp] theorem instruction_signatures :
    (c.instruction L receiver ata decimals).signatures = c.signatures := by
  unfold instruction; cases c.method <;> rfl

theorem eq_of_mem_receivers {key : PublicKey}
    (h : key ∈ (c.instruction L receiver ata decimals).receivers) : key = receiver := by
  unfold instruction at h
  cases hm : c.method with
  | MINT_WRAPPED_TOKENS => simpa [hm, Instruction.receivers] using h
  | UNLOCK_TOKENS => simp [hm, Instruction.receivers] at h

end SolanaCall

/-- The Solana client up to its transaction, and what is left of it then. -/
theorem SolanaClientService.serve_eq (c : SolanaCall) :
    serve P L c = (do
      let receiver ← Prog.ofExcept
        (QueueProcessor.newPublicKey P (hexToBase58 L c.receiverString))
      let ata ← request (.getOrCreateAssociatedTokenAccount c.tokenMint receiver)
      let decimals ← request (.getMint c.tokenMint)
      let txSignature ← request (.rpc (c.instruction L receiver ata decimals))
      let status ← checkTransactionStatus txSignature
      pure (status, txSignature)) := by
  cases c with
  | mk method signedMessage signatures receiverString amount tokenMint =>
    cases method <;> rfl

/-- **The course of the Solana client up to its transaction.** -/
theorem SolanaCall.Sends.course {c : SolanaCall} {ix : Instruction} (h : c.Sends P L tr ix) :
    ∃ receiver ata decimals,
      QueueProcessor.newPublicKey P (SolanaClientService.hexToBase58 L c.receiverString) =
          .ok receiver ∧
        tr = [⟨.getOrCreateAssociatedTokenAccount c.tokenMint receiver, .ok ata⟩,
          ⟨.getMint c.tokenMint, .ok decimals⟩] ∧
          ix = c.instruction L receiver ata decimals := by
  obtain ⟨k, h⟩ := h
  rw [SolanaClientService.serve_eq] at h
  cases hreceiver : QueueProcessor.newPublicKey P
      (SolanaClientService.hexToBase58 L c.receiverString) with
  | error err => rw [hreceiver] at h; cases h.of_throw
  | ok receiver =>
    rw [hreceiver] at h
    obtain h₁ | ⟨r₁, tr₁, rfl, h₁⟩ := h.of_await
    · cases h₁
    rcases r₁ with err | ata
    · cases h₁.of_throw
    obtain h₂ | ⟨r₂, tr₂, rfl, h₂⟩ := h₁.of_await
    · cases h₂
    rcases r₂ with err | decimals
    · cases h₂.of_throw
    cases h₂ with
    | refl => exact ⟨receiver, ata, decimals, rfl, rfl, rfl⟩
    | await r₃ h₃ =>
      rcases r₃ with err | txSignature
      · cases h₃.of_throw
      obtain h₄ | ⟨r₄, tr₄, -, h₄⟩ := h₃.of_await
      · cases h₄
      rcases r₄ with err | tx <;> cases h₄.of_ret

/-- The Solana client gets to its transaction, when the receiver is a public key. -/
theorem SolanaCall.exists_sends {c : SolanaCall} {receiver : PublicKey}
    (hreceiver : QueueProcessor.newPublicKey P
      (SolanaClientService.hexToBase58 L c.receiverString) = .ok receiver)
    (ata : PublicKey) (decimals : ℕ) :
    c.Sends P L [⟨.getOrCreateAssociatedTokenAccount c.tokenMint receiver, .ok ata⟩,
      ⟨.getMint c.tokenMint, .ok decimals⟩] (c.instruction L receiver ata decimals) := by
  unfold Sends
  rw [SolanaClientService.serve_eq, hreceiver]
  exact ⟨_, .await _ (.await _ (.refl _))⟩

end Tsunagari
