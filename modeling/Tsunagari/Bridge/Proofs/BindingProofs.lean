import Tsunagari.Bridge.Proofs.WireProofs
import Tsunagari.Bridge.Routes
import Tsunagari.Encoding.Proofs.Eip191Proofs

/-!
# Proofs: when a signature is bound to its transfer

The message of an event is a hash of its transaction. Where the tokens go, to whom, and how many
they are does not flow into it, so that two events of one transaction have the same message.
-/

namespace Tsunagari

variable {P : Platform} {cfg : Config} {env : Env} {e e₁ e₂ : BridgeEvent}

/-! ## What a transfer is, and what is signed for it -/

/-- What an event asks for; the amount is counted in units of 18 decimals. -/
structure Transfer where
  destinationChain : ℕ
  token : Option String
  recipient : String
  amount : ℚ
  deriving DecidableEq

namespace BridgeEvent

/-- The recipient, as the event has it. -/
def recipient : BridgeEvent → String
  | tokensLocked _ log => hexlify log.destinationAddress.toList
  | wrappedTokensBurned _ log => hexlify log.destinationAddress.toList
  | solanaTokensLocked _ data => data.destinationAddress
  | solanaTokensBurned _ data => data.destinationAddress

/-- The exact amount, in units of 18 decimals. -/
def exactAmount (env : Env) : BridgeEvent → ℚ
  | tokensLocked _ log => log.amount.toNat
  | wrappedTokensBurned _ log => log.amount.toNat
  | solanaTokensLocked _ data =>
    data.amount.toNat * 10 ^ (ETH_DECIMALS - env.decimals data.lockedTokenMint)
  | solanaTokensBurned _ data =>
    data.amount.toNat * 10 ^ (ETH_DECIMALS - env.decimals data.burnedTokenMint)

def transfer (P : Platform) (cfg : Config) (env : Env) (e : BridgeEvent) : Transfer where
  destinationChain := e.destinationChain
  token := e.counterpart? P cfg
  recipient := e.recipient
  amount := e.exactAmount env

/-- The event is signed in the scheme of Solana: it comes from an EVM chain and goes to Solana. -/
def SignsForSolana : BridgeEvent → Prop
  | tokensLocked _ log => chainNumber log.destinationChainId.toNat = SOLANA_CHAIN_ID
  | wrappedTokensBurned _ log => chainNumber log.destinationChainId.toNat = SOLANA_CHAIN_ID
  | solanaTokensLocked _ _ => False
  | solanaTokensBurned _ _ => False

instance : DecidablePred SignsForSolana
  | tokensLocked _ _ => inferInstanceAs (Decidable (chainNumber _ = SOLANA_CHAIN_ID))
  | wrappedTokensBurned _ _ => inferInstanceAs (Decidable (chainNumber _ = SOLANA_CHAIN_ID))
  | solanaTokensLocked _ _ => .isFalse not_false
  | solanaTokensBurned _ _ => .isFalse not_false

/-- The bytes whose hash a node signs for the event. -/
def signedBytes (P : Platform) (cfg : Config) (e : BridgeEvent) : Bytes :=
  if e.SignsForSolana then bufferFromHex (e.message P cfg)
  else Eip191.preimage (Js.toUtf8Bytes (e.message P cfg))

/-- The events are signed in different schemes, or in the same one and come from different
transactions; for Solana, whose messages moreover differ before an unpaired last digit. -/
def Separated (P : Platform) (cfg : Config) (e₁ e₂ : BridgeEvent) : Prop :=
  if e₁.SignsForSolana then
    e₂.SignsForSolana →
      Hex.paired (e₁.message P cfg).toList ≠ Hex.paired (e₂.message P cfg).toList
  else ¬ e₂.SignsForSolana → e₁.transaction ≠ e₂.transaction

theorem signedBytes_of_signsForSolana (h : e.SignsForSolana) :
    e.signedBytes P cfg = bufferFromHex (e.message P cfg) := if_pos h

theorem signedBytes_of_not (h : ¬ e.SignsForSolana) :
    e.signedBytes P cfg = Eip191.preimage (Js.toUtf8Bytes (e.message P cfg)) := if_neg h

end BridgeEvent

/-! ## Signatures -/

/-- What the EVM handlers sign. -/
theorem EthereumClientService.sign_cases {node : Node} {chain : ℕ} {message s : String}
    (h : sign P cfg node chain message = .ok s) :
    if chain = SOLANA_CHAIN_ID then
      SolanaClientService.signMessageEVM P message node.privateKey = .ok s
    else s = walletSignMessage P node.privateKey message := by
  unfold sign at h
  split at h
  next hchain => rwa [if_pos hchain]
  next hchain =>
    rw [if_neg hchain]
    unfold signMessage at h
    split at h <;> cases h
    rfl

/-- What a node signs for an event depends only on the scheme and on the message. -/
theorem BridgeEvent.sign_cases {node : Node} {s : String} (h : e.sign P cfg node = .ok s) :
    if e.SignsForSolana then
      SolanaClientService.signMessageEVM P (e.message P cfg) node.privateKey = .ok s
    else s = walletSignMessage P node.privateKey (e.message P cfg) := by
  cases e with
  | tokensLocked chainId log => exact EthereumClientService.sign_cases h
  | wrappedTokensBurned chainId log => exact EthereumClientService.sign_cases h
  | solanaTokensLocked txSignature data => exact (Except.ok.inj h).symm
  | solanaTokensBurned txSignature data => exact (Except.ok.inj h).symm

/-- The bytes that are signed for Solana are not those of a wallet's message. -/
theorem bufferFromHex_message_ne (P : Platform) (cfg : Config) (e : BridgeEvent)
    (message : Bytes) : bufferFromHex (e.message P cfg) ≠ Eip191.preimage message := by
  intro h
  have hmem := Eip191.mem_preimage message
  rw [← h] at hmem
  have hlt := Hex.mod_lt_of_mem_decode (fun _ => isDigit_of_mem_createMessage) hmem
  revert hlt
  decide

/-- **Signatures over the same bytes are interchangeable**: the node makes the same signature for
both events. -/
theorem sign_eq_of_signedBytes (h : e₁.signedBytes P cfg = e₂.signedBytes P cfg) {node : Node}
    {s₁ s₂ : String} (h₁ : e₁.sign P cfg node = .ok s₁) (h₂ : e₂.sign P cfg node = .ok s₂) :
    s₁ = s₂ := by
  have hs₁ := BridgeEvent.sign_cases h₁
  have hs₂ := BridgeEvent.sign_cases h₂
  by_cases hsol₁ : e₁.SignsForSolana <;> by_cases hsol₂ : e₂.SignsForSolana
  · rw [BridgeEvent.signedBytes_of_signsForSolana hsol₁,
      BridgeEvent.signedBytes_of_signsForSolana hsol₂] at h
    rw [if_pos hsol₁, SolanaClientService.signMessageEVM, h] at hs₁
    rw [if_pos hsol₂, SolanaClientService.signMessageEVM] at hs₂
    exact Except.ok.inj (hs₁.symm.trans hs₂)
  · rw [BridgeEvent.signedBytes_of_signsForSolana hsol₁, BridgeEvent.signedBytes_of_not hsol₂] at h
    exact absurd h (bufferFromHex_message_ne _ _ _ _)
  · rw [BridgeEvent.signedBytes_of_not hsol₁, BridgeEvent.signedBytes_of_signsForSolana hsol₂] at h
    exact absurd h.symm (bufferFromHex_message_ne _ _ _ _)
  · rw [BridgeEvent.signedBytes_of_not hsol₁, BridgeEvent.signedBytes_of_not hsol₂] at h
    rw [if_neg hsol₁, walletSignMessage, Eip191.preimage_injective h] at hs₁
    rw [if_neg hsol₂, walletSignMessage] at hs₂
    exact hs₁.trans hs₂.symm

/-! ## The exact condition -/

/-- Messages without a collision are as different as their transactions. -/
theorem message_inj (hcollision : P.murmur3 e₁.transaction cfg.murmur3Seed =
      P.murmur3 e₂.transaction cfg.murmur3Seed → e₁.transaction = e₂.transaction) :
    e₁.message P cfg = e₂.message P cfg ↔ e₁.transaction = e₂.transaction := by
  constructor
  · intro h
    exact hcollision (createMessage_eq h)
  · intro h
    rw [BridgeEvent.message, BridgeEvent.message, h]

theorem signedBytes_ne_iff (hcollision : P.murmur3 e₁.transaction cfg.murmur3Seed =
      P.murmur3 e₂.transaction cfg.murmur3Seed → e₁.transaction = e₂.transaction) :
    e₁.signedBytes P cfg ≠ e₂.signedBytes P cfg ↔ e₁.Separated P cfg e₂ := by
  unfold BridgeEvent.Separated
  by_cases hsol₁ : e₁.SignsForSolana <;> by_cases hsol₂ : e₂.SignsForSolana
  · rw [BridgeEvent.signedBytes_of_signsForSolana hsol₁,
      BridgeEvent.signedBytes_of_signsForSolana hsol₂, if_pos hsol₁, forall_prop_of_true hsol₂]
    exact bufferFromHex_inj.not
  · rw [BridgeEvent.signedBytes_of_signsForSolana hsol₁, BridgeEvent.signedBytes_of_not hsol₂,
      if_pos hsol₁]
    exact iff_of_true (bufferFromHex_message_ne _ _ _ _) fun h => absurd h hsol₂
  · rw [BridgeEvent.signedBytes_of_not hsol₁, BridgeEvent.signedBytes_of_signsForSolana hsol₂,
      if_neg hsol₁]
    exact iff_of_true (bufferFromHex_message_ne _ _ _ _).symm fun h => absurd hsol₂ h
  · rw [BridgeEvent.signedBytes_of_not hsol₁, BridgeEvent.signedBytes_of_not hsol₂, if_neg hsol₁,
      forall_prop_of_true hsol₂, ne_eq, Eip191.preimage_injective.eq_iff,
      toUtf8Bytes_injective.eq_iff, message_inj hcollision]

/-- **The signed bytes tell two different transfers apart exactly when they are signed in different
schemes, or come from different transactions and, for Solana, their messages differ before an
unpaired last digit.** -/
theorem binding_iff (hcollision : P.murmur3 e₁.transaction cfg.murmur3Seed =
      P.murmur3 e₂.transaction cfg.murmur3Seed → e₁.transaction = e₂.transaction) :
    (e₁.transfer P cfg env ≠ e₂.transfer P cfg env →
        e₁.signedBytes P cfg ≠ e₂.signedBytes P cfg) ↔
      (e₁.transfer P cfg env ≠ e₂.transfer P cfg env → e₁.Separated P cfg e₂) := by
  rw [signedBytes_ne_iff hcollision]

/-- A lock on the first EVM chain and one on Solana. -/
theorem binding_iff_sample :
    ((Sample.lock 137).transfer Sample.platform Sample.config (Sample.env 2 2) ≠
          Sample.solanaLock.transfer Sample.platform Sample.config (Sample.env 2 2) →
        (Sample.lock 137).signedBytes Sample.platform Sample.config ≠
          Sample.solanaLock.signedBytes Sample.platform Sample.config) ↔
      ((Sample.lock 137).transfer Sample.platform Sample.config (Sample.env 2 2) ≠
          Sample.solanaLock.transfer Sample.platform Sample.config (Sample.env 2 2) →
        (Sample.lock 137).Separated Sample.platform Sample.config Sample.solanaLock) :=
  binding_iff fun h => absurd h (by decide +kernel)

/-- A second lock in the same transaction, of twice as much. -/
def Sample.secondLock : BridgeEvent :=
  .tokensLocked 1
    { tokenAddress := token
      amount := 3000000000000000000
      destinationChainId := 137
      destinationAddress := bytes 32 0xf39fd6e51aad88f6f4ce6ab8827279cfffb92266
      transactionHash := evmTransaction }

/-- The nodes sign the same bytes for both locks. -/
theorem not_binding_sample :
    ¬ ∀ e₁ e₂ : BridgeEvent,
      (Sample.platform.murmur3 e₁.transaction Sample.config.murmur3Seed =
          Sample.platform.murmur3 e₂.transaction Sample.config.murmur3Seed →
        e₁.transaction = e₂.transaction) →
      e₁.transfer Sample.platform Sample.config (Sample.env 2 2) ≠
          e₂.transfer Sample.platform Sample.config (Sample.env 2 2) →
        e₁.signedBytes Sample.platform Sample.config ≠
          e₂.signedBytes Sample.platform Sample.config := by
  intro h
  have hne := h (Sample.lock 137) Sample.secondLock (fun _ => rfl) fun heq =>
    absurd (congrArg Transfer.amount heq) (by decide +kernel)
  exact absurd (by decide +kernel) hne

end Tsunagari
