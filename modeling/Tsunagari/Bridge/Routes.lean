import Tsunagari.Bridge.Clients

/-!
# The routes of the configuration

Which token the configuration gives for a token and a destination chain: first by the exact number
of the chain, then as the handlers look it up.
-/

namespace Tsunagari

/-! ## Counterparts -/

/-- The counterpart of a token on a chain: `wrapped` gives it for a lock, `native` for a burn. -/
def TokenEntry.counterpart (entry : TokenEntry) : JobTypes → ℕ → Option String
  | .HANDLE_LOCK, destination => entry.wrapped.bind fun wrapped => wrapped (toString destination)
  | .HANDLE_BURN, destination => entry.native.bind fun native => native (toString destination)

/-- The counterpart of a token of an EVM chain. -/
def Config.evmCounterpart (cfg : Config) (type : JobTypes) (origin : ℕ) (tokenAddress : String)
    (destination : ℕ) : Option String := do
  let tokens ← cfg.evmTokens (chainKey origin)
  let entry ← tokens tokenAddress
  entry.counterpart type destination

/-- The counterpart of a token of Solana. -/
def Config.solanaCounterpart (cfg : Config) (type : JobTypes) (tokenAddress : String)
    (destination : ℕ) : Option String := do
  let entry ← cfg.solanaTokens tokenAddress
  entry.counterpart type destination

/-- The destinations in the token configuration are chain ids below `2 ^ 53`, where a `Number` is
exact. -/
def Config.SafeChainIds (cfg : Config) : Prop :=
  ∀ chain tokens address entry side key token,
    cfg.evmTokens chain = some tokens → tokens address = some entry →
      entry.wrapped = some side ∨ entry.native = some side → side key = some token →
        ∃ c < 2 ^ 53, key = toString c

namespace BridgeEvent

/-- A lock or burn on an EVM chain. -/
def ofEvm : JobTypes → ℕ → EvmLog → BridgeEvent
  | .HANDLE_LOCK, chainId, log => tokensLocked chainId log
  | .HANDLE_BURN, chainId, log => wrappedTokensBurned chainId log

/-- The destination chain that the event names. -/
def destinationChain : BridgeEvent → ℕ
  | tokensLocked _ log => log.destinationChainId.toNat
  | wrappedTokensBurned _ log => log.destinationChainId.toNat
  | solanaTokensLocked _ data => data.destinationChain.toNat
  | solanaTokensBurned _ data => data.destinationChain.toNat

/-- The counterpart of the token of the event on the destination chain that it names. -/
def counterpart? (P : Platform) (cfg : Config) (e : BridgeEvent) : Option String :=
  match e with
  | tokensLocked chainId log =>
    cfg.evmCounterpart .HANDLE_LOCK chainId log.tokenAddress e.destinationChain
  | wrappedTokensBurned chainId log =>
    cfg.evmCounterpart .HANDLE_BURN chainId log.tokenAddress e.destinationChain
  | solanaTokensLocked _ data =>
    cfg.solanaCounterpart .HANDLE_LOCK (P.toBase58 data.lockedTokenMint) e.destinationChain
  | solanaTokensBurned _ data =>
    cfg.solanaCounterpart .HANDLE_BURN (P.toBase58 data.burnedTokenMint) e.destinationChain

/-- What the handler of the event looks up. -/
def route (P : Platform) (cfg : Config) (e : BridgeEvent) : Except JsError (Option String) :=
  match e with
  | tokensLocked chainId log =>
    EthereumClientService.route cfg .HANDLE_LOCK chainId log.tokenAddress e.destination
  | wrappedTokensBurned chainId log =>
    EthereumClientService.route cfg .HANDLE_BURN chainId log.tokenAddress e.destination
  | solanaTokensLocked _ data =>
    lookupRoute (cfg.solanaTokens (P.toBase58 data.lockedTokenMint)) .HANDLE_LOCK
      (chainKey data.destinationChain.toNat)
  | solanaTokensBurned _ data =>
    lookupRoute (cfg.solanaTokens (P.toBase58 data.burnedTokenMint)) .HANDLE_BURN
      (toString data.destinationChain.toNat)

end BridgeEvent

/-! ## Faithful transfers -/

/-- The transaction with an EVM bridge contract is the one that a lock or burn on an EVM chain asks
for: a lock has its tokens minted, a burn unlocked. -/
structure EvmLog.AsksForTransaction (cfg : Config) (type : JobTypes) (origin : ℕ) (log : EvmLog)
    (chainId : ℕ) (method : SmartContractMethods) (args : ContractArguments) : Prop where
  chain : log.destinationChainId.toNat = chainId
  mints : type = .HANDLE_LOCK → method = .MINT_WRAPPED_TOKENS
  unlocks : type = .HANDLE_BURN → method = .UNLOCK_TOKENS
  token : ∃ token, cfg.evmCounterpart type origin log.tokenAddress chainId = some token ∧
    args.tokenAddress = some token
  amount : args.amount = log.amount.toNat
  recipient : ∀ address : Vector UInt8 20,
    log.destinationAddress.toList = List.replicate 12 0 ++ address.toList →
      args.to = hexlify address.toList

/-- The instruction for Solana, sent after the given answers, is the one that a lock or burn on an
EVM chain asks for: a lock has its tokens minted, a burn unlocked. -/
structure EvmLog.AsksForInstruction (P : Platform) (cfg : Config) (type : JobTypes) (origin : ℕ)
    (log : EvmLog) (tr : ClientAnswers) (ix : Instruction) : Prop where
  chain : log.destinationChainId.toNat = 0
  mints : type = .HANDLE_LOCK → ix.method = .MINT_WRAPPED_TOKENS
  unlocks : type = .HANDLE_BURN → ix.method = .UNLOCK_TOKENS
  token : ∃ token, cfg.evmCounterpart type origin log.tokenAddress 0 = some token ∧
    P.publicKey token = .ok ix.tokenMint
  /-- The tokens go to the account of the destination address. -/
  account : (⟨.getOrCreateAssociatedTokenAccount ix.tokenMint log.destinationAddress,
    .ok ix.tokenAccount⟩ : Σ o : ClientOp, Except JsError o.Resp) ∈ tr
  receivers : ∀ key ∈ ix.receivers, key = log.destinationAddress
  decimals : ∃ d, (⟨.getMint ix.tokenMint, .ok d⟩ : Σ o : ClientOp, Except JsError o.Resp) ∈ tr
  /-- The amount is scaled down to the decimals of the mint. -/
  amount : ∀ mint d, (⟨.getMint mint, .ok d⟩ : Σ o : ClientOp, Except JsError o.Resp) ∈ tr →
    mint = ix.tokenMint ∧ (d ≤ 18 → ix.amount = (log.amount.toNat / 10 ^ (18 - d) : ℕ))

/-- The instruction carries an amount with 18 decimals as so many units of a mint: it gives away no
more than the amount and keeps back less than a unit, and its `u64` field holds the number, which is
not zero. -/
structure Instruction.CarriesAmount (ix : Instruction) (amount decimals : ℕ) : Prop where
  notInflated : ix.amount * 10 ^ (18 - decimals) ≤ amount
  complete : amount < (ix.amount + 1) * 10 ^ (18 - decimals)
  positive : 1 ≤ ix.amount
  fits : ix.amount ≤ 2 ^ 64 - 1

end Tsunagari
