import Tsunagari.Bridge.Services

/-!
# The event handlers

The four handlers of bridge events, the listeners that call them, and the callback of the Solana log
subscription.
-/

namespace Tsunagari

open Async (Prog)

/-! ## Token routes -/

/-- The error of reading a property of `undefined`. -/
def cannotRead (property : String) : JsError :=
  .typeError ("Cannot read properties of undefined (reading '" ++ property ++ "')")

/-- The property under which a handler looks up the counterpart of a token. -/
def JobTypes.property : JobTypes → String
  | .HANDLE_LOCK => "wrapped"
  | .HANDLE_BURN => "native"

/-- `entry.wrapped` for a lock, `entry.native` for a burn. -/
def TokenEntry.side (entry : TokenEntry) : JobTypes → Option (String → Option String)
  | .HANDLE_LOCK => entry.wrapped
  | .HANDLE_BURN => entry.native

/-- `entry.wrapped[destination]` or `entry.native[destination]`: reading through `undefined` throws,
but the last lookup may itself give `undefined`. -/
def lookupRoute (entry : Option TokenEntry) (type : JobTypes) (destination : String) :
    Except JsError (Option String) :=
  match entry with
  | none => .error (cannotRead type.property)
  | some entry =>
    match entry.side type with
    | none => .error (cannotRead destination)
    | some counterpart => .ok (counterpart destination)

/-- `tokensConfig[originChainId][tokenAddress]` of `evm.tokens`, then the counterpart. -/
def EthereumClientService.route (cfg : Config) (type : JobTypes) (originChainId : ℕ)
    (tokenAddress : String) (destinationChainId : ℕ) : Except JsError (Option String) :=
  match cfg.evmTokens (chainKey originChainId) with
  | none => .error (cannotRead tokenAddress)
  | some tokens => lookupRoute (tokens tokenAddress) type (chainKey destinationChainId)

/-- `signaturesCount >= signaturesThreshold`, which is false when the count is `undefined`. -/
def thresholdReached (signaturesCount : Option ℕ) (signaturesThreshold : ℕ) : Bool :=
  match signaturesCount with
  | none => false
  | some n => signaturesThreshold ≤ n

/-! ## EVM chains -/

/-- The common body of `handleTokensLockedEvent` and `handleWrappedTokensBurnedEvent`. -/
def EthereumClientService.handleEvent (P : Platform) (cfg : Config) (node : Node) (type : JobTypes)
    (originChainId : ℕ) (tokenAddress : String) (amount : ℕ) (destinationChainId : ℕ)
    (destinationAddress transactionHash : String) : Task Unit := do
  let destinationTokenAddress ←
    Prog.ofExcept (route cfg type originChainId tokenAddress destinationChainId)
  let message := createMessage P transactionHash cfg.murmur3Seed
  let signature ← Prog.ofExcept (
    if destinationChainId = SOLANA_CHAIN_ID then
      SolanaClientService.signMessageEVM P message node.privateKey
    else signMessage P cfg node message destinationChainId)
  RedisClientService.rpush message signature
  let signaturesThreshold ←
    if destinationChainId = SOLANA_CHAIN_ID then SolanaClientService.getThreshold
    else getThreshold cfg destinationChainId
  let signaturesCount ← RedisClientService.llen message
  if thresholdReached signaturesCount signaturesThreshold then
    let jobId := createJobId P message cfg.murmur3Seed
    let job : BridgeJob :=
      { message, type, recipient := destinationAddress, originTokenAddress := tokenAddress,
        destinationTokenAddress, amount := toString amount, destinationChainId, originChainId }
    QueueService.addToQueue cfg job jobId

/-- `EthereumClientService.handleTokensLockedEvent` -/
def EthereumClientService.handleTokensLockedEvent (P : Platform) (cfg : Config) (node : Node) :
    ℕ → String → ℕ → ℕ → String → String → Task Unit :=
  handleEvent P cfg node .HANDLE_LOCK

/-- `EthereumClientService.handleWrappedTokensBurnedEvent` -/
def EthereumClientService.handleWrappedTokensBurnedEvent (P : Platform) (cfg : Config)
    (node : Node) : ℕ → String → ℕ → ℕ → String → String → Task Unit :=
  handleEvent P cfg node .HANDLE_BURN

/-- `Number(n)` for a chain id; the result is an integer. -/
def chainNumber (n : ℕ) : ℕ := (Js.number n).floor.toNat

/-- The listener of `setupEventListeners` for `TokensLocked`. -/
def EthereumClientService.onTokensLocked (P : Platform) (cfg : Config) (node : Node) (chainId : ℕ)
    (log : EvmLog) : Task Unit :=
  handleTokensLockedEvent P cfg node chainId log.tokenAddress log.amount.toNat
    (chainNumber log.destinationChainId.toNat) (hexlify log.destinationAddress.toList)
    log.transactionHash

/-- The listener of `setupEventListeners` for `WrappedTokensBurned`. -/
def EthereumClientService.onWrappedTokensBurned (P : Platform) (cfg : Config) (node : Node)
    (chainId : ℕ) (log : EvmLog) : Task Unit :=
  handleWrappedTokensBurnedEvent P cfg node chainId log.tokenAddress log.amount.toNat
    (chainNumber log.destinationChainId.toNat) (hexlify log.destinationAddress.toList)
    log.transactionHash

/-! ## Solana -/

/-- `Number(amount) * Math.pow(10, ETH_DECIMALS - decimals)`, printed. -/
def adjustedAmount (amount : UInt64) (decimals : ℕ) : String :=
  Js.numberToString (Js.mul (Js.number amount.toNat) (Js.pow10 (ETH_DECIMALS - decimals)))

/-- The common body of `handleTokensLockedEvent` and `handleTokensBurnedEvent`; `destinationKey` is
`destinationChain.toString()`, and `destinationChainId` is what the job gets. -/
def SolanaClientService.handleEvent (P : Platform) (cfg : Config) (node : Node) (type : JobTypes)
    (tokenMint : PublicKey) (amount : UInt64) (destinationKey : String) (destinationChainId : ℕ)
    (destinationAddress txSignature : String) : Task Unit := do
  let destinationTokenAddress ← Prog.ofExcept
    (lookupRoute (cfg.solanaTokens (P.toBase58 tokenMint)) type destinationKey)
  let message := createMessage P txSignature cfg.murmur3Seed
  let signature := signMessage P node message
  RedisClientService.rpush message signature
  let signaturesThreshold ← getThreshold
  let signaturesCount ← RedisClientService.llen message
  let decimals ← perform (.getMint tokenMint)
  if thresholdReached signaturesCount signaturesThreshold then
    let jobId := createJobId P message cfg.murmur3Seed
    let job : BridgeJob :=
      { message, type, recipient := destinationAddress,
        originTokenAddress := P.toBase58 tokenMint, destinationTokenAddress,
        amount := adjustedAmount amount decimals, destinationChainId,
        originChainId := SOLANA_CHAIN_ID }
    QueueService.addToQueue cfg job jobId

/-- `SolanaClientService.handleTokensLockedEvent`; the destination chain is a 32-bit number. -/
def SolanaClientService.handleTokensLockedEvent (P : Platform) (cfg : Config) (node : Node)
    (eventLog : SolanaLockEvent) (txSignature : String) : Task Unit :=
  handleEvent P cfg node .HANDLE_LOCK eventLog.lockedTokenMint eventLog.amount
    (chainKey eventLog.destinationChain.toNat) eventLog.destinationChain.toNat
    eventLog.destinationAddress txSignature

/-- `SolanaClientService.handleTokensBurnedEvent`; the destination chain is a 64-bit big number,
whose `toString` is exact and which the job gets as a `Number`. -/
def SolanaClientService.handleTokensBurnedEvent (P : Platform) (cfg : Config) (node : Node)
    (eventLog : SolanaBurnedEvent) (txSignature : String) : Task Unit :=
  handleEvent P cfg node .HANDLE_BURN eventLog.burnedTokenMint eventLog.amount
    (toString eventLog.destinationChain.toNat) (chainNumber eventLog.destinationChain.toNat)
    eventLog.destinationAddress txSignature

/-- The loop of the `onLogs` callback over the parsed events. -/
def SolanaClientService.handleEvents (P : Platform) (cfg : Config) (node : Node)
    (signature : String) : List ParsedEvent → Task Unit
  | [] => pure ()
  | .tokensBurned data :: events => do
    handleTokensBurnedEvent P cfg node data signature
    handleEvents P cfg node signature events
  | .tokensLocked data :: events => do
    handleTokensLockedEvent P cfg node data signature
    handleEvents P cfg node signature events
  | .other _ :: events => handleEvents P cfg node signature events

/-- The `onLogs` callback of `SolanaClientService.setupEventListeners`. -/
def SolanaClientService.onLogs (P : Platform) (cfg : Config) (node : Node) (logs : Logs) :
    Task Unit :=
  handleEvents P cfg node logs.signature (P.parseLogs logs.logs)

/-! ## Bridge events -/

/-- A lock or burn on an EVM chain or on Solana. -/
inductive BridgeEvent where
  | tokensLocked (chainId : ℕ) (log : EvmLog)
  | wrappedTokensBurned (chainId : ℕ) (log : EvmLog)
  | solanaTokensLocked (txSignature : String) (data : SolanaLockEvent)
  | solanaTokensBurned (txSignature : String) (data : SolanaBurnedEvent)

namespace BridgeEvent

/-- What a node runs when it observes the event. -/
def handle (P : Platform) (cfg : Config) (node : Node) : BridgeEvent → Task Unit
  | tokensLocked chainId log => EthereumClientService.onTokensLocked P cfg node chainId log
  | wrappedTokensBurned chainId log =>
    EthereumClientService.onWrappedTokensBurned P cfg node chainId log
  | solanaTokensLocked txSignature data =>
    SolanaClientService.handleTokensLockedEvent P cfg node data txSignature
  | solanaTokensBurned txSignature data =>
    SolanaClientService.handleTokensBurnedEvent P cfg node data txSignature

/-- The transaction of the event: its hash, or its signature on Solana. -/
def transaction : BridgeEvent → String
  | tokensLocked _ log => log.transactionHash
  | wrappedTokensBurned _ log => log.transactionHash
  | solanaTokensLocked txSignature _ => txSignature
  | solanaTokensBurned txSignature _ => txSignature

/-- The chain of the event. -/
def origin : BridgeEvent → ℕ
  | tokensLocked chainId _ => chainId
  | wrappedTokensBurned chainId _ => chainId
  | solanaTokensLocked _ _ => SOLANA_CHAIN_ID
  | solanaTokensBurned _ _ => SOLANA_CHAIN_ID

/-- The destination chain, as the handlers see it. -/
def destination : BridgeEvent → ℕ
  | tokensLocked _ log => chainNumber log.destinationChainId.toNat
  | wrappedTokensBurned _ log => chainNumber log.destinationChainId.toNat
  | solanaTokensLocked _ data => data.destinationChain.toNat
  | solanaTokensBurned _ data => chainNumber data.destinationChain.toNat

/-- The message that the nodes sign for the event. -/
def message (P : Platform) (cfg : Config) (e : BridgeEvent) : String :=
  createMessage P e.transaction cfg.murmur3Seed

/-- The id of the event's job. -/
def jobId (P : Platform) (cfg : Config) (e : BridgeEvent) : String :=
  createJobId P (e.message P cfg) cfg.murmur3Seed

end BridgeEvent

end Tsunagari
