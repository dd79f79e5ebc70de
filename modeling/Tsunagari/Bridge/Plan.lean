import Tsunagari.Bridge.Processor

/-!
# The courses of the handlers and of the processor

The four handlers differ in their lookups and in how they sign; from the push on, they follow one
course, which a `Plan` describes. The functions below are the stages of that course: what is left of
a handler after each of its awaits. The stages of `process` follow.
-/

namespace Tsunagari

open Async (Prog)

/-- What the handlers of an event do once their lookups have succeeded. -/
structure Plan where
  /-- The message that is signed, which is also the key of the signature list. -/
  message : String
  jobId : String
  opts : JobOptions
  /-- The bridge whose threshold is read. -/
  site : Except JsError BridgeSite
  /-- The mint whose decimals are read. -/
  mint : Option PublicKey
  /-- The job, given the decimals. -/
  job : ℕ → BridgeJob

namespace Plan

/-- Left before `queue.add`. -/
def addJob (p : Plan) (decimals : ℕ) : Task Unit :=
  .await (.add (p.job decimals) p.jobId p.opts) fun _ => .ret ()

/-- Left before `queue.getJob`, when the threshold was reached. -/
def enqueue (p : Plan) (reached : Bool) (decimals : ℕ) : Task Unit :=
  if reached then
    .await (.getJob p.jobId) fun
      | .error _ => .ret ()
      | .ok existing => if existing then .ret () else p.addJob decimals
  else .ret ()

/-- Left after the count. -/
def readMint (p : Plan) (reached : Bool) : Task Unit :=
  match p.mint with
  | none => p.enqueue reached 0
  | some mint =>
    .await (.getMint mint) fun
      | .error e => .throw e
      | .ok decimals => p.enqueue reached decimals

/-- Left before the count. -/
def readCount (p : Plan) (threshold : ℕ) : Task Unit :=
  .await (.llen p.message) fun r => p.readMint (thresholdReached r.toOption threshold)

/-- Left after the push. -/
def readThreshold (p : Plan) : Task Unit :=
  match p.site with
  | .error e => .throw e
  | .ok site =>
    .await (.getThreshold site) fun
      | .error e => .throw e
      | .ok threshold => p.readCount threshold

/-- Left after the lookups and the signing. -/
def start (p : Plan) (signature : String) : Task Unit :=
  .await (.rpush p.message signature) fun _ => p.readThreshold

end Plan

/-- The bridge whose threshold the EVM handlers read. -/
def thresholdSite (cfg : Config) (destinationChainId : ℕ) : Except JsError BridgeSite :=
  if destinationChainId = SOLANA_CHAIN_ID then .ok .solana
  else
    match cfg.network? destinationChainId with
    | none => .error (.error s!"No provider found for chain ID {chainKey destinationChainId}")
    | some network =>
      if network.bridgeAddress = "" then
        .error (.error s!"No bridge address found for chain ID {chainKey destinationChainId}")
      else .ok (.evm destinationChainId)

/-- The plan of the EVM handlers. -/
def EthereumClientService.plan (P : Platform) (cfg : Config) (type : JobTypes) (originChainId : ℕ)
    (tokenAddress : String) (amount : ℕ) (destinationChainId : ℕ)
    (destinationAddress transactionHash : String) : Except JsError Plan := do
  let destinationTokenAddress ← route cfg type originChainId tokenAddress destinationChainId
  let message := createMessage P transactionHash cfg.murmur3Seed
  pure {
    message
    jobId := createJobId P message cfg.murmur3Seed
    opts := cfg.jobOptions
    site := thresholdSite cfg destinationChainId
    mint := none
    job := fun _ =>
      { message, type, recipient := destinationAddress, originTokenAddress := tokenAddress,
        destinationTokenAddress, amount := toString amount, destinationChainId, originChainId } }

/-- The signature of the EVM handlers. -/
def EthereumClientService.sign (P : Platform) (cfg : Config) (node : Node) (destinationChainId : ℕ)
    (message : String) : Except JsError String :=
  if destinationChainId = SOLANA_CHAIN_ID then
    SolanaClientService.signMessageEVM P message node.privateKey
  else signMessage P cfg node message destinationChainId

/-- The plan of the Solana handlers. -/
def SolanaClientService.plan (P : Platform) (cfg : Config) (type : JobTypes) (tokenMint : PublicKey)
    (amount : UInt64) (destinationKey : String) (destinationChainId : ℕ)
    (destinationAddress txSignature : String) : Except JsError Plan := do
  let destinationTokenAddress ←
    lookupRoute (cfg.solanaTokens (P.toBase58 tokenMint)) type destinationKey
  let message := createMessage P txSignature cfg.murmur3Seed
  pure {
    message
    jobId := createJobId P message cfg.murmur3Seed
    opts := cfg.jobOptions
    site := .ok .solana
    mint := some tokenMint
    job := fun decimals =>
      { message, type, recipient := destinationAddress,
        originTokenAddress := P.toBase58 tokenMint, destinationTokenAddress,
        amount := adjustedAmount amount decimals, destinationChainId,
        originChainId := SOLANA_CHAIN_ID } }

namespace BridgeEvent

/-- The plan of the event's handlers, or the error of their lookups. -/
def plan (P : Platform) (cfg : Config) : BridgeEvent → Except JsError Plan
  | tokensLocked chainId log =>
    EthereumClientService.plan P cfg .HANDLE_LOCK chainId log.tokenAddress log.amount.toNat
      (chainNumber log.destinationChainId.toNat) (hexlify log.destinationAddress.toList)
      log.transactionHash
  | wrappedTokensBurned chainId log =>
    EthereumClientService.plan P cfg .HANDLE_BURN chainId log.tokenAddress log.amount.toNat
      (chainNumber log.destinationChainId.toNat) (hexlify log.destinationAddress.toList)
      log.transactionHash
  | solanaTokensLocked txSignature data =>
    SolanaClientService.plan P cfg .HANDLE_LOCK data.lockedTokenMint data.amount
      (chainKey data.destinationChain.toNat) data.destinationChain.toNat data.destinationAddress
      txSignature
  | solanaTokensBurned txSignature data =>
    SolanaClientService.plan P cfg .HANDLE_BURN data.burnedTokenMint data.amount
      (toString data.destinationChain.toNat) (chainNumber data.destinationChain.toNat)
      data.destinationAddress txSignature

/-- The signature that a node makes for the event. -/
def sign (P : Platform) (cfg : Config) (node : Node) (e : BridgeEvent) : Except JsError String :=
  match e with
  | tokensLocked _ _ => EthereumClientService.sign P cfg node e.destination (e.message P cfg)
  | wrappedTokensBurned _ _ => EthereumClientService.sign P cfg node e.destination (e.message P cfg)
  | solanaTokensLocked _ _ => .ok (SolanaClientService.signMessage P node (e.message P cfg))
  | solanaTokensBurned _ _ => .ok (SolanaClientService.signMessage P node (e.message P cfg))

end BridgeEvent

/-! ## The processor -/

namespace QueueProcessor

/-- The call of the destination client for a job, or the error of decoding its fields. -/
def destinationCall (P : Platform) (data : BridgeJob) (signatures : List String) :
    Except JsError Call :=
  if data.destinationChainId = SOLANA_CHAIN_ID then Call.solana <$> solanaCall P data signatures
  else Call.evm <$> evmCall data signatures

/-- The fields of the job can be decoded. -/
def Decodes (P : Platform) (data : BridgeJob) : Prop :=
  ∃ c, destinationCall P data [] = .ok c

instance (P : Platform) (data : BridgeJob) : Decidable (Decodes P data) :=
  match h : destinationCall P data [] with
  | .ok c => .isTrue ⟨c, h⟩
  | .error e => .isFalse fun ⟨c, hc⟩ => by rw [h] at hc; cases hc

/-- Left after the list was emptied. -/
def deliver (P : Platform) (data : BridgeJob) (signatures : List String) : Task Unit :=
  match destinationCall P data signatures with
  | .error _ => .ret ()
  | .ok (.evm c) => .await (.callEvm c) fun _ => .ret ()
  | .ok (.solana c) => .await (.callSolana c) fun _ => .ret ()

/-- Left after the list was read. -/
def afterRead (P : Platform) (data : BridgeJob) (signatures : List String) : Task Unit :=
  if signatures = [] then .ret ()
  else .await (.del data.message) fun _ => deliver P data signatures

/-- Left before the list is read. -/
def start (P : Platform) (data : BridgeJob) : Task Unit :=
  .await (.lrange data.message) fun
    | .error _ => .ret ()
    | .ok signatures => afterRead P data signatures

end QueueProcessor

end Tsunagari
