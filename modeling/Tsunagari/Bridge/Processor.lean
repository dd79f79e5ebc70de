import Tsunagari.Bridge.Handlers

/-!
# The queue processor

`QueueProcessor.process` and what it calls, up to the call of the client of the destination chain.
-/

namespace Tsunagari

open Async (Prog)

/-! ## Clients of the destination chains -/

/-- `EthereumClientService.mintWrappedTokens` and `unlockTokens`, seen from the caller. -/
def EthereumClientService.call (c : EvmCall) : Task (Option ℕ) := perform (.callEvm c)

/-- `SolanaClientService.mintWrappedTokens` and `unlockTokens`, seen from the caller. -/
def SolanaClientService.call (c : SolanaCall) : Task (Bool × String) := perform (.callSolana c)

/-! ## `QueueProcessor` -/

namespace QueueProcessor

/-- `new web3.PublicKey(address)` -/
def newPublicKey (P : Platform) : Option String → Except JsError PublicKey
  | none => .error (cannotRead "_bn")
  | some address => P.publicKey address

/-- `BigInt(amount)` -/
def bigInt (amount : String) : Except JsError ℤ :=
  match Js.bigInt amount with
  | none => .error (.syntaxError ("Cannot convert " ++ amount ++ " to a BigInt"))
  | some n => .ok n

/-- The method of the destination contract for a type of job. -/
def method : JobTypes → SmartContractMethods
  | .HANDLE_LOCK => .MINT_WRAPPED_TOKENS
  | .HANDLE_BURN => .UNLOCK_TOKENS

/-- The decoding of a signature string for Solana. -/
def signatureBytes (sig : String) : Bytes := bufferFromHex (Js.strip0x sig)

/-- The arguments of the call of the Solana client. -/
def solanaCall (P : Platform) (data : BridgeJob) (signatures : List String) :
    Except JsError SolanaCall := do
  let tokenMint ← newPublicKey P data.destinationTokenAddress
  let amount ← bigInt data.amount
  pure { method := method data.type, signedMessage := data.message,
         signatures := signatures.map signatureBytes, receiverString := data.recipient,
         amount, tokenMint }

/-- `processJobWithSolanaDestination`; an unsuccessful status is only logged. -/
def processJobWithSolanaDestination (P : Platform) (data : BridgeJob) (signatures : List String) :
    Task Unit := do
  let c ← Prog.ofExcept (solanaCall P data signatures)
  let _ ← SolanaClientService.call c
  pure ()

/-- The arguments of the call of the EVM client; the recipient is the last 20 bytes. -/
def evmCall (data : BridgeJob) (signatures : List String) : Except JsError EvmCall := do
  let amount ← bigInt data.amount
  pure { method := method data.type, signedMessage := data.message, signatures,
         «to» := "0x" ++ Js.sliceEnd 40 data.recipient, amount,
         destinationChainId := data.destinationChainId,
         tokenAddress := data.destinationTokenAddress }

/-- `processJobWithEvmDestination`; a receipt with status 0 is only logged. -/
def processJobWithEvmDestination (data : BridgeJob) (signatures : List String) : Task Unit := do
  let c ← Prog.ofExcept (evmCall data signatures)
  let _ ← EthereumClientService.call c
  pure ()

/-- `processJob`: every error is caught and logged. -/
def processJob (P : Platform) (data : BridgeJob) : Task Unit :=
  try
    let signatures ← RedisClientService.lrange data.message
    match signatures with
    | none => throw (cannotRead "length")
    | some signatures =>
      if signatures.length = 0 then pure ()
      else do
        let _ ← RedisClientService.del data.message
        if data.destinationChainId = SOLANA_CHAIN_ID then
          processJobWithSolanaDestination P data signatures
        else processJobWithEvmDestination data signatures
  catch _ => pure ()

/-- `process` -/
def process (P : Platform) (data : BridgeJob) : Task Unit := do
  processJob P data

/-- `onCompleted`: the transaction is stored through gRPC, an error is only logged. -/
def onCompleted (cfg : Config) (data : BridgeJob) : Task Unit :=
  let transaction : CreateTransactionDto :=
    { user := data.recipient, originTokenAddress := data.originTokenAddress,
      destinationTokenAddress := data.destinationTokenAddress, amount := data.amount,
      originChainId := data.originChainId, destinationChainId := data.destinationChainId }
  try
    perform (.storeTransaction transaction cfg.grpcPassword)
  catch _ => pure ()

end QueueProcessor

end Tsunagari
