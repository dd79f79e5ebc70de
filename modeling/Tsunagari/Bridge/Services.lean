import Mathlib.Logic.Function.Basic
import Tsunagari.Bridge.Types

/-!
# Redis, the queue, and signing

`RedisClientService`, `QueueService.addToQueue`, and the functions that build and sign the message
of a transfer.
-/

namespace Tsunagari

open Async (Prog)

/-! ## `RedisClientService` -/

namespace RedisClientService

/-- `rpush`; the handlers do not await it, so nothing of it reaches them. -/
def rpush (key value : String) : Task Unit :=
  try
    let _ ← perform (.rpush key value)
  catch _ => pure ()

/-- `llen`: `undefined` when the command fails. -/
def llen (key : String) : Task (Option ℕ) :=
  try
    let n ← perform (.llen key)
    pure (some n)
  catch _ => pure none

/-- `lrange` of the whole list: `undefined` when the command fails. -/
def lrange (key : String) : Task (Option (List String)) :=
  try
    let l ← perform (.lrange key)
    pure (some l)
  catch _ => pure none

/-- `del`: `undefined` when the command fails. -/
def del (key : String) : Task (Option ℕ) :=
  try
    let n ← perform (.del key)
    pure (some n)
  catch _ => pure none

end RedisClientService

/-! ## `QueueService` -/

/-- The options of `queue.add` in `addToQueue`. -/
def Config.jobOptions (cfg : Config) : JobOptions where
  attempts := cfg.jobAddAttempts
  backoffDelay := cfg.jobRetryDelay
  removeOnComplete := true

/-- `QueueService.addToQueue` -/
def QueueService.addToQueue (cfg : Config) (data : BridgeJob) (jobId : String) : Task Unit :=
  try
    let existingJob ← perform (.getJob jobId)
    if existingJob then pure () else perform (.add data jobId cfg.jobOptions)
  catch _ => pure ()

/-! ## Messages and signatures -/

/-- `hexlify` -/
def hexlify (bytes : Bytes) : String := "0x" ++ String.ofList (Hex.encode bytes)

/-- `Buffer.from(text, 'hex')` -/
def bufferFromHex (text : String) : Bytes := Hex.decode text.toList

/-- `messageToBytes` -/
def messageToBytes (message : String) : String := hexlify (Js.toUtf8Bytes message)

/-- `createMessage` -/
def createMessage (P : Platform) (transactionLogHash : String) (murmur3Seed : ℕ) : String :=
  toString (P.murmur3 transactionLogHash murmur3Seed).toNat

/-- The job id that every handler derives from the message. -/
def createJobId (P : Platform) (message : String) (murmur3Seed : ℕ) : String :=
  "jobID: " ++ toString (P.murmur3 message murmur3Seed).toNat

/-- `Wallet.signMessage`: an EIP-191 signature over the UTF-8 bytes of the message. -/
def walletSignMessage (P : Platform) (privateKey message : String) : String :=
  hexlify (P.eip191Sign privateKey (Js.toUtf8Bytes message)).toList

/-- The first entry of `evm.networks` for a chain, which fills `networksProviders`,
`bridgeAddresses` and `wallets`. -/
def Config.network? (cfg : Config) (chainId : ℕ) : Option Network :=
  cfg.networks.find? fun n => n.chainId = chainId

/-- The loop of the constructor of `EthereumClientService`: a map gets what the first entry of a
chain gives. -/
def EthereumClientService.collect {α : Type} (value : Network → α) (networks : List Network) :
    ℕ → Option α :=
  networks.foldl
    (fun map network =>
      if (map network.chainId).isSome then map
      else Function.update map network.chainId (some (value network)))
    fun _ => none

/-- `bridgeAddresses` -/
def EthereumClientService.bridgeAddresses (cfg : Config) : ℕ → Option String :=
  collect Network.bridgeAddress cfg.networks

/-- `wallets`, by their private keys. -/
def EthereumClientService.wallets (cfg : Config) (node : Node) : ℕ → Option String :=
  collect (fun _ => node.privateKey) cfg.networks

/-- A chain id in an error text or as a property key. -/
def chainKey (chainId : ℕ) : String := Js.numberToString chainId

/-- `EthereumClientService.signMessage` -/
def EthereumClientService.signMessage (P : Platform) (cfg : Config) (node : Node) (message : String)
    (chainId : ℕ) : Except JsError String :=
  match cfg.network? chainId with
  | none => .error (.error s!"No wallet found for chain ID {chainKey chainId}")
  | some _ => .ok (walletSignMessage P node.privateKey message)

/-- `SolanaClientService.signMessage` -/
def SolanaClientService.signMessage (P : Platform) (node : Node) (message : String) : String :=
  walletSignMessage P node.privateKey message

/-- The bytes of `toCompactRawBytes` followed by the recovery id. -/
def RecoverableSignature.bytes (sig : RecoverableSignature) : Bytes :=
  sig.r.toList ++ sig.s.toList ++ [sig.recovery]

/-- `SolanaClientService.signMessageEVM` -/
def SolanaClientService.signMessageEVM (P : Platform) (message privateKey : String) :
    Except JsError String := do
  let messageBytes := bufferFromHex message
  let messageHash := P.keccak256 messageBytes
  let signature ← P.secp256k1Sign messageHash privateKey
  pure (String.ofList (Hex.encode signature.bytes))

/-! ## Thresholds -/

/-- `EthereumClientService.getThreshold`, through `staticCall` -/
def EthereumClientService.getThreshold (cfg : Config) (chainId : ℕ) : Task ℕ :=
  match cfg.network? chainId with
  | none => throw (.error s!"No provider found for chain ID {chainKey chainId}")
  | some network =>
    if network.bridgeAddress = "" then
      throw (.error s!"No bridge address found for chain ID {chainKey chainId}")
    else perform (.getThreshold (.evm chainId))

/-- `SolanaClientService.getThreshold` -/
def SolanaClientService.getThreshold : Task ℕ := perform (.getThreshold .solana)

end Tsunagari
