import Mathlib.Data.List.Basic
import Tsunagari.Async.Program
import Tsunagari.Encoding.Hex
import Tsunagari.Js.Number

/-!
# The data of the bridge backend

Configuration, events, jobs, and the operations that the services await. What comes from third-party
packages (hashing, signing, base58, the event parser) is collected in `Platform`.
-/

namespace Tsunagari

/-- A string of bytes. -/
abbrev Bytes := List UInt8

/-- A Solana public key. -/
abbrev PublicKey := Vector UInt8 32

/-- `SOLANA_CHAIN_ID`. -/
def SOLANA_CHAIN_ID : ℕ := 0

/-- `ETH_DECIMALS`. -/
def ETH_DECIMALS : ℤ := 18

/-- What an `async` function may throw. -/
inductive JsError where
  /-- `new Error(message)` thrown by the backend itself. -/
  | error (message : String)
  /-- A `TypeError` of the runtime. -/
  | typeError (message : String)
  /-- A `SyntaxError` of the runtime. -/
  | syntaxError (message : String)
  /-- An error of a library call or of a remote party. -/
  | rejected (reason : String)
  /-- The process stopped. -/
  | stopped
  deriving DecidableEq

/-- `JobTypes`. -/
inductive JobTypes where
  | HANDLE_LOCK
  | HANDLE_BURN
  deriving DecidableEq

/-- `BridgeJob`; the destination token is `none` where the configuration lookup gave `undefined`. -/
structure BridgeJob where
  message : String
  type : JobTypes
  recipient : String
  originTokenAddress : String
  destinationTokenAddress : Option String
  amount : String
  destinationChainId : ℕ
  originChainId : ℕ
  deriving DecidableEq

/-- The options with which a job is added to the queue. -/
structure JobOptions where
  attempts : ℕ
  backoffDelay : ℕ
  removeOnComplete : Bool
  deriving DecidableEq

/-- `CreateTransactionDto`. -/
structure CreateTransactionDto where
  user : String
  originTokenAddress : String
  destinationTokenAddress : Option String
  amount : String
  originChainId : ℕ
  destinationChainId : ℕ
  deriving DecidableEq

/-! ## Configuration -/

/-- One token of the configuration: its counterparts by destination chain. -/
structure TokenEntry where
  wrapped : Option (String → Option String)
  native : Option (String → Option String)

/-- One entry of `evm.networks`. -/
structure Network where
  chainId : ℕ
  bridgeAddress : String

/-- The configuration that all nodes share. -/
structure Config where
  /-- `app.murmur3Seed` -/
  murmur3Seed : ℕ
  /-- `app.grpcPassword` -/
  grpcPassword : String
  /-- `evm.networks` -/
  networks : List Network
  /-- `evm.tokens` -/
  evmTokens : String → Option (String → Option TokenEntry)
  /-- `solana.tokens` -/
  solanaTokens : String → Option TokenEntry
  /-- `queue.jobAddAttempts` -/
  jobAddAttempts : ℕ
  /-- `queue.jobRetryDelay` -/
  jobRetryDelay : ℕ

/-- What differs from node to node. -/
structure Node where
  /-- `evm.wallet.privateKey` -/
  privateKey : String
  deriving DecidableEq

/-! ## Events -/

/-- A `TokensLocked` or `WrappedTokensBurned` log of an EVM bridge contract. -/
structure EvmLog where
  tokenAddress : String
  amount : BitVec 256
  destinationChainId : BitVec 256
  destinationAddress : Vector UInt8 32
  transactionHash : String

/-- `ISolanaLockEvent` -/
structure SolanaLockEvent where
  amount : UInt64
  lockedTokenMint : PublicKey
  destinationChain : UInt32
  destinationAddress : String

/-- `ISolanaBurnedEvent` -/
structure SolanaBurnedEvent where
  amount : UInt64
  burnedTokenMint : PublicKey
  destinationChain : UInt64
  destinationAddress : String

/-- An event that the parser finds in the log lines of a Solana transaction. -/
inductive ParsedEvent where
  | tokensLocked (data : SolanaLockEvent)
  | tokensBurned (data : SolanaBurnedEvent)
  | other (name : String)

/-- A notification of the `onLogs` subscription. -/
structure Logs where
  signature : String
  /-- The error of the transaction, `none` for `null`. -/
  err : Option JsError
  logs : List String

/-! ## Third-party functions -/

/-- A recoverable secp256k1 signature. -/
structure RecoverableSignature where
  r : Vector UInt8 32
  s : Vector UInt8 32
  recovery : UInt8

/-- The library functions that the backend calls. -/
structure Platform where
  /-- `murmur3` of `murmurhash-js` -/
  murmur3 : String → ℕ → UInt32
  /-- `ethers.keccak256` -/
  keccak256 : Bytes → Bytes
  /-- The EIP-191 signature of a private key over message bytes. -/
  eip191Sign : String → Bytes → Vector UInt8 65
  /-- `secp256k1.sign` of a message hash with a private key -/
  secp256k1Sign : Bytes → String → Except JsError RecoverableSignature
  /-- `new web3.PublicKey(text)`, with what it throws -/
  publicKey : String → Except JsError PublicKey
  /-- `PublicKey.toBase58` -/
  toBase58 : PublicKey → String
  /-- `EventParser.parseLogs` -/
  parseLogs : List String → List ParsedEvent

/-! ## Operations -/

/-- The bridge contract or program whose threshold is read. -/
inductive BridgeSite where
  | evm (chainId : ℕ)
  | solana
  deriving DecidableEq

/-- `SmartContractMethods` -/
inductive SmartContractMethods where
  | MINT_WRAPPED_TOKENS
  | UNLOCK_TOKENS
  deriving DecidableEq

/-- A call of `EthereumClientService.mintWrappedTokens` or `unlockTokens`. -/
structure EvmCall where
  method : SmartContractMethods
  signedMessage : String
  signatures : List String
  «to» : String
  amount : ℤ
  destinationChainId : ℕ
  tokenAddress : Option String
  deriving DecidableEq

/-- A call of `SolanaClientService.mintWrappedTokens` or `unlockTokens`. -/
structure SolanaCall where
  method : SmartContractMethods
  signedMessage : String
  signatures : List Bytes
  receiverString : String
  amount : ℤ
  tokenMint : PublicKey
  deriving DecidableEq

/-- A call of the client of the destination chain. -/
inductive Call where
  | evm (c : EvmCall)
  | solana (c : SolanaCall)
  deriving DecidableEq

/-- The operations that the services await. -/
inductive Op where
  | rpush (key value : String)
  | llen (key : String)
  | lrange (key : String)
  | del (key : String)
  | getThreshold (site : BridgeSite)
  | getMint (mint : PublicKey)
  | getJob (jobId : String)
  | add (data : BridgeJob) (jobId : String) (opts : JobOptions)
  | callEvm (c : EvmCall)
  | callSolana (c : SolanaCall)
  | storeTransaction (transaction : CreateTransactionDto) (password : String)
  deriving DecidableEq

/-- What an operation answers when it succeeds. -/
@[reducible] def Op.Resp : Op → Type
  | .rpush _ _ => ℕ
  | .llen _ => ℕ
  | .lrange _ => List String
  | .del _ => ℕ
  | .getThreshold _ => ℕ
  | .getMint _ => ℕ
  | .getJob _ => Bool
  | .add _ _ _ => Unit
  -- the status of the receipt
  | .callEvm _ => Option ℕ
  -- `{ status, txSignature }`
  | .callSolana _ => Bool × String
  | .storeTransaction _ _ => Unit

/-- The body of an `async` function of the backend. -/
abbrev Task (α : Type) := Async.Prog Op Op.Resp JsError α

/-- The answers that a function got to its operations. -/
abbrev Answers := List (Σ o : Op, Except JsError o.Resp)

/-- Await an operation. -/
abbrev perform (o : Op) : Task o.Resp := Async.Prog.perform o

end Tsunagari
