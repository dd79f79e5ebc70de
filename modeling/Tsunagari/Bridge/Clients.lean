import Tsunagari.Bridge.Processor

/-!
# The clients of the destination chains

`mintWrappedTokens` and `unlockTokens` of the two clients, from the arguments that the processor
passes to the contract call or the instruction. What they await is an operation signature of its
own; for the rest of the backend, such a call is one operation.
-/

namespace Tsunagari

open Async (Prog)

/-! ## Third-party functions -/

/-- The library functions and the fixed addresses of the Solana client. -/
structure SolanaLibrary where
  /-- `bs58.encode` -/
  bs58Encode : Bytes → String
  /-- `keccak_256` of `@noble/hashes` -/
  keccak_256 : Bytes → Bytes
  /-- `PublicKey.findProgramAddressSync(seeds, programId)[0]` -/
  findProgramAddress : List Bytes → PublicKey → PublicKey
  /-- `getAssociatedTokenAddress(mint, owner, true)` -/
  getAssociatedTokenAddress : PublicKey → PublicKey → PublicKey
  /-- `bridgeProgram.programId` -/
  programId : PublicKey
  /-- `authority.publicKey` -/
  authority : PublicKey
  TOKEN_PROGRAM_ID : PublicKey
  ASSOCIATED_TOKEN_PROGRAM_ID : PublicKey
  /-- `web3.SystemProgram.programId` -/
  systemProgramId : PublicKey

/-! ## Addresses derived from the program -/

/-- `BRIDGE_CONFIG_SEED` -/
def BRIDGE_CONFIG_SEED : String := "BridgeConf"

/-- `SPL_VAULT_SEED` -/
def SPL_VAULT_SEED : String := "splv"

/-- `USED_SIGNATURE_SEED` -/
def USED_SIGNATURE_SEED : String := "sign"

namespace PDADeriver

variable (L : SolanaLibrary)

/-- `PDADeriver.bridgeConfig` -/
def bridgeConfig (programId : PublicKey) : PublicKey :=
  L.findProgramAddress [Js.toUtf8Bytes BRIDGE_CONFIG_SEED] programId

/-- `PDADeriver.splVault` -/
def splVault (programId : PublicKey) : PublicKey :=
  L.findProgramAddress [Js.toUtf8Bytes SPL_VAULT_SEED] programId

/-- `PDADeriver.usedSignature` -/
def usedSignature (signature : Bytes) (programId : PublicKey) : PublicKey :=
  L.findProgramAddress [Js.toUtf8Bytes USED_SIGNATURE_SEED, L.keccak_256 signature] programId

end PDADeriver

/-! ## Instructions and transactions -/

/-- An account that an instruction names besides its own. -/
structure AccountMeta where
  pubkey : PublicKey
  isSigner : Bool
  isWritable : Bool
  deriving DecidableEq

/-- The accounts of both instructions; each of them has its own besides. -/
structure CommonAccounts where
  payer : PublicKey
  mint : PublicKey
  splVault : PublicKey
  bridgeConfig : PublicKey
  tokenProgram : PublicKey
  systemProgram : PublicKey
  deriving DecidableEq

/-- An instruction of the bridge program, with its arguments and accounts. -/
inductive Instruction where
  | mintWrapped (amount : ℤ) («to» wrappedTokenAddress : PublicKey) (message : Bytes)
      (signatures : List Bytes) (accounts : CommonAccounts)
      (receiver receiverAta associatedTokenProgram : PublicKey)
      (remainingAccounts : List AccountMeta)
  | unlock (tokenMint : PublicKey) (amount : ℤ) (message : Bytes) (signatures : List Bytes)
      (accounts : CommonAccounts) («from» «to» : PublicKey) (remainingAccounts : List AccountMeta)
  deriving DecidableEq

namespace Instruction

/-- The method of the program. -/
def method : Instruction → SmartContractMethods
  | mintWrapped .. => .MINT_WRAPPED_TOKENS
  | unlock .. => .UNLOCK_TOKENS

/-- The scaled amount. -/
def amount : Instruction → ℤ
  | mintWrapped amount _ _ _ _ _ _ _ _ _ => amount
  | unlock _ amount _ _ _ _ _ _ => amount

/-- The mint of the token. -/
def tokenMint : Instruction → PublicKey
  | mintWrapped _ _ wrappedTokenAddress _ _ _ _ _ _ _ => wrappedTokenAddress
  | unlock tokenMint _ _ _ _ _ _ _ => tokenMint

/-- The token account that receives the tokens. -/
def tokenAccount : Instruction → PublicKey
  | mintWrapped _ _ _ _ _ _ _ receiverAta _ _ => receiverAta
  | unlock _ _ _ _ _ _ account _ => account

/-- The receivers that are named besides the token account. -/
def receivers : Instruction → List PublicKey
  | mintWrapped _ «to» _ _ _ _ receiver _ _ _ => [«to», receiver]
  | unlock .. => []

/-- The message bytes. -/
def message : Instruction → Bytes
  | mintWrapped _ _ _ message _ _ _ _ _ _ => message
  | unlock _ _ message _ _ _ _ _ => message

/-- The signatures. -/
def signatures : Instruction → List Bytes
  | mintWrapped _ _ _ _ signatures _ _ _ _ _ => signatures
  | unlock _ _ _ signatures _ _ _ _ => signatures

end Instruction

/-- The arguments of `mintWrappedTokens` and `unlockTokens` of the bridge contract. -/
structure ContractArguments where
  amount : ℤ
  «to» : String
  tokenAddress : Option String
  messageBytes : String
  signatures : List String
  deriving DecidableEq

/-- The operations that the clients await. -/
inductive ClientOp where
  | send (chainId : ℕ) (contract : String) (method : SmartContractMethods)
      (args : ContractArguments)
  | wait (chainId : ℕ) (transactionHash : String)
  | getOrCreateAssociatedTokenAccount (mint owner : PublicKey)
  | getMint (mint : PublicKey)
  | rpc (instruction : Instruction)
  | getTransaction (txSignature : String)
  deriving DecidableEq

/-- What an operation answers when it succeeds. -/
@[reducible] def ClientOp.Resp : ClientOp → Type
  -- the transaction hash
  | .send .. => String
  -- the status of the receipt
  | .wait .. => Option ℕ
  -- the address of the account
  | .getOrCreateAssociatedTokenAccount .. => PublicKey
  -- the decimals
  | .getMint _ => ℕ
  -- the transaction signature
  | .rpc _ => String
  -- `tx`, `tx.meta` and `tx.meta.err`, where each may be missing
  | .getTransaction _ => Option (Option (Option JsError))

/-- The body of an `async` function of a client. -/
abbrev ClientTask (α : Type) := Prog ClientOp ClientOp.Resp JsError α

/-- The answers that a function of a client got to its operations. -/
abbrev ClientAnswers := List (Σ o : ClientOp, Except JsError o.Resp)

/-- Await an operation of a client. -/
abbrev request (o : ClientOp) : ClientTask o.Resp := Prog.perform o

/-! ## EVM chains -/

namespace EthereumClientService

/-- `sendTransaction`; the wallet is missing where the network is. -/
def sendTransaction (cfg : Config) (chainId : ℕ) (method : SmartContractMethods)
    (args : ContractArguments) : ClientTask (Option ℕ) :=
  match cfg.network? chainId with
  | none => throw (.error s!"No wallet found for chain ID {chainKey chainId}")
  | some network =>
    if network.bridgeAddress = "" then
      throw (.error s!"No bridge address found for chain ID {chainKey chainId}")
    else do
      let tx ← request (.send chainId network.bridgeAddress method args)
      let status ← request (.wait chainId tx)
      if status = none ∨ status = some 0 then
        throw (.error s!"Transaction to chain {chainKey chainId} failed")
      else pure status

/-- The common body of `mintWrappedTokens` and `unlockTokens`. -/
def transact (cfg : Config) (method : SmartContractMethods) (signedMessage : String)
    (signatures : List String) («to» : String) (amount : ℤ) (destinationChainId : ℕ)
    (tokenAddress : Option String) : ClientTask (Option ℕ) :=
  sendTransaction cfg destinationChainId method
    { amount, «to», tokenAddress, messageBytes := messageToBytes signedMessage, signatures }

/-- `EthereumClientService.mintWrappedTokens` -/
def mintWrappedTokens (cfg : Config) : String → List String → String → ℤ → ℕ → Option String →
    ClientTask (Option ℕ) :=
  transact cfg .MINT_WRAPPED_TOKENS

/-- `EthereumClientService.unlockTokens` -/
def unlockTokens (cfg : Config) : String → List String → String → ℤ → ℕ → Option String →
    ClientTask (Option ℕ) :=
  transact cfg .UNLOCK_TOKENS

/-- What the call of the processor runs. -/
def serve (cfg : Config) (c : EvmCall) : ClientTask (Option ℕ) :=
  match c.method with
  | .MINT_WRAPPED_TOKENS =>
    mintWrappedTokens cfg c.signedMessage c.signatures c.to c.amount c.destinationChainId
      c.tokenAddress
  | .UNLOCK_TOKENS =>
    unlockTokens cfg c.signedMessage c.signatures c.to c.amount c.destinationChainId c.tokenAddress

end EthereumClientService

/-! ## Solana -/

namespace SolanaClientService

/-- `hexToBase58` -/
def hexToBase58 (L : SolanaLibrary) (hexStr : String) : String :=
  L.bs58Encode (bufferFromHex (Js.strip0x hexStr))

/-- `checkTransactionStatus`: an error counts as a failed transaction. -/
def checkTransactionStatus (signature : String) : ClientTask Bool :=
  try
    let tx ← request (.getTransaction signature)
    pure (tx = some (some none))
  catch _ => pure false

/-- `amountBN.div(scaleFactor)`; `BN.pow` ignores the sign of the exponent. -/
def scaledAmount (amount : ℤ) (decimals : ℕ) : ℤ :=
  let scaleFactor : ℤ := 10 ^ (ETH_DECIMALS - decimals).natAbs
  amount.tdiv scaleFactor

/-- The message bytes of the instruction. -/
def messageBytes (signedMessage : String) : Bytes := bufferFromHex (Js.strip0x signedMessage)

/-- One account for every signature, which the program marks as used. -/
def remainingAccounts (L : SolanaLibrary) (signatures : List Bytes) : List AccountMeta :=
  signatures.map fun signature =>
    { pubkey := PDADeriver.usedSignature L signature L.programId
      isSigner := false
      isWritable := true }

/-- The accounts that both instructions name. -/
def accounts (L : SolanaLibrary) (mint : PublicKey) : CommonAccounts where
  payer := L.authority
  mint := mint
  splVault := PDADeriver.splVault L L.programId
  bridgeConfig := PDADeriver.bridgeConfig L L.programId
  tokenProgram := L.TOKEN_PROGRAM_ID
  systemProgram := L.systemProgramId

/-- `SolanaClientService.unlockTokens` -/
def unlockTokens (P : Platform) (L : SolanaLibrary) (signedMessage : String)
    (signatures : List Bytes) (receiverString : String) (amount : ℤ)
    (nativeTokenMint : PublicKey) : ClientTask (Bool × String) := do
  let vaultPDA := PDADeriver.splVault L L.programId
  let receiver ← Prog.ofExcept (QueueProcessor.newPublicKey P (hexToBase58 L receiverString))
  let userAta ← request (.getOrCreateAssociatedTokenAccount nativeTokenMint receiver)
  let vaultAtaPDA := L.getAssociatedTokenAddress nativeTokenMint vaultPDA
  let decimals ← request (.getMint nativeTokenMint)
  let txSignature ← request (.rpc (.unlock nativeTokenMint (scaledAmount amount decimals)
    (messageBytes signedMessage) signatures (accounts L nativeTokenMint) vaultAtaPDA userAta
    (remainingAccounts L signatures)))
  let status ← checkTransactionStatus txSignature
  pure (status, txSignature)

/-- `SolanaClientService.mintWrappedTokens` -/
def mintWrappedTokens (P : Platform) (L : SolanaLibrary) (signedMessage : String)
    (signatures : List Bytes) (receiverString : String) (amount : ℤ)
    (wrappedTokenMint : PublicKey) : ClientTask (Bool × String) := do
  let receiver ← Prog.ofExcept (QueueProcessor.newPublicKey P (hexToBase58 L receiverString))
  let receiverATA ← request (.getOrCreateAssociatedTokenAccount wrappedTokenMint receiver)
  let decimals ← request (.getMint wrappedTokenMint)
  let txSignature ← request (.rpc (.mintWrapped (scaledAmount amount decimals) receiver
    wrappedTokenMint (messageBytes signedMessage) signatures (accounts L wrappedTokenMint) receiver
    receiverATA L.ASSOCIATED_TOKEN_PROGRAM_ID (remainingAccounts L signatures)))
  let status ← checkTransactionStatus txSignature
  pure (status, txSignature)

/-- What the call of the processor runs. -/
def serve (P : Platform) (L : SolanaLibrary) (c : SolanaCall) : ClientTask (Bool × String) :=
  match c.method with
  | .MINT_WRAPPED_TOKENS =>
    mintWrappedTokens P L c.signedMessage c.signatures c.receiverString c.amount c.tokenMint
  | .UNLOCK_TOKENS =>
    unlockTokens P L c.signedMessage c.signatures c.receiverString c.amount c.tokenMint

end SolanaClientService

/-! ## From the event to the transaction -/

/-- With the given answers, the handler of the event gets to adding the job. -/
def BridgeEvent.Enqueues (P : Platform) (cfg : Config) (node : Node) (e : BridgeEvent)
    (tr : Answers) (data : BridgeJob) : Prop :=
  ∃ id opts k, Prog.Path (e.handle P cfg node) tr (.await (.add data id opts) k)

/-- The processor of the job gets to the call. -/
def BridgeJob.Calls (P : Platform) (data : BridgeJob) : Call → Prop
  | .evm c => ∃ tr k, Prog.Path (QueueProcessor.process P data) tr (.await (.callEvm c) k)
  | .solana c => ∃ tr k, Prog.Path (QueueProcessor.process P data) tr (.await (.callSolana c) k)

/-- The client gets to the transaction with the bridge contract. -/
def EvmCall.Sends (cfg : Config) (c : EvmCall) (chainId : ℕ) (contract : String)
    (method : SmartContractMethods) (args : ContractArguments) : Prop :=
  ∃ tr k, Prog.Path (EthereumClientService.serve cfg c) tr
    (.await (.send chainId contract method args) k)

/-- With the given answers, the client gets to the transaction with the instruction. -/
def SolanaCall.Sends (P : Platform) (L : SolanaLibrary) (c : SolanaCall) (tr : ClientAnswers)
    (ix : Instruction) : Prop :=
  ∃ k, Prog.Path (SolanaClientService.serve P L c) tr (.await (.rpc ix) k)

end Tsunagari
