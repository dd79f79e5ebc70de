import Tsunagari.Bridge.Routes

/-!
# Transfers from Solana, and the way back

What a lock or burn on Solana asks for, and configurations in which a token that is sent back
arrives as the token that was sent.
-/

namespace Tsunagari

/-! ## Transfers from Solana -/

/-- The data of a lock or burn on Solana. -/
structure SolanaTransfer where
  type : JobTypes
  amount : UInt64
  tokenMint : PublicKey
  destinationChain : ℕ
  destinationAddress : String

/-- The lock or burn on Solana that the event is. -/
def BridgeEvent.solanaTransfer? : BridgeEvent → Option SolanaTransfer
  | tokensLocked _ _ => none
  | wrappedTokensBurned _ _ => none
  | solanaTokensLocked _ data =>
    some { type := .HANDLE_LOCK, amount := data.amount, tokenMint := data.lockedTokenMint,
           destinationChain := data.destinationChain.toNat,
           destinationAddress := data.destinationAddress }
  | solanaTokensBurned _ data =>
    some { type := .HANDLE_BURN, amount := data.amount, tokenMint := data.burnedTokenMint,
           destinationChain := data.destinationChain.toNat,
           destinationAddress := data.destinationAddress }

/-- The destinations of the tokens of Solana are chain ids below `2 ^ 53`. -/
def Config.SafeSolanaChainIds (cfg : Config) : Prop :=
  ∀ address entry side key token, cfg.solanaTokens address = some entry →
    entry.wrapped = some side ∨ entry.native = some side → side key = some token →
      ∃ c < 2 ^ 53, key = toString c

/-- The transaction with an EVM bridge contract is the one that a lock or burn on Solana asks for,
where the mint has so many decimals: a lock has its tokens minted, a burn unlocked. -/
structure SolanaTransfer.AsksForTransaction (P : Platform) (cfg : Config) (s : SolanaTransfer)
    (decimals chainId : ℕ) (method : SmartContractMethods) (args : ContractArguments) : Prop where
  chain : s.destinationChain = chainId
  mints : s.type = .HANDLE_LOCK → method = .MINT_WRAPPED_TOKENS
  unlocks : s.type = .HANDLE_BURN → method = .UNLOCK_TOKENS
  token : ∃ token, cfg.solanaCounterpart s.type (P.toBase58 s.tokenMint) chainId = some token ∧
    args.tokenAddress = some token
  /-- The amount is scaled up to 18 decimals, and changed by at most one part in `2 ^ 51`. -/
  near : |args.amount - (s.amount.toNat * 10 ^ (18 - decimals) : ℕ)| * 2 ^ 51 ≤
    (s.amount.toNat * 10 ^ (18 - decimals) : ℕ)
  exact : decimals ≤ 12 ∨ s.amount.toNat < 10 ^ 15 →
    args.amount = (s.amount.toNat * 10 ^ (18 - decimals) : ℕ)
  recipient : ∀ (padding : Bytes) (address : Vector UInt8 20),
    s.destinationAddress = hexlify (padding ++ address.toList) → args.to = hexlify address.toList

/-! ## The way back -/

/-- What was locked is burned to send it back, and what was burned is locked. -/
def JobTypes.opposite : JobTypes → JobTypes
  | .HANDLE_LOCK => .HANDLE_BURN
  | .HANDLE_BURN => .HANDLE_LOCK

/-- The counterpart on Solana of a token of an EVM chain. -/
def Config.mint? (P : Platform) (cfg : Config) (type : JobTypes) (origin : ℕ)
    (tokenAddress : String) : Option PublicKey := do
  let text ← cfg.evmCounterpart type origin tokenAddress 0
  (P.publicKey text).toOption

/-- A token is its counterpart's counterpart. -/
structure Config.Mirrored (P : Platform) (cfg : Config) : Prop where
  evm : ∀ type origin tokenAddress mint, origin < 2 ^ 53 →
    cfg.mint? P type origin tokenAddress = some mint →
      cfg.solanaCounterpart type.opposite (P.toBase58 mint) origin = some tokenAddress
  solana : ∀ type mint destination tokenAddress,
    cfg.solanaCounterpart type (P.toBase58 mint) destination = some tokenAddress →
      cfg.mint? P type.opposite destination tokenAddress = some mint

end Tsunagari
