import Tsunagari.Bridge.Clients
import Tsunagari.Bridge.World

/-!
# A sample deployment

A configuration with two EVM chains and Solana, three nodes, and two bridge events, on which general
statements are instantiated. The library functions are tables with the values that the real
functions have at the arguments that occur.
-/

namespace Tsunagari

namespace Sample

/-- The `k` bytes of a number, the most significant first. -/
def bytes (k n : ℕ) : Vector UInt8 k := Vector.ofFn fun i => UInt8.ofNat (n / 256 ^ (k - 1 - i))

/-- The hash of the EVM transaction. -/
def evmTransaction : String := "0x88df016429689c079f3b2f6ad39fa052532c56795b733da78a91ebe6a713944b"

/-- The signature of the Solana transaction. -/
def solanaTransaction : String :=
  "5VERv8NMvzbJMEkV8xnrLkEaWRtSz9CosKDYjCJjBRnbJLgp8uirBgmQpjKhoR4tjF3ZpRzrFmBV6UjKdiSZkQUW"

/-- The private keys of the nodes. -/
def privateKey : Fin 3 → String
  | 0 => "ac0974bec39a17e36ba4a6b4d238ff944bacb478cbed5efcae784d7bf4f2ff80"
  | 1 => "59c6995e998f97a5a0044966f0945389dc9e86dae88c7a8412f4603b6b78690d"
  | 2 => "5de4111afa1a4b94908f83103eb1f1706367c2e68ca870fc3fb9a804cdab365a"

def node (i : Fin 3) : Node := { privateKey := privateKey i }

/-- The wrapped mint of the native token of Solana. -/
def mint : PublicKey :=
  bytes 32 2988679396378646993494765771507681406623014513651778753134412041978399162369

/-- The log lines of a transaction that locks 2.5 SOL. -/
def lockLines : List String :=
  ["Program NfuWnZr8HR4mxULPG61Nh7zSbdinwGtNQGVoeuxM5Jf invoke [1]",
   "Program data: P7jJFMvC+YoA+QKVAAAAAAabiFf+q4GE+2h/Y0YYwDXaxDncGus7VZig8AAAAAABiQAAAEIAAAAweDAwMDAwMDAwMDAwMDAwMDAwMDAwMDAwMGYzOWZkNmU1MWFhZDg4ZjZmNGNlNmFiODgyNzI3OWNmZmZiOTIyNjY=",
   "Program NfuWnZr8HR4mxULPG61Nh7zSbdinwGtNQGVoeuxM5Jf success"]

/-- The event in these lines. -/
def lockData : SolanaLockEvent where
  amount := 2500000000
  lockedTokenMint := mint
  destinationChain := 137
  destinationAddress := "0x000000000000000000000000f39fd6e51aad88f6f4ce6ab8827279cfffb92266"

/-- The EIP-191 signature of a key over one of the two messages. -/
def eip191 (key : String) (message : Bytes) : ℕ :=
  if message = Js.toUtf8Bytes "378321974" then
    if key = privateKey 0 then 0xa071bf0ee29932afd2419bde05f81f4d3ea8fd28d05fdf72cb9caa45c44c59507d3545388488589784fdc1ef284b565ae75b6e884b266204261dd2bb0345742c1b
    else if key = privateKey 1 then 0x7d076e5e8a74af6af3e22c0fffe13ecdcdbd89900f1d3298596d03678293048b48c3c34ba54706f202855db8be4c542f1426f53b9b53edde7bb6dcacc792b43a1b
    else 0x442b83409ebd1473aa338c21ade29cc0927c96cd442eb217e6fbc1704831fda85391d24ffec21ab63050277f340a1abb67f99302b4f9aeda207aedc046a71ce91b
  else
    if key = privateKey 0 then 0x3070fce36996266ea93fbdb872e3dae2f73bc601146a007a29ba3f4eb37a646f49b78d5b4cf81aa55ebac9b2ec33b14c184998d3730708ae868203116eeb1d9b1b
    else if key = privateKey 1 then 0x96a311f3ec29b11084c1258b8a993f79fdf83f82fc69dd922b901c2b550ade2810b40cbb2cefd9d73d980d9253b4fe8ebaf43e276ac609664d30019958cc9e371c
    else 0x25936ad28b55e683bf51b7ae626c0ec6008776c6771bb7b8077d16c14fe8aaf8550a4726e8abaad1dfb44745e950d0833d5b25aaf31370264294d104d3e73bbd1b

/-- The recoverable signature of a key over the message hash of the EVM transaction. -/
def secp256k1 (key : String) : RecoverableSignature :=
  if key = privateKey 0 then
    { r := bytes 32 0xfa04ea13e99843f513caf730c506da570f37d655c71c42cec02a68b06c097331
      s := bytes 32 0x0d10e5c5b07ddafa21acde45dbc9dd67225854936bc0bb3b2180ee7416bee306
      recovery := 1 }
  else if key = privateKey 1 then
    { r := bytes 32 0x712a7a0eec55bdf8fc0d2d5d9164875673d2ecb9662c154f17290131789ceb47
      s := bytes 32 0x65414f2ed1400c415d1d8db8369ad1cd5b5ea22af7a2b034d3868555bfe4a47f
      recovery := 0 }
  else
    { r := bytes 32 0xffc4a9a34f9864e12bc58783be092d1bc7b2260f6cf38a860c661b6d4d661258
      s := bytes 32 0x0b17cc1601e41e36e867230a5f43c2cbda65487cd00845412cecb70662fba519
      recovery := 0 }

/-- The library functions, at the arguments that occur. -/
def platform : Platform where
  murmur3 text _ :=
    if text = evmTransaction then 378321974
    else if text = "378321974" then 2361242049
    else if text = solanaTransaction then 2559783940
    else 3461477406
  keccak256 _ :=
    (bytes 32 0x2054dfc9d2103547c06f12dc11d5e5d61e5b6c9d07196dcf92a8bc661bf2edeb).toList
  eip191Sign key message := bytes 65 (eip191 key message)
  secp256k1Sign _ key := .ok (secp256k1 key)
  publicKey text :=
    if text = "So11111111111111111111111111111111111111112" then .ok mint
    else .error (.error "Invalid public key input")
  toBase58 _ := "So11111111111111111111111111111111111111112"
  parseLogs lines := if lines = lockLines then [.tokensLocked lockData] else []

/-- The destination address of the EVM events, as a key. -/
def receiver : PublicKey := bytes 32 0xf39fd6e51aad88f6f4ce6ab8827279cfffb92266

/-- The library functions, where every key has a text: the two keys that occur have their own, the
others a hexadecimal one. -/
def solanaPlatform : Platform :=
  { platform with
    publicKey := fun text =>
      if text = "So11111111111111111111111111111111111111112" then .ok mint
      else if text = "1111111111114Prk42UGhL8jJiiQCPRNwhVfQduP" then .ok receiver
      else .ok (Vector.ofFn fun i => (bufferFromHex text).getD i 0) }

/-- The library functions and addresses of the Solana client, at the arguments that occur. -/
def library : SolanaLibrary where
  bs58Encode bs :=
    if bs = mint.toList then "So11111111111111111111111111111111111111112"
    else if bs = receiver.toList then "1111111111114Prk42UGhL8jJiiQCPRNwhVfQduP"
    else String.ofList (Hex.encode bs)
  keccak_256 _ :=
    (bytes 32 0xad663fb806e7af87065c1f32967df6b684f0a7a7359583c62d784531676628fc).toList
  findProgramAddress seeds _ :=
    if seeds = [Js.toUtf8Bytes BRIDGE_CONFIG_SEED] then
      bytes 32 0xd8467ec0f03d50c94cf549b9536f3c45f2b108733a44d8f6c9b0ce62122cd5a6
    else if seeds = [Js.toUtf8Bytes SPL_VAULT_SEED] then
      bytes 32 0x4dc1cba8afd6cb68680d2631575c3e021fa0edd8995f2d1bc78e69397b3b05fe
    else bytes 32 0x9c515f417ea359c4fc8090e9ecccdab396a5c6bd51a79281237339d0d5aa30db
  getAssociatedTokenAddress _ _ :=
    bytes 32 0x1fb4a0993bf7cc1c5d5584b47164d26dff003ea83e8575409d5bdc160f0f00ca
  programId := bytes 32 0x058d2ffe40919b0fffacabfc067d66d13ef1f774020b69d4e2ab131ea97456e0
  authority := bytes 32 0x3b6a27bcceb6a42d62a3a8d02a6f0d73653215771de243a63ac048a18b59da29
  TOKEN_PROGRAM_ID := bytes 32 0x06ddf6e1d765a193d9cbe146ceeb79ac1cb485ed5f5b37913a8cf5857eff00a9
  ASSOCIATED_TOKEN_PROGRAM_ID :=
    bytes 32 0x8c97258f4e2489f1bb3d1029148e0d830b5a1399daff1084048e7bd8dbe9f859
  systemProgramId := bytes 32 0

/-- The token that the EVM event locks. -/
def token : String := "0xC02aaA39b223FE8D0A0e5C4F27eAD9083C756Cc2"

def config : Config where
  murmur3Seed := 42
  grpcPassword := "secret"
  networks :=
    [{ chainId := 1, bridgeAddress := "0x5FbDB2315678afecb367f032d93F642f64180aa3" },
     { chainId := 137, bridgeAddress := "0xe7f1725E7734CE288F8367e1Bb143E90bb3F0512" }]
  evmTokens chain :=
    if chain = "1" then
      some fun address =>
        if address = token then
          some { wrapped := some fun destination =>
                   if destination = "137" then some "0x7ceB23fD6bC0adD59E62ac25578270cFf1b9f619"
                   else if destination = "0" then some "So11111111111111111111111111111111111111112"
                   else none
                 native := none }
        else none
    else none
  solanaTokens address :=
    if address = "So11111111111111111111111111111111111111112" then
      some { wrapped := some fun destination =>
               if destination = "137" then some "0x0d500B1d8E8eF31E21C99d1Db9A6444d3ADf1270"
               else none
             native := none }
    else none
  jobAddAttempts := 3
  jobRetryDelay := 1000

/-- The bridges of the EVM chains have the threshold `t`, and the one on Solana has `u`. -/
def env (t u : ℕ) : Env where
  threshold
    | .evm _ => t
    | .solana => u
  decimals _ := 9

/-- A log of the first chain that names the given chain. -/
def lockLog (destination : BitVec 256) : EvmLog where
  tokenAddress := token
  amount := 1500000000000000000
  destinationChainId := destination
  destinationAddress := receiver
  transactionHash := evmTransaction

/-- A lock on the first chain, for the given chain. -/
def lock (destination : BitVec 256) : BridgeEvent := .tokensLocked 1 (lockLog destination)

/-- A lock on Solana, for the second EVM chain. -/
def solanaLock : BridgeEvent := .solanaTokensLocked solanaTransaction lockData

/-- The first `n` nodes are about to handle the event. -/
def world (e : BridgeEvent) (n : ℕ) (h : n ≤ 3) : World (Fin n) :=
  World.init fun d => e.handle platform config (node (d.castLE h))

/-- The job of the lock for the second EVM chain. -/
def job : BridgeJob where
  message := "378321974"
  type := .HANDLE_LOCK
  recipient := "0x000000000000000000000000f39fd6e51aad88f6f4ce6ab8827279cfffb92266"
  originTokenAddress := token
  destinationTokenAddress := some "0x7ceB23fD6bC0adD59E62ac25578270cFf1b9f619"
  amount := "1500000000000000000"
  destinationChainId := 137
  originChainId := 1

/-- The signature of the first node is in the list of the job. -/
def signed : Store (Fin 3) where
  lists key :=
    if key = job.message then [(0, walletSignMessage platform (privateKey 0) job.message)] else []
  jobs _ := none
  added _ := 0

/-- The signature of the second node. -/
def secondSignature : String := walletSignMessage platform (privateKey 1) job.message

/-- A handler pushes its signature. -/
def push {δ : Type} (d : δ) : List (Action δ) := [.handler d .ok, .flush d .ok]

/-- A handler reads the threshold and counts. -/
def count {δ : Type} (d : δ) : List (Action δ) := [.handler d .ok, .handler d .ok]

/-- A handler looks for the job and adds it. -/
def enqueue {δ : Type} (d : δ) : List (Action δ) := [.handler d .ok, .handler d .ok]

/-- A worker runs the job: it reads the list, empties it and submits. -/
def serve {δ : Type} (id : String) (r : Reply) : List (Action δ) :=
  [.take id, .worker id .ok, .worker id .ok, .worker id r]

end Sample

end Tsunagari
