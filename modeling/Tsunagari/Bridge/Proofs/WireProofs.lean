import Tsunagari.Bridge.Clients
import Tsunagari.Bridge.Proofs.SignatureProofs

/-!
# Proofs: when two messages differ on the wire

For an EVM destination, the characters of a message are signed and submitted. For Solana its decimal
digits are read as pairs of hexadecimal digits, and a message with an odd number of digits loses the
last one.
-/

namespace Tsunagari

open QueueProcessor (signatureBytes)

/-- Two messages are told apart by the bytes that are signed and submitted for them, so that neither
the signatures of a node nor the accounts that stand for them must coincide. -/
structure DistinctOnWire (m₁ m₂ : String) : Prop where
  evmSigned : Js.toUtf8Bytes m₁ ≠ Js.toUtf8Bytes m₂
  evmSubmitted : messageToBytes m₁ ≠ messageToBytes m₂
  evmSignature : ∀ key, ∃ P : Platform, walletSignMessage P key m₁ ≠ walletSignMessage P key m₂
  solanaSigned : bufferFromHex m₁ ≠ bufferFromHex m₂
  solanaSubmitted : SolanaClientService.messageBytes m₁ ≠ SolanaClientService.messageBytes m₂
  solanaSignature : ∀ key, ∃ P : Platform,
    SolanaClientService.signMessageEVM P m₁ key ≠ SolanaClientService.signMessageEVM P m₂ key
  usedSignature : ∀ key, ∃ (P : Platform) (L : SolanaLibrary) (s₁ s₂ : String),
    SolanaClientService.signMessageEVM P m₁ key = .ok s₁ ∧
      SolanaClientService.signMessageEVM P m₂ key = .ok s₂ ∧
        PDADeriver.usedSignature L (signatureBytes s₁) L.programId ≠
          PDADeriver.usedSignature L (signatureBytes s₂) L.programId

/-! ## EVM chains -/

theorem toUtf8Bytes_injective : Function.Injective Js.toUtf8Bytes := by
  intro s t h
  have hbytes : s.toList.utf8Encode = t.toList.utf8Encode := congrArg List.toByteArray h
  rw [← String.toByteArray_ofList, ← String.toByteArray_ofList, String.toByteArray_inj,
    String.ofList_toList, String.ofList_toList] at hbytes
  exact hbytes

theorem hexlify_injective : Function.Injective hexlify := by
  intro as bs h
  have hlist := congrArg String.toList h
  simp only [hexlify, String.toList_append, String.toList_ofList, List.append_cancel_left_eq]
    at hlist
  exact Hex.encode_injective hlist

theorem messageToBytes_injective : Function.Injective messageToBytes :=
  hexlify_injective.comp toUtf8Bytes_injective

/-- Library functions whose signatures tell the given bytes from all others. -/
def Platform.telling (bs : Bytes) : Platform :=
  { Sample.platform with
    keccak256 := fun message => message
    eip191Sign := fun _ message => Vector.replicate 65 (if message = bs then 0 else 1)
    secp256k1Sign := fun hash _ => .ok
      { r := Vector.replicate 32 0, s := Vector.replicate 32 0,
        recovery := if hash = bs then 0 else 1 } }

theorem walletSignMessage_telling (bs : Bytes) (key m : String) :
    walletSignMessage (.telling bs) key m =
      hexlify (List.replicate 65 (if Js.toUtf8Bytes m = bs then 0 else 1)) :=
  congrArg hexlify Vector.toList_replicate

/-- Wallets may sign different bytes differently. -/
theorem exists_walletSignMessage_ne {m₁ m₂ : String} (h : m₁ ≠ m₂) (key : String) :
    ∃ P : Platform, walletSignMessage P key m₁ ≠ walletSignMessage P key m₂ := by
  refine ⟨.telling (Js.toUtf8Bytes m₁), fun heq => ?_⟩
  rw [walletSignMessage_telling, walletSignMessage_telling, if_pos rfl,
    if_neg fun h' => h (toUtf8Bytes_injective h').symm] at heq
  exact absurd (hexlify_injective heq) (by decide)

/-! ## Solana -/

variable {P : Platform} {tx₁ tx₂ : String} {seed : ℕ}

/-- Two messages have the same bytes for Solana exactly when they agree up to an unpaired last
digit. -/
theorem bufferFromHex_inj : bufferFromHex (createMessage P tx₁ seed) =
      bufferFromHex (createMessage P tx₂ seed) ↔
    Hex.paired (createMessage P tx₁ seed).toList = Hex.paired (createMessage P tx₂ seed).toList :=
  Hex.decode_inj_of_isDigit (fun _ => isDigit_of_mem_createMessage)
    fun _ => isDigit_of_mem_createMessage

theorem messageBytes_createMessage (P : Platform) (text : String) (seed : ℕ) :
    SolanaClientService.messageBytes (createMessage P text seed) =
      bufferFromHex (createMessage P text seed) := by
  rw [SolanaClientService.messageBytes, strip0x_createMessage]

theorem signMessageEVM_telling (bs : Bytes) (m key : String) :
    SolanaClientService.signMessageEVM (.telling bs) m key = .ok (String.ofList (Hex.encode
      (List.replicate 64 0 ++ [if bufferFromHex m = bs then 0 else 1]))) := rfl

/-- A signer may sign different bytes differently. -/
theorem exists_signMessageEVM_ne {m₁ m₂ : String} (h : bufferFromHex m₁ ≠ bufferFromHex m₂)
    (key : String) : ∃ (P : Platform) (bs₁ bs₂ : Bytes), bs₁ ≠ bs₂ ∧
      SolanaClientService.signMessageEVM P m₁ key = .ok (String.ofList (Hex.encode bs₁)) ∧
        SolanaClientService.signMessageEVM P m₂ key = .ok (String.ofList (Hex.encode bs₂)) := by
  refine ⟨.telling (bufferFromHex m₁), List.replicate 64 0 ++ [0], List.replicate 64 0 ++ [1],
    by decide, ?_, ?_⟩
  · rw [signMessageEVM_telling, if_pos rfl]
  · rw [signMessageEVM_telling, if_neg h.symm]

/-- The accounts of different signatures may be different. -/
theorem exists_usedSignature_ne {bs₁ bs₂ : Bytes} (h : bs₁ ≠ bs₂) :
    ∃ L : SolanaLibrary,
      PDADeriver.usedSignature L bs₁ L.programId ≠ PDADeriver.usedSignature L bs₂ L.programId := by
  refine ⟨{ Sample.library with
    keccak_256 := id
    findProgramAddress := fun seeds _ =>
      Vector.replicate 32 (if seeds = [Js.toUtf8Bytes USED_SIGNATURE_SEED, bs₁] then 0 else 1) },
    fun heq => ?_⟩
  have hseeds : [Js.toUtf8Bytes USED_SIGNATURE_SEED, bs₂] ≠
      [Js.toUtf8Bytes USED_SIGNATURE_SEED, bs₁] := by
    simp only [ne_eq, List.cons.injEq, and_true, true_and]
    exact h.symm
  have hbytes := congrArg (fun v : PublicKey => v.toList.head?) heq
  simp only [PDADeriver.usedSignature, id, if_pos, if_neg hseeds] at hbytes
  revert hbytes
  decide

/-! ## The exact condition -/

/-- **Two different messages are told apart on the wire exactly when they differ before an unpaired
last digit.** -/
theorem distinctOnWire_iff (P : Platform) (tx₁ tx₂ : String) (seed : ℕ) :
    (createMessage P tx₁ seed ≠ createMessage P tx₂ seed →
        DistinctOnWire (createMessage P tx₁ seed) (createMessage P tx₂ seed)) ↔
      (createMessage P tx₁ seed ≠ createMessage P tx₂ seed →
        Hex.paired (createMessage P tx₁ seed).toList ≠
          Hex.paired (createMessage P tx₂ seed).toList) := by
  constructor
  · intro h hne hpaired
    exact (h hne).solanaSigned (bufferFromHex_inj.2 hpaired)
  · intro h hne
    have hbytes := fun heq => h hne (bufferFromHex_inj.1 heq)
    refine ⟨fun h => hne (toUtf8Bytes_injective h), fun h => hne (messageToBytes_injective h),
      exists_walletSignMessage_ne hne, hbytes, ?_, fun key => ?_, fun key => ?_⟩
    · rw [messageBytes_createMessage, messageBytes_createMessage]
      exact hbytes
    · obtain ⟨P', bs₁, bs₂, hbs, h₁, h₂⟩ := exists_signMessageEVM_ne hbytes key
      refine ⟨P', fun heq => hbs (Hex.encode_injective ?_)⟩
      exact String.ofList_injective (Except.ok.inj (h₁.symm.trans (heq.trans h₂)))
    · obtain ⟨P', bs₁, bs₂, hbs, h₁, h₂⟩ := exists_signMessageEVM_ne hbytes key
      obtain ⟨L, hL⟩ := exists_usedSignature_ne hbs
      exact ⟨P', L, _, _, h₁, h₂, by rwa [signatureBytes_encode, signatureBytes_encode]⟩

/-- Two transaction hashes whose messages have nine digits and differ in the last one. -/
def Sample.nineDigits : Platform :=
  { platform with
    murmur3 := fun text _ =>
      if text = "0xa60c59d6c188f69349ae3c6ca44068683cae7e491f2011c228e3a5a598edf693" then 878142050
      else 878142052 }

/-- Solana gets the same bytes for both. -/
theorem not_distinctOnWire_sample :
    ¬ ∀ tx₁ tx₂ : String,
      createMessage Sample.nineDigits tx₁ 42 ≠ createMessage Sample.nineDigits tx₂ 42 →
        DistinctOnWire (createMessage Sample.nineDigits tx₁ 42)
          (createMessage Sample.nineDigits tx₂ 42) := by
  intro h
  have hdistinct := h "0xa60c59d6c188f69349ae3c6ca44068683cae7e491f2011c228e3a5a598edf693"
    "0xb9fc5d46caf473455286fb2fca1bd55d06a7fe2d3b8ae9be0e9150bb9030e0ac" (by decide +kernel)
  exact absurd (by decide +kernel) hdistinct.solanaSigned

end Tsunagari
