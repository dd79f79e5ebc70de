import Tsunagari.Bridge.Proofs.ClientProofs
import Tsunagari.Bridge.Proofs.ConfinementProofs
import Tsunagari.Bridge.Sample
import Tsunagari.Encoding.Proofs.HexProofs

/-!
# Proofs: what is submitted is what was signed

The signers and the processor are different processes that share only a Redis list. The bytes agree
because a message is a decimal number, so that no conversion finds a prefix to strip in it, and
because the signatures for Solana are plain hexadecimal text.
-/

namespace Tsunagari

open QueueProcessor (Course destinationCall deliver signatureBytes)

variable {P : Platform} {cfg : Config} {e : BridgeEvent}

/-! ## Text -/

theorem strip0x_eq_self {s : String} (h : 'x' ∉ s.toList) : Js.strip0x s = s := by
  unfold Js.strip0x
  split
  next cs hs => rw [hs] at h; simp at h
  next => rfl

theorem strip0x_createMessage (P : Platform) (text : String) (seed : ℕ) :
    Js.strip0x (createMessage P text seed) = createMessage P text seed :=
  strip0x_eq_self fun hx => absurd (isDigit_of_mem_createMessage hx) (by decide)

theorem BridgeEvent.strip0x_message (P : Platform) (cfg : Config) (e : BridgeEvent) :
    Js.strip0x (e.message P cfg) = e.message P cfg :=
  strip0x_createMessage P e.transaction cfg.murmur3Seed

/-- The processor reads hexadecimal text without a prefix back. -/
theorem signatureBytes_encode (bs : Bytes) :
    signatureBytes (String.ofList (Hex.encode bs)) = bs := by
  have hx : 'x' ∉ (String.ofList (Hex.encode bs)).toList := by
    rw [String.toList_ofList]
    intro hx
    exact absurd (Hex.digitVal_isSome_of_mem_encode hx) (by decide)
  rw [signatureBytes, strip0x_eq_self hx, bufferFromHex, String.toList_ofList, Hex.decode_encode]

/-! ## The signatures of an event -/

/-- A string is, after the processor's decoding, a signature of the node over the message bytes of
the event, in the scheme of its destination: EIP-191 over the UTF-8 bytes for an EVM chain, and the
compact signature with its recovery id of the hash of the hex-decoded bytes for Solana. -/
def BridgeEvent.Signature (P : Platform) (cfg : Config) (e : BridgeEvent) (node : Node)
    (s : String) : Prop :=
  if e.destination = SOLANA_CHAIN_ID then
    ∃ sig, P.secp256k1Sign (P.keccak256 (bufferFromHex (Js.strip0x (e.message P cfg))))
        node.privateKey = .ok sig ∧ signatureBytes s = sig.bytes
  else s = hexlify (P.eip191Sign node.privateKey (Js.toUtf8Bytes (e.message P cfg))).toList

theorem SolanaClientService.signMessageEVM_eq_ok {message privateKey s : String}
    (h : signMessageEVM P message privateKey = .ok s) :
    ∃ sig, P.secp256k1Sign (P.keccak256 (bufferFromHex message)) privateKey = .ok sig ∧
      s = String.ofList (Hex.encode sig.bytes) := by
  unfold signMessageEVM at h
  cases hsig : P.secp256k1Sign (P.keccak256 (bufferFromHex message)) privateKey with
  | error err => simp only [hsig] at h; cases h
  | ok sig => simp only [hsig] at h; cases h; exact ⟨sig, rfl, rfl⟩

/-- What an EVM handler signs. -/
theorem EthereumClientService.signature_of_sign {node : Node} {s : String}
    (h : sign P cfg node e.destination (e.message P cfg) = .ok s) : e.Signature P cfg node s := by
  unfold BridgeEvent.Signature
  unfold sign at h
  by_cases hd : e.destination = SOLANA_CHAIN_ID
  · rw [if_pos hd] at h ⊢
    obtain ⟨sig, hsig, rfl⟩ := SolanaClientService.signMessageEVM_eq_ok h
    exact ⟨sig, by rw [e.strip0x_message]; exact hsig, signatureBytes_encode _⟩
  · rw [if_neg hd] at h ⊢
    unfold signMessage at h
    split at h <;> cases h
    rfl

/-- **The handlers sign in the scheme of the destination**, unless the event stays on its chain. -/
theorem BridgeEvent.signature_of_sign {node : Node} {s : String} (hne : e.destination ≠ e.origin)
    (h : e.sign P cfg node = .ok s) : e.Signature P cfg node s := by
  have hsolana : ∀ {s}, e.origin = SOLANA_CHAIN_ID →
      s = SolanaClientService.signMessage P node (e.message P cfg) → e.Signature P cfg node s := by
    rintro s horigin rfl
    unfold Signature
    rw [if_neg (horigin ▸ hne)]
    rfl
  cases e with
  | tokensLocked chainId log => exact EthereumClientService.signature_of_sign h
  | wrappedTokensBurned chainId log => exact EthereumClientService.signature_of_sign h
  | solanaTokensLocked txSignature data => exact hsolana rfl (Except.ok.inj h).symm
  | solanaTokensBurned txSignature data => exact hsolana rfl (Except.ok.inj h).symm

/-! ## What a worker reads and passes on -/

variable {δ : Type} {env : Env} {event : δ → BridgeEvent} {node : δ → Node} {w w' : World δ}

/-- The strings are signatures that deliveries with the given message made. -/
def Signed (P : Platform) (cfg : Config) (event : δ → BridgeEvent) (node : δ → Node)
    (message : String) (vs : List String) : Prop :=
  ∀ v ∈ vs, ∃ d, (event d).message P cfg = message ∧ (event d).sign P cfg (node d) = .ok v

/-- What is read was signed, and what is passed to a destination was signed for the job. -/
structure Entry.Forwards (P : Platform) (cfg : Config) (event : δ → BridgeEvent) (node : δ → Node)
    (entry : Entry δ) : Prop where
  read : ∀ key vs, (⟨entry.op, entry.result⟩ : Σ o : Op, Except JsError o.Resp) =
    ⟨.lrange key, .ok vs⟩ → Signed P cfg event node key vs
  call : ∀ c, entry.op.call? = some c → ∃ (data : BridgeJob) (vs : List String),
    (∃ d, data.OfEvent P cfg (event d)) ∧ Signed P cfg event node data.message vs ∧
      destinationCall P data vs = .ok c

/-- Workers read and pass on only signatures that were made for the message of their job. -/
structure Forwards (P : Platform) (cfg : Config) (event : δ → BridgeEvent) (node : δ → Node)
    (w : World δ) : Prop where
  confined : Confined P cfg event node w
  active : ∀ id entry prog, w.store.jobs id = some entry → entry.status = .active prog →
    Course P entry.data (Signed P cfg event node entry.data.message) True prog
  trace : ∀ entry ∈ w.trace, entry.Forwards P cfg event node

/-- What is in the lists was signed. -/
theorem Confined.signed (hw : Confined P cfg event node w) (key : String) :
    Signed P cfg event node key ((w.store.lists key).map Prod.snd) := by
  intro v hv
  obtain ⟨x, hx, rfl⟩ := List.mem_map.1 hv
  obtain ⟨hkey, hsign⟩ := hw.lists key x hx
  exact ⟨x.1, hkey.symm, hsign⟩

namespace Forwards

theorem init : Forwards P cfg event node (World.init fun d => (event d).handle P cfg (node d)) where
  confined := Confined.init
  active id entry prog h := by cases h
  trace entry h := by cases h

/-- What an operation reads was signed. -/
theorem read_of_answered {s store : Store δ} {queued queued' : List (String × String)} {o : Op}
    {r : Reply} {result : Except JsError o.Resp}
    (hlists : ∀ key, Signed P cfg event node key ((s.lists key).map Prod.snd))
    (hans : Answered env s queued o r result store queued') :
    ∀ key vs, (⟨o, result⟩ : Σ o : Op, Except JsError o.Resp) = ⟨.lrange key, .ok vs⟩ →
      Signed P cfg event node key vs := by
  rintro key vs ⟨⟩
  cases hans
  exact hlists key

/-- The worker's operation is answered. -/
theorem course {data : BridgeJob} {s store : Store δ} {queued queued' : List (String × String)}
    {o : Op} {k : Except JsError o.Resp → Task Unit} {r : Reply} {result : Except JsError o.Resp}
    {V : List String → Prop} (hread : V ((s.lists data.message).map Prod.snd))
    (h : Course P data V True (.await o k))
    (hans : Answered env s queued o r result store queued') :
    Course P data V True (k result) ∧
      ∀ c, o.call? = some c → ∃ vs, V vs ∧ destinationCall P data vs = .ok c := by
  generalize hp : Async.Prog.await o k = prog at h
  cases h with
  | start =>
    cases hp
    refine ⟨?_, fun c hc => by cases hc⟩
    cases hans with
    | failed _ e => exact .served trivial
    | lrange key hq => exact .afterRead (fun _ => hread) fun _ => trivial
  | held vs hv =>
    cases hp
    exact ⟨.cleared vs hv, fun c hc => by cases hc⟩
  | cleared vs hv =>
    unfold deliver at hp
    split at hp
    next => cases hp
    next c hc =>
      cases hp
      exact ⟨.served trivial, fun c' hc' => ⟨vs, hv, by cases hc'; exact hc⟩⟩
    next c hc =>
      cases hp
      exact ⟨.served trivial, fun c' hc' => ⟨vs, hv, by cases hc'; exact hc⟩⟩
  | served h => cases hp

/-- An answer makes no job active. -/
theorem active_of_answered (hw : Forwards P cfg event node w) {store : Store δ}
    {queued queued' : List (String × String)} {o : Op} {r : Reply} {result : Except JsError o.Resp}
    (hans : Answered env w.store queued o r result store queued') {id : String} {entry : JobEntry}
    {prog : Task Unit} (hjob : store.jobs id = some entry) (hstatus : entry.status = .active prog) :
    Course P entry.data (Signed P cfg event node entry.data.message) True prog := by
  rcases hans.store_cases with rfl | ⟨key, rfl, rfl⟩ | ⟨data, id', opts, rfl, rfl⟩
  · exact hw.active id entry prog hjob hstatus
  · exact hw.active id entry prog hjob hstatus
  · rcases Store.jobs_addJob_cases hjob with hjob | ⟨-, -, rfl⟩
    · exact hw.active id entry prog hjob hstatus
    · cases hstatus

/-- A job is replaced. -/
theorem active_of_setJob (hw : Forwards P cfg event node w) {store : Store δ} {id : String}
    {new : Option JobEntry} (hstore : store.jobs = w.store.jobs)
    (hnew : ∀ entry prog, new = some entry → entry.status = .active prog →
      Course P entry.data (Signed P cfg event node entry.data.message) True prog) {id' : String}
    {entry : JobEntry} {prog : Task Unit} (hjob : (store.setJob id new).jobs id' = some entry)
    (hstatus : entry.status = .active prog) :
    Course P entry.data (Signed P cfg event node entry.data.message) True prog := by
  rcases Store.jobs_setJob_cases hjob with ⟨rfl, heq⟩ | ⟨-, hjob⟩
  · exact hnew entry prog heq hstatus
  · exact hw.active id' entry prog (hstore ▸ hjob) hstatus

/-- An entry is added to the trace. -/
theorem append (hw : Forwards P cfg event node w) {x : Entry δ} (hx : x.Forwards P cfg event node) :
    ∀ entry ∈ w.trace ++ [x], entry.Forwards P cfg event node := by
  intro entry hmem
  rcases List.mem_append.1 hmem with hmem | hmem
  · exact hw.trace entry hmem
  · rw [List.mem_singleton.1 hmem]
    exact hx

variable [DecidableEq δ]

theorem step (hw : Forwards P cfg event node w) {a : Action δ} (h : w.step P cfg env a = some w') :
    Forwards P cfg event node w' := by
  have hconf := hw.confined.step h
  cases step_eq_some.1 h with
  | @handler d r o k result store queued hprog hans =>
    have hall := hw.confined.handlers d
    rw [hprog] at hall
    refine ⟨hconf, fun id entry prog => hw.active_of_answered hans, hw.append
      ⟨read_of_answered hw.confined.signed hans, fun c hc => ?_⟩⟩
    cases o with
    | callEvm c => exact absurd hall.1 not_false
    | callSolana c => exact absurd hall.1 not_false
    | _ => cases hc
  | flush hqueued => exact ⟨hconf, hw.active, hw.trace⟩
  | flushFailed hqueued => exact ⟨hconf, hw.active, hw.trace⟩
  | stop hprog => exact ⟨hconf, hw.active, hw.trace⟩
  | @take id entry hjob hstatus =>
    refine ⟨hconf, fun id' entry' prog => hw.active_of_setJob rfl ?_, hw.trace⟩
    rintro _ _ ⟨⟩ ⟨⟩
    rw [QueueProcessor.process_eq]
    exact .start
  | @worker id r entry o k result store queued hjob hstatus hans =>
    have hjobOf := hw.confined.jobs id entry hjob
    obtain ⟨d, -, hof⟩ := hjobOf.of_event
    obtain ⟨hcourse, hcall⟩ :=
      course (hw.confined.signed _) (hw.active id entry _ hjob hstatus) hans
    refine ⟨hconf, fun id' entry' prog => hw.active_of_setJob
      (hans.jobs_of_worker (hjobOf.active _ hstatus).1) ?_, hw.append
      ⟨read_of_answered hw.confined.signed hans, fun c hc => ?_⟩⟩
    · rintro _ _ ⟨⟩ ⟨⟩
      exact hcourse
    · obtain ⟨vs, hvs, hdest⟩ := hcall c hc
      exact ⟨entry.data, vs, ⟨d, hof⟩, hvs, hdest⟩
  | @complete id entry u hjob hstatus =>
    refine ⟨hconf, fun id' entry' prog => hw.active_of_setJob rfl ?_, hw.trace⟩
    rw [(hw.confined.jobs id entry hjob).removed]
    rintro _ _ ⟨⟩
  | @retry id entry e hjob hstatus =>
    exact absurd rfl ((hw.active id entry _ hjob hstatus).ne_throw e)
  | @completion id serial r o k result store queued hprog hans =>
    have hall := hw.confined.completions (id, serial)
    rw [hprog] at hall
    refine ⟨hconf, fun id entry prog => hw.active_of_answered hans, hw.append
      ⟨read_of_answered hw.confined.signed hans, fun c hc => ?_⟩⟩
    cases o with
    | callEvm c => exact absurd hall.1 not_false
    | callSolana c => exact absurd hall.1 not_false
    | _ => cases hc

theorem of_run {l : List (Action δ)}
    (h : World.run P cfg env (World.init fun d => (event d).handle P cfg (node d)) l = some w) :
    Forwards P cfg event node w :=
  Async.exec_invariant (Forwards P cfg event node) (fun _ => True) (fun _ hw hs => hw.step hs) init
    (fun _ _ => trivial) h

end Forwards

/-! ## What is signed is what is submitted -/

/-- A signature string of the call is an EIP-191 signature of the node over the UTF-8 bytes of the
message, which are the message bytes that the client passes to the contract together with it. -/
structure EvmCall.SignedBy (P : Platform) (cfg : Config) (c : EvmCall) (node : Node) (s : String) :
    Prop where
  signature : s = hexlify (P.eip191Sign node.privateKey (Js.toUtf8Bytes c.signedMessage)).toList
  messageBytes : messageToBytes c.signedMessage = hexlify (Js.toUtf8Bytes c.signedMessage)
  sent : ∀ chainId contract method args, c.Sends cfg chainId contract method args →
    args.messageBytes = hexlify (Js.toUtf8Bytes c.signedMessage) ∧ s ∈ args.signatures

/-- A decoded signature of the call has the bytes of the node's signature over the hash of the
hex-decoded message, whose bytes the client passes to the program together with it. -/
structure SolanaCall.SignedBy (P : Platform) (c : SolanaCall) (node : Node) (bs : Bytes) :
    Prop where
  signature : ∃ sig, P.secp256k1Sign
      (P.keccak256 (SolanaClientService.messageBytes c.signedMessage)) node.privateKey = .ok sig ∧
    bs = sig.r.toList ++ sig.s.toList ++ [sig.recovery]
  sent : ∀ L tr ix, c.Sends P L tr ix →
    ix.message = SolanaClientService.messageBytes c.signedMessage ∧ bs ∈ ix.signatures

/-- **What is signed is what is submitted.** When every transaction carries one bridge event and
messages do not collide, every string that a worker reads for an event that leaves its chain is a
signature of one of the nodes, and every call for the event goes to the kind of chain of its
destination and carries only signatures over the message bytes that its client sends. -/
theorem signed_of_submitted [DecidableEq δ]
    (hevent : ∀ d d', (event d).transaction = (event d').transaction → event d = event d')
    (hmessage : ∀ d d', (event d).message P cfg = (event d').message P cfg →
      (event d).transaction = (event d').transaction) {l : List (Action δ)}
    (hrun : World.run P cfg env (World.init fun d => (event d).handle P cfg (node d)) l = some w)
    (d₀ : δ) (hleaves : (event d₀).destination ≠ (event d₀).origin) :
    ∀ entry ∈ w.trace,
      (∀ vs, (⟨entry.op, entry.result⟩ : Σ o : Op, Except JsError o.Resp) =
          ⟨.lrange ((event d₀).message P cfg), .ok vs⟩ →
        ∀ s ∈ vs, ∃ d, event d = event d₀ ∧ (event d₀).Signature P cfg (node d) s) ∧
      (∀ c, entry.op = .callEvm c → c.signedMessage = (event d₀).message P cfg →
        (event d₀).destination ≠ SOLANA_CHAIN_ID ∧
          ∀ s ∈ c.signatures, ∃ d, event d = event d₀ ∧ c.SignedBy P cfg (node d) s) ∧
      ∀ c, entry.op = .callSolana c → c.signedMessage = (event d₀).message P cfg →
        (event d₀).destination = SOLANA_CHAIN_ID ∧
          ∀ bs ∈ c.signatures, ∃ d, event d = event d₀ ∧ c.SignedBy P (node d) bs := by
  have hsame : ∀ d, (event d).message P cfg = (event d₀).message P cfg → event d = event d₀ :=
    fun d h => hevent d d₀ (hmessage d d₀ h)
  have hsigned : ∀ vs, Signed P cfg event node ((event d₀).message P cfg) vs →
      ∀ s ∈ vs, ∃ d, event d = event d₀ ∧ (event d₀).Signature P cfg (node d) s := by
    intro vs hvs s hs
    obtain ⟨d, hd, hsign⟩ := hvs s hs
    have hed := hsame d hd
    rw [hed] at hsign
    exact ⟨d, hed, BridgeEvent.signature_of_sign hleaves hsign⟩
  have hof : ∀ (data : BridgeJob) d, data.OfEvent P cfg (event d) →
      data.message = (event d₀).message P cfg →
        data.destinationChainId = (event d₀).destination := by
    rintro data d ⟨hmsg, hdest⟩ h
    rw [hdest, hsame d (hmsg.symm.trans h)]
  intro entry hmem
  obtain ⟨hread, hcall⟩ := (Forwards.of_run hrun).trace entry hmem
  refine ⟨fun vs h => hsigned vs (hread _ vs h), fun c hop hmsg => ?_, fun c hop hmsg => ?_⟩
  · obtain ⟨data, vs, ⟨d, hd⟩, hvs, hdest⟩ := hcall (.evm c) (by rw [hop]; rfl)
    by_cases hchain : data.destinationChainId = SOLANA_CHAIN_ID
    · obtain ⟨tokenMint, amount, -, -, hc⟩ :=
        (QueueProcessor.destinationCall_eq_solana hchain).1 hdest
      cases hc
    · obtain ⟨amount, -, hc⟩ := (QueueProcessor.destinationCall_eq_evm hchain).1 hdest
      cases hc
      rw [hof data d hd hmsg] at hchain
      refine ⟨hchain, fun s hs => ?_⟩
      obtain ⟨d', hed, hsig⟩ := hsigned vs (hmsg ▸ hvs) s hs
      rw [BridgeEvent.Signature, if_neg hchain, ← hmsg] at hsig
      refine ⟨d', hed, hsig, rfl, fun chainId contract method args hsend => ?_⟩
      obtain ⟨-, -, rfl, -⟩ := hsend.course
      exact ⟨rfl, hs⟩
  · obtain ⟨data, vs, ⟨d, hd⟩, hvs, hdest⟩ := hcall (.solana c) (by rw [hop]; rfl)
    by_cases hchain : data.destinationChainId = SOLANA_CHAIN_ID
    · obtain ⟨tokenMint, amount, -, -, hc⟩ :=
        (QueueProcessor.destinationCall_eq_solana hchain).1 hdest
      cases hc
      rw [hof data d hd hmsg] at hchain
      refine ⟨hchain, fun bs hbs => ?_⟩
      obtain ⟨s, hs, rfl⟩ := List.mem_map.1 hbs
      obtain ⟨d', hed, hsig⟩ := hsigned vs (hmsg ▸ hvs) s hs
      rw [BridgeEvent.Signature, if_pos hchain, ← hmsg] at hsig
      obtain ⟨sig, hsecp, hbytes⟩ := hsig
      refine ⟨d', hed, ⟨sig, hsecp, hbytes⟩, fun L tr ix hsend => ?_⟩
      obtain ⟨receiver, ata, decimals, -, -, rfl⟩ := hsend.course
      exact ⟨SolanaCall.instruction_message .., by rw [SolanaCall.instruction_signatures]; exact hbs⟩
    · obtain ⟨amount, -, hc⟩ := (QueueProcessor.destinationCall_eq_evm hchain).1 hdest
      cases hc

/-- Two nodes sign the lock for the second EVM chain, and a worker submits both signatures. -/
theorem signed_of_submitted_sample :
    ∃ w : World (Fin 2),
      World.run Sample.platform Sample.config (Sample.env 2 2)
          (Sample.world (Sample.lock 137) 2 (Nat.le_succ 2))
          (Sample.push 0 ++ Sample.push 1 ++ Sample.count 0 ++ Sample.enqueue 0 ++
            Sample.serve "jobID: 2361242049" (.receipt (some 1))) = some w ∧
        (w.submissions "jobID: 2361242049").map Call.signatureCount = [2] ∧
          ∀ entry ∈ w.trace, ∀ c, entry.op = .callEvm c →
            c.signedMessage = (Sample.lock 137).message Sample.platform Sample.config →
              ∀ s ∈ c.signatures, ∃ d : Fin 2,
                c.SignedBy Sample.platform Sample.config (Sample.node (d.castLE (by omega)))
                  s := by
  have heval : (World.run Sample.platform Sample.config (Sample.env 2 2)
      (Sample.world (Sample.lock 137) 2 (Nat.le_succ 2))
      (Sample.push 0 ++ Sample.push 1 ++ Sample.count 0 ++ Sample.enqueue 0 ++
        Sample.serve "jobID: 2361242049" (.receipt (some 1)))).map
      (fun w => (w.submissions "jobID: 2361242049").map Call.signatureCount) = some [2] := by
    decide +kernel
  obtain ⟨w, hrun, hcounts⟩ := Option.map_eq_some_iff.1 heval
  refine ⟨w, hrun, hcounts, fun entry hmem c hop hmsg s hs => ?_⟩
  have hleaves : (Sample.lock 137).destination ≠ (Sample.lock 137).origin := by decide +kernel
  obtain ⟨d, -, hsig⟩ := ((signed_of_submitted (fun _ _ _ => rfl) (fun _ _ _ => rfl) hrun 0
    hleaves entry hmem).2.1 c hop hmsg).2 s hs
  exact ⟨d, hsig⟩

end Tsunagari
