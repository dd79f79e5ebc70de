import Tsunagari.Bridge.Clients
import Tsunagari.Bridge.Proofs.HandlerProofs
import Tsunagari.Bridge.Proofs.ProcessorProofs

/-!
# Proofs: the course of a handler up to its job, and of the processor up to its call

A function of the backend that gets to a given operation has been answered everything before it, and
each of the answers was a success where an error would have ended it.
-/

namespace Tsunagari

open Async (Prog)

/-! ## From the event to the job -/

namespace Plan

variable {p : Plan} {signature : String} {tr : Answers} {data : BridgeJob} {id : String}
  {opts : JobOptions} {k : Except JsError Unit → Task Unit}

/-- What a handler is answered about the mint of its token. -/
def mintAnswers (p : Plan) (decimals : ℕ) : Answers :=
  match p.mint with
  | none => []
  | some mint => [⟨.getMint mint, .ok decimals⟩]

theorem mintAnswers_of_none (h : p.mint = none) (decimals : ℕ) : p.mintAnswers decimals = [] := by
  cases p
  cases h
  rfl

theorem mintAnswers_of_some {mint : PublicKey} (h : p.mint = some mint) (decimals : ℕ) :
    p.mintAnswers decimals = [⟨.getMint mint, .ok decimals⟩] := by
  cases p
  cases h
  rfl

theorem add_of_enqueue {reached : Bool} {decimals : ℕ}
    (h : Prog.Path (p.enqueue reached decimals) tr (.await (.add data id opts) k)) :
    reached = true ∧ data = p.job decimals ∧ id = p.jobId ∧ opts = p.opts ∧
      tr = [⟨.getJob p.jobId, .ok false⟩] := by
  cases reached with
  | false => cases h.of_ret
  | true =>
    rw [enqueue_true] at h
    obtain h₁ | ⟨r₁, tr₁, rfl, h₁⟩ := h.of_await
    · cases h₁
    rcases r₁ with err | existing
    · cases h₁.of_ret
    cases existing with
    | true => cases h₁.of_ret
    | false =>
      cases h₁ with
      | refl => exact ⟨rfl, rfl, rfl, rfl, rfl⟩
      | await r h₂ => cases h₂.of_ret

theorem add_of_readMint {reached : Bool}
    (h : Prog.Path (p.readMint reached) tr (.await (.add data id opts) k)) :
    ∃ decimals, reached = true ∧ data = p.job decimals ∧ id = p.jobId ∧ opts = p.opts ∧
      tr = p.mintAnswers decimals ++ [⟨.getJob p.jobId, .ok false⟩] := by
  cases hmint : p.mint with
  | none =>
    rw [readMint_of_none hmint] at h
    obtain ⟨hreached, hdata, hid, hopts, rfl⟩ := add_of_enqueue h
    exact ⟨0, hreached, hdata, hid, hopts, by rw [mintAnswers_of_none hmint, List.nil_append]⟩
  | some mint =>
    rw [readMint_of_some hmint] at h
    obtain h₁ | ⟨r₁, tr₁, rfl, h₁⟩ := h.of_await
    · cases h₁
    rcases r₁ with err | decimals
    · cases h₁.of_throw
    obtain ⟨hreached, hdata, hid, hopts, rfl⟩ := add_of_enqueue h₁
    exact ⟨decimals, hreached, hdata, hid, hopts, by rw [mintAnswers_of_some hmint]; rfl⟩

/-- **The course of a handler up to its job.** -/
theorem course_of_add (h : Prog.Path (p.start signature) tr (.await (.add data id opts) k)) :
    ∃ site r threshold count decimals, p.site = .ok site ∧
      thresholdReached (Except.toOption count) threshold = true ∧
        data = p.job decimals ∧ id = p.jobId ∧ opts = p.opts ∧
          tr = ⟨.rpush p.message signature, r⟩ :: ⟨.getThreshold site, .ok threshold⟩ ::
            ⟨.llen p.message, count⟩ ::
              (p.mintAnswers decimals ++ [⟨.getJob p.jobId, .ok false⟩]) := by
  obtain h₁ | ⟨r₁, tr₁, rfl, h₁⟩ := h.of_await
  · cases h₁
  cases hsite : p.site with
  | error err => rw [readThreshold_of_error hsite] at h₁; cases h₁.of_throw
  | ok site =>
    rw [readThreshold_of_site hsite] at h₁
    obtain h₂ | ⟨r₂, tr₂, rfl, h₂⟩ := h₁.of_await
    · cases h₂
    rcases r₂ with err | threshold
    · cases h₂.of_throw
    obtain h₃ | ⟨count, tr₃, rfl, h₃⟩ := h₂.of_await
    · cases h₃
    obtain ⟨decimals, hreached, hdata, hid, hopts, rfl⟩ := add_of_readMint h₃
    exact ⟨site, r₁, threshold, count, decimals, rfl, hreached, hdata, hid, hopts, rfl⟩

/-- A handler that counts enough and finds no job gets to its job. -/
theorem exists_path_add {site : BridgeSite} (hsite : p.site = .ok site) (signature : String)
    {threshold n : ℕ} (hn : threshold ≤ n) (decimals : ℕ) :
    ∃ d k, Prog.Path (p.start signature)
      (⟨.rpush p.message signature, .ok 0⟩ :: ⟨.getThreshold site, .ok threshold⟩ ::
        ⟨.llen p.message, .ok n⟩ ::
          (p.mintAnswers decimals ++ [⟨.getJob p.jobId, .ok false⟩]))
      (.await (.add (p.job d) p.jobId p.opts) k) ∧ ∀ mint, p.mint = some mint → d = decimals := by
  have hreached : thresholdReached (some n) threshold = true := decide_eq_true hn
  have hadd : ∀ d, Prog.Path (p.enqueue true d) [⟨.getJob p.jobId, .ok false⟩]
      (.await (.add (p.job d) p.jobId p.opts) fun _ => .ret ()) := by
    intro d
    rw [enqueue_true]
    exact .await _ (.refl _)
  have hcount : ∀ {tr q}, Prog.Path (p.readMint true) tr q →
      Prog.Path (p.start signature) (⟨.rpush p.message signature, .ok 0⟩ ::
        ⟨.getThreshold site, .ok threshold⟩ :: ⟨.llen p.message, .ok n⟩ :: tr) q := by
    intro tr q h
    refine .await _ ?_
    rw [readThreshold_of_site hsite]
    refine .await _ ?_
    show Prog.Path (p.readCount threshold) _ q
    refine .await _ ?_
    show Prog.Path (p.readMint (thresholdReached (some n) threshold)) tr q
    rw [hreached]
    exact h
  cases hmint : p.mint with
  | none =>
    refine ⟨0, fun _ => .ret (), hcount ?_, fun mint h => by cases h⟩
    rw [readMint_of_none hmint, mintAnswers_of_none hmint]
    exact hadd 0
  | some mint =>
    refine ⟨decimals, fun _ => .ret (), hcount ?_, fun mint h => rfl⟩
    rw [readMint_of_some hmint, mintAnswers_of_some hmint]
    refine .await _ ?_
    exact hadd decimals

end Plan

/-- A handler that gets to its job went through its lookups and signed. -/
theorem BridgeEvent.plan_of_add {P : Platform} {cfg : Config} {node : Node} {e : BridgeEvent}
    {tr : Answers} {data : BridgeJob} {id : String} {opts : JobOptions}
    {k : Except JsError Unit → Task Unit}
    (h : Prog.Path (e.handle P cfg node) tr (.await (.add data id opts) k)) :
    ∃ p signature, e.plan P cfg = .ok p ∧ e.sign P cfg node = .ok signature ∧
      Prog.Path (p.start signature) tr (.await (.add data id opts) k) := by
  rw [e.handle_eq] at h
  cases hplan : e.plan P cfg with
  | error err => rw [hplan] at h; cases h.of_throw
  | ok p =>
    rw [hplan] at h
    cases hsign : e.sign P cfg node with
    | error err => rw [hsign] at h; cases h.of_throw
    | ok signature => rw [hsign] at h; exact ⟨p, signature, rfl, rfl, h⟩

/-- A handler that looks up, signs, counts enough and finds no job gets to its job. -/
theorem BridgeEvent.exists_enqueues {P : Platform} {cfg : Config} {node : Node} {e : BridgeEvent}
    {p : Plan} {signature : String} {site : BridgeSite} (hplan : e.plan P cfg = .ok p)
    (hsign : e.sign P cfg node = .ok signature) (hsite : p.site = .ok site) (decimals : ℕ) :
    ∃ tr d, e.Enqueues P cfg node tr (p.job d) ∧ ∀ mint, p.mint = some mint →
      d = decimals ∧ (⟨.getMint mint, .ok decimals⟩ : Σ o : Op, Except JsError o.Resp) ∈ tr := by
  obtain ⟨d, k, hpath, hd⟩ := Plan.exists_path_add hsite signature (le_refl 1) decimals
  unfold Enqueues
  rw [e.handle_eq, hplan, hsign]
  refine ⟨_, d, ⟨_, _, k, hpath⟩, fun mint hmint => ⟨hd mint hmint, ?_⟩⟩
  rw [Plan.mintAnswers_of_some hmint]
  simp

/-! ## From the job to the call -/

namespace QueueProcessor

variable {P : Platform} {data : BridgeJob} {vs : List String} {tr : Answers} {o : Op}
  {k : Except JsError o.Resp → Task Unit} {c : Call}

/-- The operation with which the processor calls a client. -/
def callOp : Call → Op
  | .evm c => .callEvm c
  | .solana c => .callSolana c

theorem deliver_of_destinationCall (h : destinationCall P data vs = .ok c) :
    deliver P data vs = .await (callOp c) fun _ => .ret () := by
  unfold deliver
  rw [h]
  cases c <;> rfl

/-- The processor that awaits a client has decoded the fields of its job. -/
theorem call_of_deliver (h : Prog.Path (deliver P data vs) tr (.await o k)) :
    ∃ c, o = callOp c ∧ destinationCall P data vs = .ok c := by
  cases hdest : destinationCall P data vs with
  | error err =>
    unfold deliver at h
    rw [hdest] at h
    cases h.of_ret
  | ok c =>
    rw [deliver_of_destinationCall hdest] at h
    obtain h₁ | ⟨r₁, tr₁, -, h₁⟩ := h.of_await
    · cases h₁
      exact ⟨c, rfl, rfl⟩
    · cases h₁.of_ret

/-- **The course of the processor**: it awaits the list, then its deletion, then the client. -/
theorem course_of_process (h : Prog.Path (process P data) tr (.await o k)) :
    o = .lrange data.message ∨ o = .del data.message ∨
      ∃ vs c, vs ≠ [] ∧ o = callOp c ∧ destinationCall P data vs = .ok c := by
  rw [process_eq] at h
  obtain h₁ | ⟨r₁, tr₁, rfl, h₁⟩ := h.of_await
  · cases h₁
    exact Or.inl rfl
  rcases r₁ with err | vs
  · cases h₁.of_ret
  change Prog.Path (afterRead P data vs) tr₁ _ at h₁
  by_cases hvs : vs = []
  · rw [afterRead, if_pos hvs] at h₁
    cases h₁.of_ret
  · rw [afterRead, if_neg hvs] at h₁
    obtain h₂ | ⟨r₂, tr₂, rfl, h₂⟩ := h₁.of_await
    · cases h₂
      exact Or.inr (Or.inl rfl)
    · obtain ⟨c, ho, hdest⟩ := call_of_deliver h₂
      exact Or.inr (Or.inr ⟨vs, c, hvs, ho, hdest⟩)

end QueueProcessor

open QueueProcessor (callOp destinationCall)

/-- The processor calls a client with all that the list held. -/
theorem BridgeJob.Calls.destinationCall {P : Platform} {data : BridgeJob} {c : Call}
    (h : data.Calls P c) : ∃ vs, vs ≠ [] ∧ destinationCall P data vs = .ok c := by
  have hpath : ∃ (tr : Answers) (k : Except JsError (callOp c).Resp → Task Unit),
      Prog.Path (QueueProcessor.process P data) tr (.await (callOp c) k) := by
    cases c <;> exact h
  obtain ⟨tr, k, hpath⟩ := hpath
  obtain ho | ho | ⟨vs, c', hvs, ho, hdest⟩ := QueueProcessor.course_of_process hpath
  · cases c <;> cases ho
  · cases c <;> cases ho
  · have hc : c' = c := by cases c <;> cases c' <;> cases ho <;> rfl
    exact ⟨vs, hvs, hc ▸ hdest⟩

/-- A processor that reads signatures calls a client, if the fields of the job can be decoded. -/
theorem BridgeJob.calls_of_destinationCall {P : Platform} {data : BridgeJob} {vs : List String}
    {c : Call} (hvs : vs ≠ []) (hdest : QueueProcessor.destinationCall P data vs = .ok c) :
    data.Calls P c := by
  have hpath : Prog.Path (QueueProcessor.process P data)
      [⟨.lrange data.message, .ok vs⟩, ⟨.del data.message, .ok 1⟩]
      (.await (callOp c) fun _ => .ret ()) := by
    rw [QueueProcessor.process_eq, ← QueueProcessor.deliver_of_destinationCall hdest]
    refine .await _ ?_
    show Prog.Path (QueueProcessor.afterRead P data vs) _ _
    rw [QueueProcessor.afterRead, if_neg hvs]
    exact .await _ (.refl _)
  cases c <;> exact ⟨_, _, hpath⟩

end Tsunagari
