import Tsunagari.Bridge.Proofs.CourseProofs
import Tsunagari.Bridge.Proofs.HandlerProofs
import Tsunagari.Bridge.World
import Tsunagari.Bridge.Sample

/-!
# Proofs: whose threshold a handler applies

The EVM handlers compare the count with the threshold of the bridge on the destination chain. The
Solana handlers compare it with the threshold of the bridge on Solana, whatever the destination is.
-/

namespace Tsunagari

open Async (Prog)

variable {P : Platform} {cfg : Config} {node : Node} {e : BridgeEvent} {p : Plan}
  {threshold : BridgeSite → ℕ}

/-- The thresholds that were read are those of the bridges. -/
def Answers.Reads (tr : Answers) (threshold : BridgeSite → ℕ) : Prop :=
  ∀ site n, (⟨.getThreshold site, .ok n⟩ : Σ o : Op, Except JsError o.Resp) ∈ tr →
    n = threshold site

/-- The signatures under the key were counted, and there were `n`. -/
def Answers.Counts (tr : Answers) (key : String) (n : ℕ) : Prop :=
  (⟨.llen key, .ok n⟩ : Σ o : Op, Except JsError o.Resp) ∈ tr

/-- The bridge on the destination chain of the event. -/
def BridgeEvent.destinationSite (e : BridgeEvent) : BridgeSite :=
  if e.destination = SOLANA_CHAIN_ID then .solana else .evm e.destination

/-- The event was observed on Solana. -/
def BridgeEvent.OnSolana : BridgeEvent → Prop
  | tokensLocked _ _ => False
  | wrappedTokensBurned _ _ => False
  | solanaTokensLocked _ _ => True
  | solanaTokensBurned _ _ => True

/-! ## The bridge that is read -/

theorem eq_of_thresholdSite {chain : ℕ} {site : BridgeSite}
    (h : thresholdSite cfg chain = .ok site) :
    site = if chain = SOLANA_CHAIN_ID then .solana else .evm chain := by
  unfold thresholdSite at h
  by_cases hc : chain = SOLANA_CHAIN_ID
  · rw [if_pos hc] at h ⊢
    cases h
    rfl
  · rw [if_neg hc] at h ⊢
    cases hn : cfg.network? chain with
    | none => rw [hn] at h; cases h
    | some network =>
      rw [hn] at h
      simp only at h
      split at h
      · cases h
      · cases h; rfl

/-- The handlers of events on Solana read the threshold there. -/
theorem Plan.site_of_onSolana (hplan : e.plan P cfg = .ok p) (h : e.OnSolana) :
    p.site = .ok .solana := by
  cases e with
  | tokensLocked chainId log => cases h
  | wrappedTokensBurned chainId log => cases h
  | solanaTokensLocked txSignature data => obtain ⟨dest, -, h⟩ := except_bind_ok hplan; cases h; rfl
  | solanaTokensBurned txSignature data => obtain ⟨dest, -, h⟩ := except_bind_ok hplan; cases h; rfl

/-- The handlers of events on EVM chains read the threshold of the destination. -/
theorem Plan.site_of_not_onSolana {site : BridgeSite} (hplan : e.plan P cfg = .ok p)
    (h : ¬ e.OnSolana) (hsite : p.site = .ok site) : site = e.destinationSite := by
  cases e with
  | tokensLocked chainId log =>
    obtain ⟨dest, -, h⟩ := except_bind_ok hplan
    cases h
    exact eq_of_thresholdSite hsite
  | wrappedTokensBurned chainId log =>
    obtain ⟨dest, -, h⟩ := except_bind_ok hplan
    cases h
    exact eq_of_thresholdSite hsite
  | solanaTokensLocked txSignature data => exact absurd trivial h
  | solanaTokensBurned txSignature data => exact absurd trivial h

/-! ## The course of a handler -/

/-- A handler adds a job only after it has counted enough for the bridge that it reads. -/
theorem Plan.counts_of_add {signature : String} {tr : Answers} {data : BridgeJob} {id : String}
    {opts : JobOptions} {k : Except JsError Unit → Task Unit}
    (h : Prog.Path (p.start signature) tr (.await (.add data id opts) k))
    (hreads : tr.Reads threshold) :
    ∃ site n, p.site = .ok site ∧ tr.Counts p.message n ∧ threshold site ≤ n := by
  obtain ⟨site, r, t, count, decimals, hsite, hreached, -, -, -, rfl⟩ := course_of_add h
  have ht : t = threshold site := hreads site t (by simp)
  subst ht
  rcases count with err | n
  · cases hreached
  · exact ⟨site, n, hsite, by simp [Answers.Counts], of_decide_eq_true hreached⟩

/-- A handler that counts `n` signatures, enough for the bridge that it reads, adds a job. -/
theorem Plan.add_of_counts (threshold : BridgeSite → ℕ) {site : BridgeSite} {n : ℕ}
    (hsite : p.site = .ok site) (hn : threshold site ≤ n) (signature : String) :
    ∃ (tr : Answers) (data : BridgeJob) (id : String) (opts : JobOptions)
      (k : Except JsError Unit → Task Unit),
      Prog.Path (p.start signature) tr (.await (.add data id opts) k) ∧ tr.Reads threshold ∧
        ∀ key m, tr.Counts key m → m = n := by
  obtain ⟨d, k, hpath, -⟩ := exists_path_add hsite signature hn 0
  have hother : ∀ x ∈ p.mintAnswers 0 ++ [⟨.getJob p.jobId, .ok false⟩],
      (∀ site n, x ≠ ⟨.getThreshold site, .ok n⟩) ∧ ∀ key m, x ≠ ⟨.llen key, .ok m⟩ := by
    cases hmint : p.mint with
    | none =>
      rw [mintAnswers_of_none hmint]
      simp
    | some mint =>
      rw [mintAnswers_of_some hmint]
      simp
  refine ⟨_, _, _, _, k, hpath, ?_, ?_⟩
  · intro site' m hmem
    simp only [List.mem_cons] at hmem
    rcases hmem with h | h | h | h
    · cases h
    · cases h; rfl
    · cases h
    · exact absurd rfl ((hother _ h).1 site' m)
  · intro key m hmem
    simp only [Answers.Counts, List.mem_cons] at hmem
    rcases hmem with h | h | h | h
    · cases h
    · cases h
    · cases h; rfl
    · exact absurd rfl ((hother _ h).2 key m)

/-! ## The quorum of the destination -/

/-- **A handler adds a job only when the count is at least the threshold of the bridge on the
destination chain, exactly when the event was observed on an EVM chain, or its lookups fail, or the
threshold on Solana is not below the one of the destination.** -/
theorem destination_quorum_iff :
    (∀ (tr : Answers) (data : BridgeJob) (id : String) (opts : JobOptions)
        (k : Except JsError Unit → Task Unit),
        Prog.Path (e.handle P cfg node) tr (.await (.add data id opts) k) → tr.Reads threshold →
          ∃ n, tr.Counts (e.message P cfg) n ∧ threshold e.destinationSite ≤ n) ↔
      (e.OnSolana → (e.plan P cfg).isOk → threshold e.destinationSite ≤ threshold .solana) := by
  rw [e.handle_eq]
  cases hplan : e.plan P cfg with
  | error err =>
    refine ⟨fun _ _ h => (by cases h), fun _ tr data id opts k h _ => ?_⟩
    cases h.of_throw
  | ok p =>
    have hmsg := (Plan.of_plan hplan).message
    constructor
    · intro h hsolana _
      obtain ⟨signature, hsign⟩ : ∃ signature, e.sign P cfg node = .ok signature := by
        cases e with
        | tokensLocked chainId log => cases hsolana
        | wrappedTokensBurned chainId log => cases hsolana
        | solanaTokensLocked txSignature data => exact ⟨_, rfl⟩
        | solanaTokensBurned txSignature data => exact ⟨_, rfl⟩
      rw [hsign] at h
      obtain ⟨tr, data, id, opts, k, hpath, hreads, hcount⟩ :=
        Plan.add_of_counts threshold (Plan.site_of_onSolana hplan hsolana) le_rfl signature
      obtain ⟨n, hn, hle⟩ := h tr data id opts k hpath hreads
      rwa [← hcount _ n hn]
    · intro h tr data id opts k hpath hreads
      cases hsign : e.sign P cfg node with
      | error err => rw [hsign] at hpath; cases hpath.of_throw
      | ok signature =>
        rw [hsign] at hpath
        obtain ⟨site, n, hsite, hcount, hle⟩ := Plan.counts_of_add hpath hreads
        refine ⟨n, hmsg ▸ hcount, le_trans ?_ hle⟩
        by_cases hsolana : e.OnSolana
        · have hsolana' := Plan.site_of_onSolana hplan hsolana
          rw [hsite] at hsolana'
          cases hsolana'
          exact h hsolana rfl
        · rw [Plan.site_of_not_onSolana hplan hsolana hsite]

/-- The destination needs three signatures and Solana one: the handler of a lock on Solana adds the
job after counting one. -/
theorem not_destination_quorum_sample :
    ¬ ∀ (tr : Answers) (data : BridgeJob) (id : String) (opts : JobOptions)
      (k : Except JsError Unit → Task Unit),
      Prog.Path (Sample.solanaLock.handle Sample.platform Sample.config (Sample.node 0)) tr
          (.await (.add data id opts) k) → tr.Reads (Sample.env 3 1).threshold →
        ∃ n, tr.Counts (Sample.solanaLock.message Sample.platform Sample.config) n ∧
          (Sample.env 3 1).threshold Sample.solanaLock.destinationSite ≤ n := by
  intro h
  obtain ⟨p, hplan, hsite⟩ := exists_ok_of_decide (p := fun p : Plan => p.site = .ok .solana)
    (x := Sample.solanaLock.plan Sample.platform Sample.config) (by decide +kernel)
  rw [BridgeEvent.handle_eq, hplan] at h
  obtain ⟨tr, data, id, opts, k, hpath, hreads, hcount⟩ :=
    Plan.add_of_counts (Sample.env 3 1).threshold (n := 1) hsite le_rfl
      (SolanaClientService.signMessage Sample.platform (Sample.node 0)
        (Sample.solanaLock.message Sample.platform Sample.config))
  obtain ⟨n, hn, hle⟩ := h tr data id opts k hpath hreads
  rw [hcount _ n hn] at hle
  exact absurd hle (by decide)

end Tsunagari
